import OctopusIpc.Cli.Arguments
import OctopusIpc.Server.ClientEvent
import OctopusIpc.Socket.QueryWithEpoll

/-!
# From the command line to the handlers

What becomes of a command line in the server. The client writes one frame, so the server finds
all of it, but a query takes no more than its buffer. The length check of the client lets
through up to 255 arguments, with which the frame is up to 6 bytes longer than that, and the
rest of it is decoded as if it were another command.
-/

namespace OctopusIpc.Cli
open OctopusIpc.Protocol OctopusIpc.Server OctopusIpc.Socket

/-- The command without arguments that six bytes spell. -/
def bareCommand : List UInt8 → Option DataMessage
  | [0xA5, 0xA5, group, id, 0, 0] => some ⟨DataMessage.header, group, id, 0, []⟩
  | _ => none

/-- What the server hands to its handlers of a command line with at most 255 arguments behind
the id. -/
def reached (header : CliHeader) (argv : List (List UInt8)) : List DataMessage :=
  let m := parseArguments header argv
  if m.data.length ≤ 249 then [m]
  else if m.data.length < 255 then [DataMessage.new]
  else (bareCommand (m.data.drop 249)).toList

variable {header : CliHeader} {argv : List (List UInt8)} {m : ValidMessage}

/-! ### Queries that find a frame -/

/-- A query during which nothing arrives and nothing fails. -/
def Uneventful (r : QueryRound) : Prop :=
  r.arrived = [] ∧ r.closes = false ∧ r.pollFails = false

/-- What successive queries take of bytes that are there. -/
def taken : List QueryRound → List UInt8 → List (List UInt8)
  | [], _ => []
  | _ :: rounds, bytes =>
    if bytes = [] then taken rounds bytes
    else bytes.take bufferSize :: taken rounds (bytes.drop bufferSize)

/-- Nothing is taken where nothing is. -/
theorem taken_nil (rounds : List QueryRound) : taken rounds [] = [] := by
  induction rounds with
  | nil => rfl
  | cons r rounds ih => rw [taken, if_pos rfl, ih]

/-- A connection that stays open gives its bytes to the queries and otherwise lets them time
out. -/
theorem chunks_queries_uneventful {rounds : List QueryRound} (hr : ∀ r ∈ rounds, Uneventful r)
    (bytes : List UInt8) :
    chunks (Socket.Connection.queries ⟨bytes, false⟩ rounds) = taken rounds bytes ∧
      ∀ q ∈ Socket.Connection.queries ⟨bytes, false⟩ rounds, q.Alive := by
  induction rounds generalizing bytes with
  | nil => exact ⟨rfl, fun q hq ↦ absurd hq List.not_mem_nil⟩
  | cons r rounds ih =>
    obtain ⟨harrived, hcloses, hpoll⟩ := hr r List.mem_cons_self
    have ih := ih fun r hr' ↦ hr r (List.mem_cons_of_mem _ hr')
    have harrive : Socket.Connection.arrive ⟨bytes, false⟩ r = ⟨bytes, false⟩ := by
      rw [Socket.Connection.arrive, if_neg Bool.false_ne_true, harrived, hcloses,
        List.append_nil]
    rw [Socket.Connection.queries, harrive, hpoll, taken]
    by_cases hbytes : bytes = []
    · subst hbytes
      exact ⟨(ih []).1, List.forall_mem_cons.mpr ⟨trivial, (ih []).2⟩⟩
    · have hquery : Socket.Connection.getQuery ⟨bytes, false⟩ false =
          Socket.Connection.read ⟨bytes, false⟩ := by
        rw [Socket.Connection.getQuery, if_neg Bool.false_ne_true, if_neg Bool.false_ne_true,
          if_neg hbytes]
      simp only [hquery, Socket.Connection.read_of_unread (c := ⟨bytes, false⟩) hbytes,
        if_neg hbytes]
      obtain ⟨hchunks, halive⟩ := ih (bytes.drop bufferSize)
      exact ⟨congrArg _ hchunks, List.forall_mem_cons.mpr ⟨trivial, halive⟩⟩

/-- The bytes arrive at once, during some query, on a connection that stays open, and another
query follows. -/
def FoundAtOnce (bytes : List UInt8) (rounds : List QueryRound) : Prop :=
  ∃ before r after, rounds = before ++ r :: after ∧ after ≠ [] ∧ r.arrived = bytes ∧
    r.closes = false ∧ r.pollFails = false ∧ (∀ q ∈ before, Uneventful q) ∧
    ∀ q ∈ after, Uneventful q

/-- The query during which the bytes arrive takes the first of them, the next one those that are
left. -/
theorem chunks_queries_foundAtOnce {bytes : List UInt8} {rounds : List QueryRound}
    (h : FoundAtOnce bytes rounds) :
    (∃ r q later, chunks (Socket.Connection.queries ⟨[], false⟩ rounds) =
        taken (r :: q :: later) bytes) ∧
      ∀ q ∈ Socket.Connection.queries ⟨[], false⟩ rounds, q.Alive := by
  obtain ⟨before, r, after, rfl, hafter, rfl, hcloses, hpoll, hbefore, hquiet⟩ := h
  induction before with
  | nil =>
    have hquiet' : ∀ q ∈ { r with arrived := [] } :: after, Uneventful q :=
      List.forall_mem_cons.mpr ⟨⟨rfl, hcloses, hpoll⟩, hquiet⟩
    have hsame : Socket.Connection.queries ⟨[], false⟩ (r :: after) =
        Socket.Connection.queries ⟨r.arrived, false⟩ ({ r with arrived := [] } :: after) := by
      simp only [Socket.Connection.queries, Socket.Connection.arrive, Bool.false_eq_true,
        if_false, List.nil_append, List.append_nil]
    obtain ⟨hchunks, halive⟩ := chunks_queries_uneventful hquiet' r.arrived
    rw [List.nil_append, hsame]
    obtain ⟨q, later, rfl⟩ := List.exists_cons_of_ne_nil hafter
    exact ⟨⟨_, q, later, hchunks⟩, halive⟩
  | cons q before ih =>
    obtain ⟨⟨harrived, hqcloses, hqpoll⟩, hbefore⟩ := List.forall_mem_cons.mp hbefore
    have htimeout : Socket.Connection.queries ⟨[], false⟩ (q :: (before ++ r :: after)) =
        .timeout :: Socket.Connection.queries ⟨[], false⟩ (before ++ r :: after) := by
      simp [Socket.Connection.queries, Socket.Connection.arrive, Socket.Connection.getQuery,
        harrived, hqcloses, hqpoll]
    obtain ⟨hchunks, halive⟩ := ih hbefore
    rw [List.cons_append, htimeout]
    exact ⟨hchunks, List.forall_mem_cons.mpr ⟨trivial, halive⟩⟩

/-! ### What the queries decode to -/

/-- Six bytes decode to the command that they spell, if they spell one. -/
theorem decodeValid_six {b : List UInt8} (hb : b.length = 6) :
    (decodeValid b).toList.map Subtype.val = (bareCommand b).toList := by
  obtain ⟨b0, b1, group, id, b4, b5, rest, rfl⟩ := DataMessage.exists_base_of_le hb.ge
  obtain rfl : rest = [] := List.eq_nil_of_length_eq_zero (by simpa using hb)
  by_cases hspelled : (b0 = 0xA5 ∧ b1 = 0xA5) ∧ b4 = 0 ∧ b5 = 0
  · obtain ⟨⟨rfl, rfl⟩, rfl, rfl⟩ := hspelled
    have hvalid : DataMessage.isValid ⟨DataMessage.header, group, id, 0, []⟩ = true :=
      (DataMessage.isValid_iff _).mpr ⟨rfl, rfl⟩
    have hheader : BigEndian.high DataMessage.header = 0xA5 ∧
        BigEndian.low DataMessage.header = 0xA5 := by decide
    have hzero : BigEndian.high 0 = 0 ∧ BigEndian.low 0 = 0 := by decide
    have hframe : DataMessage.serializeMessage ⟨DataMessage.header, group, id, 0, []⟩ =
        [0xA5, 0xA5, group, id, 0, 0] := by
      simp only [DataMessage.serializeMessage, hheader, hzero, List.append_nil]
    have hlong : 6 ≤ ([0xA5, 0xA5, group, id, 0, 0] : List UInt8).length := Nat.le_refl 6
    have hbegins : DataMessage.serializeMessage ⟨DataMessage.header, group, id, 0, []⟩ <+:
        [0xA5, 0xA5, group, id, 0, 0] := hframe ▸ List.prefix_refl _
    have hdecoded : decodeValid [0xA5, 0xA5, group, id, 0, 0] = some ⟨_, hvalid⟩ :=
      (decodeValid_eq_some_iff hlong ⟨_, hvalid⟩).mpr hbegins
    rw [hdecoded]
    rfl
  · have hnone : decodeValid [b0, b1, group, id, b4, b5] = none := by
      refine dif_neg fun hvalid ↦ hspelled ?_
      obtain ⟨hheader, hlength⟩ :=
        (DataMessage.isValid_deserializeMessage_iff b0 b1 group id b4 b5 []).mp hvalid
      have hzero : BigEndian.join b4 b5 = 0 := UInt16.toNat_inj.mp (Nat.le_zero.mp hlength)
      exact ⟨(BigEndian.join_eq_iff b0 b1 _).mp hheader, (BigEndian.join_eq_iff b4 b5 _).mp hzero⟩
    have hbare : bareCommand [b0, b1, group, id, b4, b5] = none := by
      unfold bareCommand
      split
      · next heq =>
        cases heq
        exact absurd ⟨⟨rfl, rfl⟩, rfl, rfl⟩ hspelled
      · rfl
    rw [hnone, hbare]
    rfl

/-- A frame that does not fit into the buffer decodes to nothing. -/
theorem decodeValid_cut (hlong : bufferSize < m.val.serializeMessage.length) :
    decodeValid (m.val.serializeMessage.take bufferSize) = none := by
  have hlength : (m.val.serializeMessage.take bufferSize).length = bufferSize :=
    List.length_take_of_le hlong.le
  refine Option.eq_none_iff_forall_ne_some.mpr fun m' hm' ↦ ?_
  have hbegins := (decodeValid_eq_some_iff (by rw [hlength]; decide) m').mp hm'
  have hsame : m' = m :=
    frameCode.eq_of_encode_prefix (hbegins.trans (List.take_prefix _ _))
  subst hsame
  have hle := hbegins.length_le
  omega

/-- What the two queries that find the frame of a command line decode to. -/
private theorem decoded_taken (hvalid : (parseArguments header argv).isValid = true)
    (r q : QueryRound) (later : List QueryRound) :
    ((taken (r :: q :: later) (parseArguments header argv).serializeMessage).filterMap
        decodeValid).map Subtype.val = reached header argv := by
  have hdata : (parseArguments header argv).data.length ≤ 255 := by
    rw [length_data_parseArguments]
    exact (isValid_parseArguments_iff header argv).mp hvalid
  have hlength : (parseArguments header argv).serializeMessage.length =
      6 + (parseArguments header argv).data.length := DataMessage.length_serializeMessage _
  have hdrop : (parseArguments header argv).serializeMessage.drop bufferSize =
      (parseArguments header argv).data.drop 249 := rfl
  have hsome : (parseArguments header argv).serializeMessage ≠ [] :=
    List.ne_nil_of_length_pos (by omega)
  rw [taken, if_neg hsome, reached]
  by_cases hfits : (parseArguments header argv).data.length ≤ 249
  · have hnone : (parseArguments header argv).data.drop 249 = [] := List.drop_of_length_le hfits
    have hall : (parseArguments header argv).serializeMessage.take bufferSize =
        (parseArguments header argv).serializeMessage :=
      List.take_of_length_le (by rw [hlength]; unfold bufferSize; omega)
    have hframe : decodeValid (parseArguments header argv).serializeMessage =
        some ⟨_, hvalid⟩ :=
      (decodeValid_eq_some_iff (DataMessage.base_le_length_serializeMessage _) _).mpr
        (List.prefix_refl _)
    rw [if_pos hfits, hall, hdrop, hnone, taken_nil, List.filterMap_cons_some hframe]
    rfl
  · -- The rest is no longer than a base part, and a shorter one decodes to the default message.
    have hrest : ((parseArguments header argv).data.drop 249).length =
        (parseArguments header argv).data.length - 249 := List.length_drop
    have hleft : (parseArguments header argv).data.drop 249 ≠ [] :=
      List.ne_nil_of_length_pos (by omega)
    have hshort : ((parseArguments header argv).data.drop 249).length ≤ bufferSize := by
      unfold bufferSize
      omega
    have hcut : decodeValid ((parseArguments header argv).serializeMessage.take bufferSize) =
        none := decodeValid_cut (m := ⟨_, hvalid⟩) (by simp only [hlength, bufferSize]; omega)
    rw [if_neg hfits, hdrop, List.filterMap_cons_none hcut, taken, if_neg hleft,
      List.take_of_length_le hshort, List.drop_of_length_le hshort, taken_nil]
    split
    · rw [List.filterMap_cons_some (decodeValid_of_short (by omega))]
      rfl
    · rw [← decodeValid_six (by omega)]
      cases hdecoded : decodeValid ((parseArguments header argv).data.drop 249) with
      | none => rw [List.filterMap_cons_none hdecoded]; rfl
      | some m => rw [List.filterMap_cons_some hdecoded]; rfl

/-- For every command line from which the client sends something, and every sequence of queries
that find it, the server hands exactly this to its handlers: the command as it was parsed if it
has at most 249 arguments behind the id, the default message if it has up to 254, and if it has
255 the command that the last six of them spell, if they spell one. -/
theorem handledMessages_commandLine (E : Environment) (header : CliHeader)
    (argv : List (List UInt8)) {opened connected : Bool} {bytes : List UInt8}
    (hsent : main header argv opened connected = some bytes) {rounds : List QueryRound}
    (hfound : FoundAtOnce bytes rounds) (clientFd : Int) (s : ServerState) :
    handledMessages (ipcServerHandleClientEvent E clientFd
      (Socket.Connection.queries ⟨[], false⟩ rounds) s).effects = reached header argv := by
  have hmessage : (parseArguments header argv).isValid = true ∧
      (parseArguments header argv).serializeMessage = bytes := by
    unfold main at hsent
    dsimp only at hsent
    split_ifs at hsent with hinvalid
    exact ⟨by simpa using hinvalid, Option.some.inj hsent⟩
  obtain ⟨hvalid, rfl⟩ := hmessage
  obtain ⟨⟨r, q, later, hchunks⟩, halive⟩ := chunks_queries_foundAtOnce hfound
  rw [handledMessages_ipcServerHandleClientEvent E clientFd _ halive, hchunks,
    decoded_taken hvalid]

/-- An operation with 255 arguments, the last six of which spell a command. -/
def smuggling : List (List UInt8) :=
  [[99], [99, 97, 114], [49]] ++ (List.replicate 249 [48] ++
    [[49, 54, 53], [49, 54, 53], [49], [49, 55], [48], [48]])

/-- Of such a command line the server sees the command in the last six arguments. -/
theorem handledMessages_commandLine_smuggling :
    let bytes := (parseArguments CliHeader.sample smuggling).serializeMessage
    let quiet : QueryRound := ⟨[], false, false, some 7, true, true, .timesOut⟩
    let rounds := [quiet, { quiet with arrived := bytes }, quiet]
    main CliHeader.sample smuggling true true = some bytes ∧
      handledMessages (ipcServerHandleClientEvent Environment.sample 5
        (Socket.Connection.queries ⟨[], false⟩ rounds) ServerState.init).effects =
        [⟨DataMessage.header, 1, 17, 0, []⟩] := by
  have hdata : (parseArguments CliHeader.sample smuggling).data =
      List.replicate 249 0 ++ [0xA5, 0xA5, 1, 17, 0, 0] := by
    have hbytes : [[49, 54, 53], [49, 54, 53], [49], [49, 55], [48], [48]].map dataByte =
        [0xA5, 0xA5, 1, 17, 0, 0] := by decide
    have hzero : dataByte [48] = 0 := by decide
    have hdrop : smuggling.drop 3 = List.replicate 249 [48] ++
        [[49, 54, 53], [49, 54, 53], [49], [49, 55], [48], [48]] := rfl
    rw [data_parseArguments, hdrop, List.map_append, List.map_replicate, hbytes, hzero]
  have hlength : (parseArguments CliHeader.sample smuggling).data.length = 255 := by
    rw [hdata, List.length_append, List.length_replicate]
    rfl
  have hsent : main CliHeader.sample smuggling true true =
      some (parseArguments CliHeader.sample smuggling).serializeMessage := by
    have hvalid : (parseArguments CliHeader.sample smuggling).isValid = true := by
      rw [isValid_parseArguments_iff, ← length_data_parseArguments, hlength]
    rw [main, hvalid]
    rfl
  have hreached : reached CliHeader.sample smuggling = [⟨DataMessage.header, 1, 17, 0, []⟩] := by
    have hdrop : (parseArguments CliHeader.sample smuggling).data.drop 249 =
        [0xA5, 0xA5, 1, 17, 0, 0] := by
      rw [hdata]
      exact List.drop_left' List.length_replicate
    rw [reached, hlength, hdrop]
    rfl
  have hquiet (q : QueryRound) (hq : q ∈ [⟨[], false, false, some 7, true, true, .timesOut⟩]) :
      Uneventful q := by
    rw [List.mem_singleton.mp hq]
    exact ⟨rfl, rfl, rfl⟩
  rw [← hreached]
  exact ⟨hsent, handledMessages_commandLine Environment.sample CliHeader.sample smuggling hsent
    ⟨[_], _, [_], rfl, List.cons_ne_nil _ _, rfl, rfl, rfl, hquiet, hquiet⟩ 5 ServerState.init⟩

end OctopusIpc.Cli

import OctopusIpc.Server.HandlerInvariant
import OctopusIpc.Socket.Query

/-!
# The server's client loop

`ipc_server_handle_client_event`, `src/IPC/octopus_ipc_server.cpp:355–451`, driven by the
results of its successive reads. Every read is decoded on its own, as one message: bytes
behind the first frame of a read and the rest of a frame in the next read are not looked at
again, and a read shorter than a base part decodes to the valid default message.
-/

namespace OctopusIpc.Server
open OctopusIpc.Protocol OctopusIpc.Socket

variable (E : Environment)

/-- The switch on the group; `src/IPC/octopus_ipc_server.cpp:406–436`. -/
def selectHandler (header : OtsmHeader) (msgGroup : UInt8) : Handler :=
  let group := msgGroup.toNat
  if group = header.msgGroupHelp then .help
  else if group = header.msgGroupIpcConfig then .config
  else if group = header.msgGroupMcu then .mcu
  else if group = 3 ∨ group = 4 then .calculation
  else if group = header.msgGroupCar then .car
  else if group = header.msgGroupPassthroughO then .mcu
  else .help

/-- The call of a handler. -/
def callHandler (handler : Handler) (clientFd : Int) (queryMsg : DataMessage) :
    Handling Int := do
  Traced.emit (.handlerCall handler clientFd queryMsg)
  handler.function E clientFd queryMsg

/-- What is done with a valid message; `src/IPC/octopus_ipc_server.cpp:405–436`. -/
def dispatch (clientFd : Int) (queryMsg : DataMessage) : Handling Int :=
  callHandler E (selectHandler E.header queryMsg.msgGroup) clientFd queryMsg

/-- Valid messages handled one after another, whichever clients they come from. -/
def handleMessages (messages : List (Int × ValidMessage)) : Handling Unit :=
  messages.forM fun p ↦ do
    let _handleResult ← dispatch E p.1 p.2.val

/-- What is done with the data of one successful query;
`src/IPC/octopus_ipc_server.cpp:395–436`. -/
def ipcServerHandleQuery (clientFd : Int) (data : List UInt8) : Handling Unit := do
  let dataMessage := DataMessage.deserializeMessage data
  Traced.when (dataMessage.isValid = true) do
    let _handleResult ← callHandler E (selectHandler E.header dataMessage.msgGroup) clientFd
      dataMessage

/-- `src/IPC/octopus_ipc_server.cpp:447–448`. -/
def ipcServerCleanup (clientFd : Int) : Handling Unit := do
  Traced.emit (.close clientFd)
  Traced.update fun s ↦
    { s with activeClients := ipcServerRemoveClient s.activeClients clientFd }

/-- `src/IPC/octopus_ipc_server.cpp:355–451`, as far as the results reach. -/
def ipcServerHandleClientEvent (clientFd : Int) : List QueryResult → Handling Unit
  | [] => pure ()
  | .timeout :: results => ipcServerHandleClientEvent clientFd results
  | .success c :: results => do
    ipcServerHandleQuery E clientFd c.bytes
    ipcServerHandleClientEvent clientFd results
  | .disconnected :: _ | .error :: _ => ipcServerCleanup clientFd

/-! ### Handlers do not call handlers -/

/-- The message an effect hands to a handler. -/
def Effect.handled : Effect → Option DataMessage
  | handlerCall _ _ m => some m
  | _ => none

/-- The messages handed to handlers, in order. -/
def handledMessages (effects : List Effect) : List DataMessage :=
  effects.filterMap Effect.handled

/-- No step of a handler enters a handler. -/
private theorem handlerInvariant_handledMessages (clientFd : Int) (ms : List DataMessage) :
    HandlerInvariant clientFd fun _ es ↦ handledMessages es = ms := by
  have hquiet (e : Effect) (he : e.handled = none) (es : List Effect)
      (h : handledMessages es = ms) : handledMessages (es ++ [e]) = ms := by
    rw [handledMessages, List.filterMap_append, List.filterMap_cons_none he,
      List.filterMap_nil, List.append_nil]
    exact h
  exact {
    payloadRead := fun _ _ _ es ↦ hquiet _ rfl es
    copyPayload := fun _ _ _ _ _ es ↦ hquiet _ rfl es
    otsmCall := fun _ _ _ es ↦ hquiet _ rfl es
    sendResponse := fun _ _ es ↦ hquiet _ rfl es
    sendBuff := fun _ _ es ↦ hquiet _ rfl es
    answered := fun _ _ h ↦ h
    debugSet := fun _ _ h ↦ h
    configured := fun _ _ _ _ h ↦ h }

/-- Calling a handler hands it its message and hands no other message to a handler. -/
theorem handledMessages_callHandler (handler : Handler) (clientFd : Int) (m : DataMessage)
    (s : ServerState) :
    handledMessages (callHandler E handler clientFd m s).effects = [m] :=
  (handlerInvariant_handledMessages clientFd [m]).function E m handler s _ rfl

/-! ### One read -/

/-- The message a read decodes to, if it is valid. -/
def decodeValid (data : List UInt8) : Option ValidMessage :=
  if h : (DataMessage.deserializeMessage data).isValid = true then some ⟨_, h⟩ else none

/-- A read that decodes to an invalid message is dropped without an effect. -/
theorem ipcServerHandleQuery_of_invalid {clientFd : Int} {data : List UInt8} {s : ServerState}
    (h : decodeValid data = none) : ipcServerHandleQuery E clientFd data s = ⟨(), s, []⟩ := by
  have hv : ¬ (DataMessage.deserializeMessage data).isValid = true := by
    intro hv
    rw [decodeValid, dif_pos hv] at h
    cases h
  exact congrFun (if_neg hv) s

/-- A read that decodes to a valid message hands it to one handler. -/
theorem handledMessages_of_valid {clientFd : Int} {data : List UInt8} {s : ServerState}
    {m : ValidMessage} (h : decodeValid data = some m) :
    handledMessages (ipcServerHandleQuery E clientFd data s).effects = [m.val] := by
  unfold decodeValid at h
  split at h
  · next hv =>
    cases h
    have hq : ipcServerHandleQuery E clientFd data s = _ := congrFun (if_pos hv) s
    rw [hq, Traced.bind_apply]
    simp only [Traced.pure_apply, List.append_nil]
    exact handledMessages_callHandler ..
  · cases h

/-- The messages one read hands to handlers. -/
theorem handledMessages_ipcServerHandleQuery (clientFd : Int) (data : List UInt8)
    (s : ServerState) :
    handledMessages (ipcServerHandleQuery E clientFd data s).effects =
      (decodeValid data).toList.map Subtype.val := by
  cases h : decodeValid data with
  | none => rw [ipcServerHandleQuery_of_invalid E h]; rfl
  | some m => exact handledMessages_of_valid E h

/-- From a read with a complete base part, a message is decoded if its frame starts there. -/
theorem decodeValid_eq_some_iff {data : List UInt8} (hd : 6 ≤ data.length) (m : ValidMessage) :
    decodeValid data = some m ↔ m.val.serializeMessage <+: data := by
  unfold decodeValid
  constructor
  · intro h
    split at h
    · next hv =>
      cases h
      exact DataMessage.serializeMessage_prefix_of_isValid hd hv
    · cases h
  · intro h
    have he := DataMessage.deserializeMessage_of_prefix m.property h
    rw [dif_pos (he ▸ m.property)]
    exact congrArg some (Subtype.ext he)

/-- The default message. -/
def newMessage : ValidMessage := ⟨DataMessage.new, DataMessage.isValid_new⟩

/-- A read shorter than a base part decodes to the default message. -/
theorem decodeValid_of_short {data : List UInt8} (hd : data.length < 6) :
    decodeValid data = some newMessage := by
  have he := DataMessage.deserializeMessage_of_short hd
  rw [decodeValid, dif_pos (he ▸ DataMessage.isValid_new)]
  exact congrArg some (Subtype.ext he)

/-! ### The frame grammar -/

/-- Effects that reach beyond the handling thread: a handler call, a buffer for a client, a
call of the library. -/
def Effect.outward : Effect → Bool
  | handlerCall _ _ _ | sendResponse _ _ | sendBuff _ _ | otsmCall _ _ => true
  | _ => false

/-- The length field of a buffer with a complete base part. -/
def lengthField (b : List UInt8) : UInt16 := BigEndian.join (b.getD 4 0) (b.getD 5 0)

/-- The bytes do not start with the header, lack a part of the base part, or are fewer than
the length field says. -/
def Malformed (b : List UInt8) : Prop :=
  ¬ [0xA5, 0xA5] <+: b ∨ b.length < 6 ∨ b.length < 6 + (lengthField b).toNat

/-- In state `s`, malformed bytes have no effect and others reach exactly one handler, with
the message whose frame they start with. -/
def AcceptsFrameGrammar (clientFd : Int) (b : List UInt8) (s : ServerState) : Prop :=
  let r := ipcServerHandleQuery E clientFd b s
  (Malformed b → (∀ e ∈ r.effects, e.outward = false) ∧
    r.state.activeClients = s.activeClients ∧ r.state.debugPrintData = s.debugPrintData) ∧
  (¬ Malformed b → ∃ m : ValidMessage,
    m.val.serializeMessage <+: b ∧ handledMessages r.effects = [m.val])

/-- With a complete base part, bytes are malformed exactly when no frame starts them. -/
theorem malformed_iff_decodeValid {b : List UInt8} (hb : 6 ≤ b.length) :
    Malformed b ↔ decodeValid b = none := by
  obtain ⟨b0, b1, b2, b3, b4, b5, payload, rfl⟩ := DataMessage.exists_base_of_le hb
  have hheader : [0xA5, 0xA5] <+: b0 :: b1 :: b2 :: b3 :: b4 :: b5 :: payload ↔
      BigEndian.join b0 b1 = DataMessage.header := by
    rw [show DataMessage.header = BigEndian.join 0xA5 0xA5 from rfl, BigEndian.join_eq_iff]
    simp [eq_comm]
  have hvalid := DataMessage.isValid_deserializeMessage_iff b0 b1 b2 b3 b4 b5 payload
  have hlength : lengthField (b0 :: b1 :: b2 :: b3 :: b4 :: b5 :: payload) =
      BigEndian.join b4 b5 := rfl
  rw [Malformed, hheader, hlength, decodeValid, dite_eq_right_iff]
  simp only [List.length_cons, reduceCtorEq, imp_false, hvalid, not_and_or]
  exact or_congr Iff.rfl (by omega)

/-- Handling a read follows the frame grammar, in any state, exactly when the read is not
shorter than a base part. -/
theorem acceptsFrameGrammar_iff (clientFd : Int) (b : List UInt8) (s : ServerState) :
    AcceptsFrameGrammar E clientFd b s ↔ 6 ≤ b.length := by
  constructor
  · rintro ⟨h, -⟩
    by_contra hb
    obtain ⟨hout, -⟩ := h (Or.inr (Or.inl (by omega)))
    -- the default message is handed to a handler
    have hm : handledMessages (ipcServerHandleQuery E clientFd b s).effects = [newMessage.val] :=
      handledMessages_of_valid E (decodeValid_of_short (by omega))
    have hmem : newMessage.val ∈
        handledMessages (ipcServerHandleQuery E clientFd b s).effects := by
      rw [hm]
      exact List.mem_singleton_self _
    obtain ⟨e, he, heq⟩ := List.mem_filterMap.mp hmem
    have hno := hout e he
    cases e with
    | handlerCall => cases hno
    | _ => cases heq
  · intro hb
    refine ⟨fun hbad ↦ ?_, fun hgood ↦ ?_⟩
    · rw [ipcServerHandleQuery_of_invalid E ((malformed_iff_decodeValid hb).mp hbad)]
      exact ⟨fun e he ↦ absurd he List.not_mem_nil, rfl, rfl⟩
    · rw [malformed_iff_decodeValid hb] at hgood
      obtain ⟨m, hm⟩ := Option.ne_none_iff_exists'.mp hgood
      exact ⟨m, (decodeValid_eq_some_iff hb m).mp hm, handledMessages_of_valid E hm⟩

/-- A single byte reaches a handler. -/
theorem not_acceptsFrameGrammar_single_byte :
    ¬ AcceptsFrameGrammar Environment.sample 5 [0xA5] ServerState.init := by
  rintro ⟨h, -⟩
  have hout := (h (by right; left; decide)).1
  exact absurd (hout (.handlerCall .help 5 DataMessage.new) (List.mem_cons_self)) (by decide)

/-! ### Whole runs -/

/-- The bytes of each successful read. -/
def chunks (results : List QueryResult) : List (List UInt8) :=
  results.filterMap fun
    | .success c => some c.bytes
    | _ => none

private theorem flatten_chunks (results : List QueryResult) :
    (chunks results).flatten = received results := by
  induction results with
  | nil => rfl
  | cons r results ih =>
    cases r with
    | success c => exact congrArg (c.bytes ++ ·) ih
    | timeout => exact ih
    | disconnected => exact ih
    | error => exact ih

private theorem ne_nil_of_mem_chunks {results : List QueryResult} {b : List UInt8}
    (h : b ∈ chunks results) : b ≠ [] := by
  obtain ⟨r, -, hr⟩ := List.mem_filterMap.mp h
  cases r with
  | success c => exact Option.some.inj hr ▸ c.nonempty
  | timeout => cases hr
  | disconnected => cases hr
  | error => cases hr

/-- As long as the connection stays open, the loop hands to handlers what its reads decode
to, each on its own. -/
theorem handledMessages_ipcServerHandleClientEvent (clientFd : Int) (results : List QueryResult)
    (ha : ∀ r ∈ results, r.Alive) (s : ServerState) :
    handledMessages (ipcServerHandleClientEvent E clientFd results s).effects =
      ((chunks results).filterMap decodeValid).map Subtype.val := by
  induction results generalizing s with
  | nil => rfl
  | cons r results ih =>
    have ih := ih fun r hr ↦ ha r (List.mem_cons_of_mem _ hr)
    have hr := ha r List.mem_cons_self
    cases r with
    | disconnected => exact hr.elim
    | error => exact hr.elim
    | timeout => exact ih s
    | success c =>
      have hq := handledMessages_ipcServerHandleQuery E clientFd c.bytes s
      have hs := ih (ipcServerHandleQuery E clientFd c.bytes s).state
      have hchunks : chunks (.success c :: results) = c.bytes :: chunks results := rfl
      simp only [handledMessages] at hq hs
      simp only [ipcServerHandleClientEvent, Traced.bind_apply, handledMessages,
        List.filterMap_append, hq, hs, hchunks, List.filterMap_cons]
      cases decodeValid c.bytes <;> rfl

/-- All messages sent are handed to handlers, in order, each once, and nothing else is. -/
def DispatchesExactly (clientFd : Int) (results : List QueryResult) (ms : List ValidMessage)
    (s : ServerState) : Prop :=
  handledMessages (ipcServerHandleClientEvent E clientFd results s).effects =
    ms.map Subtype.val

/-- The reads spell the messages: each read starts with the frame of the next message, or
starts with no frame at all, or is shorter than a base part where the next message is the
default one. -/
inductive SpelledBy : List (List UInt8) → List ValidMessage → Prop
  | nil : SpelledBy [] []
  | frame (b : List UInt8) (m : ValidMessage) (bs : List (List UInt8)) (ms : List ValidMessage)
    (h : m.val.serializeMessage <+: b) (hr : SpelledBy bs ms) : SpelledBy (b :: bs) (m :: ms)
  | silent (b : List UInt8) (bs : List (List UInt8)) (ms : List ValidMessage)
    (hb : 6 ≤ b.length) (h : ∀ m : ValidMessage, ¬ m.val.serializeMessage <+: b)
    (hr : SpelledBy bs ms) : SpelledBy (b :: bs) ms
  | short (b : List UInt8) (bs : List (List UInt8)) (ms : List ValidMessage)
    (hb : b.length < 6) (hr : SpelledBy bs ms) : SpelledBy (b :: bs) (newMessage :: ms)

private theorem base_le_of_frame {m : ValidMessage} {b : List UInt8}
    (h : m.val.serializeMessage <+: b) : 6 ≤ b.length :=
  Nat.le_trans m.val.base_le_length_serializeMessage h.length_le

/-- Reads spell exactly the messages they decode to. -/
theorem spelledBy_iff (bs : List (List UInt8)) (ms : List ValidMessage) :
    SpelledBy bs ms ↔ bs.filterMap decodeValid = ms := by
  constructor
  · intro h
    induction h with
    | nil => rfl
    | frame b m bs ms h hr ih =>
      rw [List.filterMap_cons_some ((decodeValid_eq_some_iff (base_le_of_frame h) m).mpr h), ih]
    | silent b bs ms hb h hr ih =>
      have hnone : decodeValid b = none :=
        Option.eq_none_iff_forall_ne_some.mpr fun m hm ↦
          h m ((decodeValid_eq_some_iff hb m).mp hm)
      rw [List.filterMap_cons_none hnone, ih]
    | short b bs ms hb hr ih => rw [List.filterMap_cons_some (decodeValid_of_short hb), ih]
  · rintro rfl
    induction bs with
    | nil => exact .nil
    | cons b bs ih =>
      by_cases hb : b.length < 6
      · rw [List.filterMap_cons_some (decodeValid_of_short hb)]
        exact .short b bs _ hb ih
      · have hb : 6 ≤ b.length := by omega
        cases h : decodeValid b with
        | none =>
          rw [List.filterMap_cons_none h]
          refine .silent b bs _ hb (fun m hm ↦ ?_) ih
          rw [(decodeValid_eq_some_iff hb m).mpr hm] at h
          cases h
        | some m =>
          rw [List.filterMap_cons_some h]
          exact .frame b m bs _ ((decodeValid_eq_some_iff hb m).mp h) ih

private theorem spelledBy_frames (ms : List ValidMessage) :
    SpelledBy (ms.map frameCode.encode) ms := by
  induction ms with
  | nil => exact .nil
  | cons m ms ih => exact .frame _ m _ _ (List.prefix_refl _) ih

/-- For valid messages whose frames are received completely on a connection that stays open,
split into reads in any way, the server's delivery is exact in these two cases only: every
read is the frame of one message; or some read is shorter than a base part and the reads
spell the messages nevertheless, short reads standing for default messages. -/
theorem dispatchesExactly_iff (clientFd : Int) (ms : List ValidMessage)
    (results : List QueryResult) (hs : received results = frameCode.stream ms)
    (ha : ∀ r ∈ results, r.Alive) (s : ServerState) :
    DispatchesExactly E clientFd results ms s ↔
      chunks results = ms.map frameCode.encode ∨
        (∃ b ∈ chunks results, b.length < 6) ∧ SpelledBy (chunks results) ms := by
  have hspelled : DispatchesExactly E clientFd results ms s ↔ SpelledBy (chunks results) ms := by
    rw [DispatchesExactly, handledMessages_ipcServerHandleClientEvent E clientFd results ha s,
      spelledBy_iff]
    exact (List.map_injective_iff.mpr Subtype.val_injective).eq_iff
  rw [hspelled]
  by_cases hshort : ∃ b ∈ chunks results, b.length < 6
  · constructor
    · exact fun h ↦ Or.inr ⟨hshort, h⟩
    · rintro (h | h)
      · obtain ⟨b, hb, hlt⟩ := hshort
        rw [h] at hb
        obtain ⟨m, -, rfl⟩ := List.mem_map.mp hb
        have := m.val.base_le_length_serializeMessage
        rw [frameCode_encode] at hlt
        omega
      · exact h.2
  · have hlong : ∀ b ∈ chunks results, 6 ≤ b.length := fun b hb ↦ by
      by_contra hlt
      exact hshort ⟨b, hb, by omega⟩
    constructor
    · intro h
      left
      refine PrefixCode.pieces_eq_words (fun b hb m hm ↦ ?_) (fun b hb ↦ ?_) ?_
        ((spelledBy_iff _ _).mp h)
      · exact (decodeValid_eq_some_iff (hlong b hb) m).mp hm
      · exact ne_nil_of_mem_chunks hb
      · rw [flatten_chunks, hs]
    · rintro (h | h)
      · exact h ▸ spelledBy_frames ms
      · exact absurd h.1 hshort

/-- Two messages with one payload byte each. -/
def twoMessages : List ValidMessage :=
  [⟨DataMessage.ofPayload 2 1 [7], Eq.refl true⟩, ⟨DataMessage.ofPayload 2 1 [8], Eq.refl true⟩]

/-- Their frames in one read. -/
def oneRead : List QueryResult := [.success ⟨frameCode.stream twoMessages, by decide, by decide⟩]

/-- Their frames in one read each, with a timeout between them. -/
def twoReads : List QueryResult :=
  [.success ⟨[0xA5, 0xA5, 2, 1, 0, 1, 7], by decide, by decide⟩, .timeout,
    .success ⟨[0xA5, 0xA5, 2, 1, 0, 1, 8], by decide, by decide⟩]

/-- Of two frames in one read the second is lost. -/
theorem not_dispatchesExactly_oneRead :
    received oneRead = frameCode.stream twoMessages ∧ (∀ r ∈ oneRead, r.Alive) ∧
      ¬ DispatchesExactly Environment.sample 5 oneRead twoMessages ServerState.init := by
  have ha : ∀ r ∈ oneRead, r.Alive := by simp [oneRead, QueryResult.Alive]
  refine ⟨rfl, ha, fun h ↦ ?_⟩
  rw [DispatchesExactly, handledMessages_ipcServerHandleClientEvent _ _ _ ha] at h
  exact absurd h (by decide)

/-- Two frames in one read each are both dispatched. -/
theorem dispatchesExactly_twoReads :
    DispatchesExactly Environment.sample 5 twoReads twoMessages ServerState.init :=
  (dispatchesExactly_iff Environment.sample 5 twoMessages twoReads (by decide)
    (by simp [twoReads, QueryResult.Alive]) ServerState.init).mpr (Or.inl (by decide))

end OctopusIpc.Server

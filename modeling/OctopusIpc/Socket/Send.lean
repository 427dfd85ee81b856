import OctopusIpc.Base.Loop

/-!
# Sending on a socket

`Socket::send_query` and `Socket::send_buff` over the results of their `write()` calls. A
stream socket may accept any beginning of what it is given. `send_buff` goes on with the
rest, `send_query` makes one call and takes any count for success.
-/

namespace OctopusIpc.Socket

/-- What a `write()` returns: a count, or -1 with an `errno`. -/
inductive WriteOutcome where
  | accepted (count : Nat)
  /-- `EINTR`. -/
  | interrupted
  /-- `EAGAIN` or `EWOULDBLOCK`. -/
  | wouldBlock
  /-- `EPIPE` or `ECONNRESET`. -/
  | disconnected
  /-- Any other `errno`. -/
  | failed
  deriving DecidableEq, Repr

/-- The kernel accepts no more than it is given. -/
def WriteOutcome.Within (size : Nat) : WriteOutcome → Prop
  | accepted count => count ≤ size
  | _ => True

/-! ### One write -/

/-- What a call of `send_query` returns, whether it closed the descriptor, and the bytes the
kernel accepted. -/
structure SentQuery where
  result : Bool
  closed : Bool
  accepted : List UInt8
  deriving DecidableEq, Repr

/-- The call on a vector of bytes; `src/IPC/octopus_ipc_socket.cpp:468–485`. -/
def sendQuery (queryVector : List UInt8) : WriteOutcome → SentQuery
  | .accepted count => ⟨true, false, queryVector.take count⟩
  | .interrupted | .wouldBlock | .disconnected | .failed => ⟨false, true, []⟩

/-- The call on a vector of `int`, each cut to a `char`;
`src/IPC/octopus_ipc_socket.cpp:449–466`. -/
def sendQueryInts (queryVector : List Int) : WriteOutcome → SentQuery :=
  sendQuery (queryVector.map UInt8.ofInt)

/-- Success means that the kernel has all the bytes, and failure that the descriptor is
closed. -/
def SentQuery.Honest (sent : SentQuery) (queryBuffer : List UInt8) : Prop :=
  (sent.result = true ∧ sent.accepted = queryBuffer) ∨ (sent.result = false ∧ sent.closed = true)

/-- The write fails or accepts everything. -/
def WriteOutcome.AllOrNothing (size : Nat) : WriteOutcome → Prop
  | accepted count => count = size
  | _ => True

private theorem take_eq_self_iff {α : Type} {l : List α} {n : Nat} (h : n ≤ l.length) :
    l.take n = l ↔ n = l.length := by
  constructor
  · intro he
    have hlen := congrArg List.length he
    rw [List.length_take] at hlen
    omega
  · rintro rfl
    exact List.take_length

private theorem honest_sendQuery_iff (queryVector : List UInt8) {outcome : WriteOutcome}
    (h : outcome.Within queryVector.length) :
    (sendQuery queryVector outcome).Honest queryVector ↔
      outcome.AllOrNothing queryVector.length := by
  cases outcome with
  | accepted count =>
    simp only [sendQuery, SentQuery.Honest, WriteOutcome.AllOrNothing, true_and, Bool.true_eq_false,
      false_and, or_false]
    exact take_eq_self_iff h
  | _ => exact iff_of_true (Or.inr ⟨rfl, rfl⟩) trivial

/-- The vector given to either of the two functions. -/
inductive QueryVector where
  | bytes (queryVector : List UInt8)
  | ints (queryVector : List Int)
  deriving DecidableEq, Repr

/-- The buffer that goes to `write()`. -/
def QueryVector.queryBuffer : QueryVector → List UInt8
  | bytes queryVector => queryVector
  | ints queryVector => queryVector.map UInt8.ofInt

/-- The call on it. -/
def QueryVector.send : QueryVector → WriteOutcome → SentQuery
  | bytes queryVector => sendQuery queryVector
  | ints queryVector => sendQueryInts queryVector

/-- A call reports success for complete frames only, and closes the descriptor otherwise,
exactly when its write fails or accepts the whole vector. -/
theorem sendQuery_honest_iff (queryVector : QueryVector) {outcome : WriteOutcome}
    (h : outcome.Within queryVector.queryBuffer.length) :
    (queryVector.send outcome).Honest queryVector.queryBuffer ↔
      outcome.AllOrNothing queryVector.queryBuffer.length := by
  cases queryVector with
  | bytes queryVector => exact honest_sendQuery_iff queryVector h
  | ints queryVector => exact honest_sendQuery_iff _ h

/-- A frame of seven bytes that the kernel accepts at once. -/
theorem honest_whole_write :
    (sendQuery [0xA5, 0xA5, 2, 1, 0, 1, 7] (.accepted 7)).Honest
      [0xA5, 0xA5, 2, 1, 0, 1, 7] := by
  have hwithin : WriteOutcome.Within 7 (.accepted 7) := Nat.le_refl 7
  exact (sendQuery_honest_iff (.bytes [0xA5, 0xA5, 2, 1, 0, 1, 7]) hwithin).mpr rfl

/-- A frame of seven bytes of which the kernel accepts five. -/
theorem not_honest_short_write :
    WriteOutcome.Within 7 (.accepted 5) ∧
      ¬ (sendQuery [0xA5, 0xA5, 2, 1, 0, 1, 7] (.accepted 5)).Honest
        [0xA5, 0xA5, 2, 1, 0, 1, 7] := by
  refine ⟨(by decide : 5 ≤ 7), ?_⟩
  rintro (⟨-, h⟩ | ⟨h, -⟩) <;> cases h

/-! ### The stream of one descriptor -/

/-- A descriptor over a sequence of calls: what the peer receives on it, and the vectors for
which a call returned success. -/
structure QueryStream where
  closed : Bool
  stream : List UInt8
  reported : List (List UInt8)

namespace QueryStream

/-- An open descriptor on which nothing was sent. -/
def init : QueryStream := ⟨false, [], []⟩

/-- One more call. On a closed descriptor the write fails. -/
def send (s : QueryStream) (call : List UInt8 × WriteOutcome) : QueryStream :=
  let sent := sendQuery call.1 (if s.closed then .failed else call.2)
  ⟨s.closed || sent.closed, s.stream ++ sent.accepted,
    s.reported ++ if sent.result then [call.1] else []⟩

/-- The descriptor after a sequence of calls. -/
def after (calls : List (List UInt8 × WriteOutcome)) : QueryStream := calls.foldl send init

/-- The peer receives the reported frames, each complete, and nothing else. -/
def Complete (s : QueryStream) : Prop := s.stream = s.reported.flatten

/-- An honest call keeps the stream complete. -/
theorem Complete.send {s : QueryStream} (h : s.Complete) {call : List UInt8 × WriteOutcome}
    (hcall : (sendQuery call.1 call.2).Honest call.1) : (s.send call).Complete := by
  have hsent : (sendQuery call.1 (if s.closed then .failed else call.2)).accepted =
      (if (sendQuery call.1 (if s.closed then .failed else call.2)).result then
        [call.1] else []).flatten := by
    cases s.closed with
    | true => rfl
    | false =>
      simp only [Bool.false_eq_true, if_false]
      cases ho : call.2 with
      | accepted count =>
        rw [ho] at hcall
        rcases hcall with ⟨-, haccepted⟩ | ⟨hresult, -⟩
        · simpa [sendQuery] using haccepted
        · cases hresult
      | _ => rfl
  unfold Complete QueryStream.send
  rw [List.flatten_append, ← hsent, h]

/-- Where every write fails or accepts its whole vector, the peer's stream does not go on after
a truncated frame: it consists of complete ones. -/
theorem complete_after {calls : List (List UInt8 × WriteOutcome)}
    (h : ∀ call ∈ calls, call.2.Within call.1.length ∧ call.2.AllOrNothing call.1.length) :
    (after calls).Complete := by
  have hfold : ∀ s : QueryStream, s.Complete → (calls.foldl send s).Complete := by
    induction calls with
    | nil => exact fun _ hs ↦ hs
    | cons call calls ih =>
      intro s hs
      obtain ⟨hwithin, hall⟩ := h call List.mem_cons_self
      refine ih (fun c hc ↦ h c (List.mem_cons_of_mem call hc)) _ (hs.send ?_)
      exact (honest_sendQuery_iff call.1 hwithin).mpr hall
  exact hfold init rfl

/-- After a short write the stream goes on in the middle of a frame. -/
example : (after [([1, 2, 3, 4, 5, 6, 7], .accepted 5), ([8, 9], .accepted 2)]).stream =
    [1, 2, 3, 4, 5, 8, 9] := rfl

end QueryStream

/-! ### Writing until all is written -/

/-- A call of `send_buff`: `total_sent`, the bytes the kernel has accepted, and once the call
has returned its result and whether it closed the descriptor. -/
structure SendBuff where
  totalSent : Nat
  accepted : List UInt8
  result : Option Int
  closed : Bool
  deriving DecidableEq, Repr

namespace SendBuff

variable (respBuffer : List UInt8) (length : Nat)

/-- The condition of the loop, behind which the call returns 0;
`src/IPC/octopus_ipc_socket.cpp:361,395`. -/
def loopTest (s : SendBuff) : SendBuff :=
  if s.totalSent < length then s else { s with result := some 0 }

/-- One `write()` and what the loop does with it, or nothing where no such `write()` is made;
`src/IPC/octopus_ipc_socket.cpp:363–392`. A count of 0 goes round the loop like a positive one,
adding nothing. -/
def write (s : SendBuff) (outcome : WriteOutcome) : Option SendBuff :=
  if s.result.isSome then none
  else
    let offered := (respBuffer.drop s.totalSent).take (length - s.totalSent)
    match outcome with
    | .accepted count =>
      if count ≤ offered.length then
        some (loopTest length
          { s with
            totalSent := s.totalSent + count
            accepted := s.accepted ++ offered.take count })
      else none
    | .interrupted | .wouldBlock => some s
    | .disconnected => some { s with result := some (-1), closed := true }
    | .failed => some { s with result := some (-1) }

/-- The call after a sequence of writes. -/
def after (outcomes : List WriteOutcome) : Option SendBuff :=
  outcomes.foldlM (write respBuffer length) (loopTest length ⟨0, [], none, false⟩)

/-- The kernel has the first `total_sent` bytes. While the call goes on some are missing, it
returns 0 when none is and -1 when some are. -/
structure Sound (s : SendBuff) : Prop where
  le : s.totalSent ≤ length
  accepted : s.accepted = respBuffer.take s.totalSent
  running : s.result = none → s.totalSent < length
  returned : ∀ r, s.result = some r → r = 0 ∧ s.totalSent = length ∨ r = -1 ∧ s.totalSent < length

variable {respBuffer length} {s s' : SendBuff} {outcome : WriteOutcome}

private theorem sound_loopTest (hle : s.totalSent ≤ length)
    (haccepted : s.accepted = respBuffer.take s.totalSent) (hnone : s.result = none) :
    Sound respBuffer length (loopTest length s) := by
  unfold loopTest
  split
  · next hlt =>
    refine ⟨hle, haccepted, fun _ ↦ hlt, fun r hr ↦ ?_⟩
    cases hnone.symm.trans hr
  · next hge =>
    refine ⟨hle, haccepted, nofun, fun r hr ↦ .inl ⟨(Option.some.inj hr).symm, ?_⟩⟩
    exact Nat.le_antisymm hle (Nat.not_lt.mp hge)

/-- An aborted call has not written everything. -/
private theorem Sound.abort (h : Sound respBuffer length s) (hnone : s.result = none)
    (closed : Bool) : Sound respBuffer length { s with result := some (-1), closed := closed } :=
  ⟨h.le, h.accepted, nofun, fun _ hr ↦ .inr ⟨(Option.some.inj hr).symm, h.running hnone⟩⟩

/-- What is offered are the next bytes behind those already accepted. -/
private theorem take_append_offered {n count : Nat} (hcount : n + count ≤ length) :
    respBuffer.take n ++ ((respBuffer.drop n).take (length - n)).take count =
      respBuffer.take (n + count) := by
  rw [List.take_take, Nat.min_eq_left (by omega), List.take_add]

/-- Each `write()` keeps the call sound. -/
theorem Sound.write (h : Sound respBuffer length s)
    (hs : SendBuff.write respBuffer length s outcome = some s') : Sound respBuffer length s' := by
  unfold SendBuff.write at hs
  split at hs
  · cases hs
  · next hresult =>
    have hnone : s.result = none := Option.not_isSome_iff_eq_none.mp hresult
    cases outcome with
    | accepted count =>
      simp only at hs
      split at hs
      · next hcount =>
        cases hs
        rw [List.length_take] at hcount
        have hle := h.le
        have hsum : s.totalSent + count ≤ length := by omega
        refine sound_loopTest hsum ?_ hnone
        simp only [h.accepted]
        exact take_append_offered hsum
      · cases hs
    | interrupted | wouldBlock =>
      cases hs
      exact h
    | disconnected =>
      cases hs
      exact h.abort hnone true
    | failed =>
      cases hs
      exact h.abort hnone s.closed

/-- After any writes the call is sound. -/
theorem sound_of_after {outcomes : List WriteOutcome}
    (h : after respBuffer length outcomes = some s) : Sound respBuffer length s :=
  Loop.foldlM_invariant (fun _ _ _ ht ↦ ht.write)
    (sound_loopTest (Nat.zero_le _) List.take_zero.symm rfl) h

/-- Whatever the writes return, the kernel has accepted a beginning of the buffer as long as
`total_sent`, which never exceeds the length. If the call has returned, it returned 0 or -1, and
0 exactly when the beginning is the whole buffer. -/
theorem sendBuff_transmits (hlength : length ≤ respBuffer.length) {outcomes : List WriteOutcome}
    (h : after respBuffer length outcomes = some s) :
    s.totalSent ≤ length ∧ s.accepted <+: respBuffer.take length ∧
      s.accepted.length = s.totalSent ∧
      ∀ r, s.result = some r →
        (r = 0 ∨ r = -1) ∧ (r = 0 ↔ s.accepted = respBuffer.take length) ∧
          (r = -1 → s.accepted ≠ respBuffer.take length) := by
  have hsound := sound_of_after h
  have hle := hsound.le
  have hcount : s.accepted.length = s.totalSent := by
    rw [hsound.accepted, List.length_take]
    omega
  have hwhole : s.accepted = respBuffer.take length ↔ s.totalSent = length := by
    constructor
    · intro he
      rw [← hcount, he, List.length_take]
      omega
    · intro he
      rw [hsound.accepted, he]
  refine ⟨hle, ?_, hcount, fun r hr ↦ ?_⟩
  · rw [hsound.accepted]
    exact List.take_prefix_take_left hle
  · rw [ne_eq, hwhole]
    rcases hsound.returned r hr with ⟨rfl, htotal⟩ | ⟨rfl, htotal⟩
    · exact ⟨.inl rfl, iff_of_true rfl htotal, nofun⟩
    · exact ⟨.inr rfl, iff_of_false nofun (Nat.ne_of_lt htotal), fun _ ↦ Nat.ne_of_lt htotal⟩

/-- Three bytes, accepted one and two at a time around an interruption and a full socket. -/
theorem sendBuff_transmits_mixed :
    after [7, 8, 9] 3 [.accepted 1, .interrupted, .accepted 0, .wouldBlock, .accepted 2] =
        some ⟨3, [7, 8, 9], some 0, false⟩ ∧
      (SendBuff.mk 3 [7, 8, 9] (some 0) false).accepted <+: [7, 8, 9].take 3 := by
  have hrun : after [7, 8, 9] 3 [.accepted 1, .interrupted, .accepted 0, .wouldBlock, .accepted 2] =
      some ⟨3, [7, 8, 9], some 0, false⟩ := rfl
  obtain ⟨-, hprefix, -⟩ := sendBuff_transmits (by decide) hrun
  exact ⟨hrun, hprefix⟩

end SendBuff

end OctopusIpc.Socket

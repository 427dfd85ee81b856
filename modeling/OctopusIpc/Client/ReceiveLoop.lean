import OctopusIpc.Client.Drain
import OctopusIpc.Socket.Query

/-!
# The client's receive loop

`ipc_receive_response_loop`, `src/APP/octopus_ipc_app_client.cpp:487–545`, driven by the
results of its successive reads. The reassembly buffer holds the pending bytes of the
stream, and a read leaves it holding the pending bytes again as long as they are fewer than
a base part; from a longer incomplete frame the drain loop does not come back.
-/

namespace OctopusIpc.Client
open OctopusIpc.Protocol OctopusIpc.Socket

/-- The empty buffer the loop starts with; `src/APP/octopus_ipc_app_client.cpp:489`. -/
def ReceiveState.init : ReceiveState := ⟨[], []⟩

/-- What one iteration does with a result, at most `fuel` rounds of the drain loop being
run; `src/APP/octopus_ipc_app_client.cpp:507–541`. A lost connection leads to a reconnect,
which does not touch the buffer. -/
def receiveIteration (fuel : Nat) (s : ReceiveState) : QueryResult → Option ReceiveState
  | .success c => Loop.run drainBody fuel ⟨s.buffer ++ c.bytes, DataMessage.new, s.notified⟩
  | .timeout | .disconnected | .error => some s

/-- The loop over a sequence of results. -/
def ipcReceiveResponseLoop (fuel : Nat) (s : ReceiveState) (results : List QueryResult) :
    Option ReceiveState :=
  results.foldlM (receiveIteration fuel) s

/-- The loop gets through the results, ending in state `s'`. -/
def Receives (s : ReceiveState) (results : List QueryResult) (s' : ReceiveState) : Prop :=
  ∃ fuel, ipcReceiveResponseLoop fuel s results = some s'

private theorem receiveIteration_mono {fuel fuel' : Nat} (hf : fuel ≤ fuel') {s s' : ReceiveState}
    {r : QueryResult} (h : receiveIteration fuel s r = some s') :
    receiveIteration fuel' s r = some s' := by
  cases r with
  | success c => exact Loop.run_mono hf h
  | timeout => exact h
  | disconnected => exact h
  | error => exact h

/-- More rounds lead to the same state. -/
theorem ipcReceiveResponseLoop_mono {fuel fuel' : Nat} (hf : fuel ≤ fuel')
    {s s' : ReceiveState} {rs : List QueryResult}
    (h : ipcReceiveResponseLoop fuel s rs = some s') :
    ipcReceiveResponseLoop fuel' s rs = some s' := by
  induction rs generalizing s with
  | nil => exact h
  | cons r rs ih =>
    rw [ipcReceiveResponseLoop, List.foldlM_cons] at h ⊢
    obtain ⟨t, ht, hrest⟩ := Option.bind_eq_some_iff.mp h
    exact Option.bind_eq_some_iff.mpr ⟨t, receiveIteration_mono hf ht, ih hrest⟩

theorem receives_nil (s : ReceiveState) : Receives s [] s := ⟨0, rfl⟩

/-- The last result of a sequence is handled after the others. -/
theorem receives_concat {s s' : ReceiveState} {rs : List QueryResult} {r : QueryResult} :
    Receives s (rs ++ [r]) s' ↔
      ∃ t, Receives s rs t ∧ ∃ fuel, receiveIteration fuel t r = some s' := by
  constructor
  · rintro ⟨fuel, h⟩
    rw [ipcReceiveResponseLoop, List.foldlM_append] at h
    obtain ⟨t, ht, hr⟩ := Option.bind_eq_some_iff.mp h
    rw [List.foldlM_cons] at hr
    obtain ⟨u, hu, hnil⟩ := Option.bind_eq_some_iff.mp hr
    cases hnil
    exact ⟨t, ⟨fuel, ht⟩, fuel, hu⟩
  · rintro ⟨t, ⟨fuel, ht⟩, fuel', hr⟩
    refine ⟨max fuel fuel', ?_⟩
    rw [ipcReceiveResponseLoop, List.foldlM_append]
    refine Option.bind_eq_some_iff.mpr
      ⟨t, ipcReceiveResponseLoop_mono (Nat.le_max_left _ _) ht, ?_⟩
    rw [List.foldlM_cons]
    exact Option.bind_eq_some_iff.mpr
      ⟨s', receiveIteration_mono (Nat.le_max_right _ _) hr, rfl⟩

/-! ### Draining a stretch of the stream -/

/-- The notifications for a list of valid messages. -/
def notifications (ms : List ValidMessage) : List (DataMessage × Nat) :=
  ms.map fun m ↦ notification m.val

/-- The drain loop extracts the complete frames at the front of the buffer, in order, and
goes on with what follows them. -/
theorem drain_stream (ms : List ValidMessage) (p : List UInt8) (q : DataMessage)
    (hq : q.isValid = true) (n : List (DataMessage × Nat)) :
    ∃ q' : DataMessage, q'.isValid = true ∧ ∀ r,
      Loop.Returns drainBody ⟨frameCode.stream ms ++ p, q, n⟩ r ↔
        Loop.Returns drainBody ⟨p, q', n ++ notifications ms⟩ r := by
  induction ms generalizing q n with
  | nil => exact ⟨q, hq, fun r ↦ by rw [notifications, List.map_nil, List.append_nil]; rfl⟩
  | cons m ms ih =>
    obtain ⟨q', hq', ih⟩ := ih m.val m.property (n ++ [notification m.val])
    refine ⟨q', hq', fun r ↦ ?_⟩
    have hb : frameCode.stream (m :: ms) ++ p =
        m.val.serializeMessage ++ (frameCode.stream ms ++ p) := by
      rw [PrefixCode.stream_cons, frameCode_encode, List.append_assoc]
    have hstep := PacketStep.of_frame_front m (frameCode.stream ms ++ p)
    have hlen : 6 ≤ (m.val.serializeMessage ++ (frameCode.stream ms ++ p)).length := by
      have := m.val.base_le_length_serializeMessage
      rw [List.length_append]
      omega
    rw [hb, Loop.returns_iff_of_next (drainBody_of_step hq hlen hstep), returned, ih r,
      notifications, notifications, List.map_cons, List.append_assoc, List.singleton_append]

/-- A proper beginning of a frame that includes the base part is an incomplete frame. -/
theorem incompleteFrame_of_proper {m : ValidMessage} {p s : List UInt8} (hs : s ≠ [])
    (he : m.val.serializeMessage = p ++ s) (hp : 6 ≤ p.length) : IncompleteFrame p := by
  have h0 := headerAt_serializeMessage m.property []
  have hl := peekLength_of_prefix m.property (List.prefix_refl _)
  rw [List.append_nil, he] at h0
  rw [he] at hl
  have hlen := congrArg List.length he
  have hpos := List.length_pos_iff.mpr hs
  rw [DataMessage.length_serializeMessage, List.length_append] at hlen
  have hget (i : Nat) (hi : i < 6) : (p ++ s)[i]? = p[i]? :=
    List.getElem?_append_left (by omega)
  have hpeek : peekLength (p ++ s) = peekLength p := by
    simp only [peekLength, List.getD_eq_getElem?_getD, hget 4 (by omega), hget 5 (by omega)]
  refine ⟨?_, hp, by rw [← hpeek]; omega⟩
  rwa [HeaderAt, hget 0 (by omega), hget 1 (by omega)] at h0

/-! ### The whole run -/

/-- The state in which everything received has been handled: the buffer holds the pending
bytes, and exactly the complete messages have been passed on. -/
def caughtUp (ms : List ValidMessage) (n : Nat) : ReceiveState :=
  ⟨frameCode.pending ms n, notifications (frameCode.completeWithin ms n)⟩

/-- One read takes the loop from caught up to caught up if the incomplete frame at the end
is shorter than a base part, and to nowhere otherwise. -/
theorem receiveIteration_caughtUp_iff (ms : List ValidMessage) {n n' : Nat} (hn : n ≤ n')
    {r : QueryResult} (hr : r.Alive)
    (hlast : (frameCode.pending ms n).length < 6)
    (hdata : (frameCode.stream ms).take n' = (frameCode.stream ms).take n ++ r.data)
    (hn' : n' = n + r.data.length) (s : ReceiveState) :
    (∃ fuel, receiveIteration fuel (caughtUp ms n) r = some s) ↔
      (frameCode.pending ms n').length < 6 ∧ s = caughtUp ms n' := by
  cases r with
  | disconnected => exact hr.elim
  | error => exact hr.elim
  | timeout =>
    have he : n' = n := hn'
    subst he
    simp only [receiveIteration, Option.some.injEq, exists_const, hlast, true_and]
    exact eq_comm
  | success c =>
    obtain ⟨new, hcomplete, hpending⟩ := frameCode.pending_append ms hn hdata
    obtain ⟨q', hq', hdrain⟩ := drain_stream new (frameCode.pending ms n') DataMessage.new
      DataMessage.isValid_new (notifications (frameCode.completeWithin ms n))
    have hstate : notifications (frameCode.completeWithin ms n) ++ notifications new =
        notifications (frameCode.completeWithin ms n') := by
      rw [hcomplete, notifications, notifications, notifications, List.map_append]
    change Loop.Returns drainBody ⟨frameCode.pending ms n ++ c.bytes, _, _⟩ s ↔ _
    rw [show frameCode.pending ms n ++ c.bytes = _ from hpending, caughtUp, hdrain s, hstate]
    by_cases hshort : (frameCode.pending ms n').length < 6
    · rw [Loop.returns_iff_of_leave (drainBody_of_short hshort)]
      exact ⟨fun h ↦ ⟨hshort, h⟩, fun h ↦ h.2⟩
    · refine ⟨fun h ↦ ?_, fun h ↦ absurd h.1 hshort⟩
      rcases frameCode.pending_eq_nil_or_proper ms n' with hnil | ⟨m, -, t, ht, he⟩
      · rw [hnil] at hshort
        exact absurd (by decide : ([] : List UInt8).length < 6) hshort
      · have hinc := incompleteFrame_of_proper ht he (by omega)
        exact absurd ⟨s, h⟩ (hinc.not_halts rfl hq')

/-- The number of bytes received with the first `k` results. -/
def receivedWithin (results : List QueryResult) (k : Nat) : Nat :=
  (received (results.take k)).length

/-- Before the first read nothing is pending and nothing has been passed on. -/
theorem caughtUp_zero (ms : List ValidMessage) : caughtUp ms 0 = ReceiveState.init := by
  rw [caughtUp, frameCode.pending_zero, frameCode.completeWithin_zero]
  rfl

/-- What the first results brought is a beginning of the stream. -/
private theorem stream_take_receivedWithin {ms : List ValidMessage} {results : List QueryResult}
    (hs : received results <+: frameCode.stream ms) (k : Nat) :
    (frameCode.stream ms).take (receivedWithin results k) = received (results.take k) := by
  have hk : received (results.take k) <+: frameCode.stream ms := by
    refine List.IsPrefix.trans ⟨received (results.drop k), ?_⟩ hs
    rw [← received_append, List.take_append_drop]
  exact (List.prefix_iff_eq_take.mp hk).symm

private theorem receivedWithin_succ {results : List QueryResult} {k : Nat}
    (hk : k < results.length) :
    receivedWithin results (k + 1) = receivedWithin results k + (results[k]).data.length := by
  rw [receivedWithin, receivedWithin, List.take_succ_eq_append_getElem hk, received_append,
    received_singleton, List.length_append]

/-- The run lemma: the loop gets through the first `k` results exactly when after each of
them the incomplete frame is shorter than a base part, and then it is caught up. -/
theorem receives_take_iff {ms : List ValidMessage} {results : List QueryResult}
    (hs : received results <+: frameCode.stream ms) (ha : ∀ r ∈ results, r.Alive)
    {k : Nat} (hk : k ≤ results.length) (s : ReceiveState) :
    Receives ReceiveState.init (results.take k) s ↔
      (∀ j ≤ k, (frameCode.pending ms (receivedWithin results j)).length < 6) ∧
        s = caughtUp ms (receivedWithin results k) := by
  induction k generalizing s with
  | zero =>
    have hzero : receivedWithin results 0 = 0 := rfl
    rw [hzero, caughtUp_zero, List.take_zero]
    constructor
    · rintro ⟨fuel, h⟩
      refine ⟨fun j hj ↦ ?_, (Option.some.inj h).symm⟩
      cases Nat.le_zero.mp hj
      rw [hzero, frameCode.pending_zero]
      decide
    · rintro ⟨-, rfl⟩
      exact receives_nil _
  | succ k ih =>
    have hlt : k < results.length := hk
    have hsnoc : results.take (k + 1) = results.take k ++ [results[k]] :=
      List.take_succ_eq_append_getElem hlt
    have hdata : (frameCode.stream ms).take (receivedWithin results (k + 1)) =
        (frameCode.stream ms).take (receivedWithin results k) ++ (results[k]).data := by
      rw [stream_take_receivedWithin hs, stream_take_receivedWithin hs, hsnoc, received_append,
        received_singleton]
    have hlen := receivedWithin_succ hlt
    have hstep := fun hlast ↦ receiveIteration_caughtUp_iff ms
      (by omega : receivedWithin results k ≤ receivedWithin results (k + 1))
      (ha _ (List.getElem_mem hlt)) hlast hdata hlen s
    rw [hsnoc, receives_concat]
    constructor
    · rintro ⟨t, ht, hrest⟩
      obtain ⟨hall, rfl⟩ := (ih (by omega) t).mp ht
      obtain ⟨hnext, he⟩ := (hstep (hall k (Nat.le_refl k))).mp hrest
      refine ⟨fun j hj ↦ ?_, he⟩
      rcases Nat.le_succ_iff.mp hj with hj | rfl
      · exact hall j hj
      · exact hnext
    · rintro ⟨hall, he⟩
      refine ⟨_, (ih (by omega) _).mpr ⟨fun j hj ↦ hall j (by omega), rfl⟩, ?_⟩
      exact (hstep (hall k (by omega))).mpr ⟨hall (k + 1) (Nat.le_refl _), he⟩

/-- Delivery independent of chunking: after any number of results the loop is back at its
top and has passed on exactly the messages whose frames are completely contained in the
bytes received so far, in order and each once. -/
def DeliversCompleteFrames (ms : List ValidMessage) (results : List QueryResult) : Prop :=
  ∀ k ≤ results.length, ∃ buffer, Receives ReceiveState.init (results.take k)
    ⟨buffer, notifications (frameCode.completeWithin ms (receivedWithin results k))⟩

/-- For valid messages whose frames are received on one connection, split into reads in any
way, delivery is independent of chunking exactly when no read ends with at least the base
part of a frame received but not the whole frame. -/
theorem deliversCompleteFrames_iff (ms : List ValidMessage) (results : List QueryResult)
    (hs : received results <+: frameCode.stream ms) (ha : ∀ r ∈ results, r.Alive) :
    DeliversCompleteFrames ms results ↔
      ∀ k ≤ results.length, (frameCode.pending ms (receivedWithin results k)).length < 6 := by
  constructor
  · intro h k hk
    obtain ⟨buffer, hr⟩ := h k hk
    exact ((receives_take_iff hs ha hk _).mp hr).1 k (Nat.le_refl k)
  · intro h k hk
    exact ⟨_, (receives_take_iff hs ha hk _).mpr ⟨fun j hj ↦ h j (by omega), rfl⟩⟩

/-- A message with one payload byte, `A5 A5 02 01 00 01 07` on the wire. -/
def oneByteMessage : ValidMessage := ⟨DataMessage.ofPayload 2 1 [7], rfl⟩

/-- Its frame in two reads, the first ending `k` bytes into it. -/
def splitReads (k : Nat) (h : 0 < k ∧ k < 7) : List QueryResult :=
  let frame := oneByteMessage.val.serializeMessage
  have hl : frame.length = 7 := rfl
  have hb : 7 ≤ bufferSize := by decide
  [.success ⟨frame.take k, List.ne_nil_of_length_pos (by rw [List.length_take]; omega),
      by rw [List.length_take]; omega⟩,
    .success ⟨frame.drop k, List.ne_nil_of_length_pos (by rw [List.length_drop]; omega),
      by rw [List.length_drop]; omega⟩]

/-- A read that ends behind the base part, before the payload byte, stops delivery. -/
theorem not_deliversCompleteFrames_split :
    received (splitReads 6 (by decide)) <+: frameCode.stream [oneByteMessage] ∧
      (∀ r ∈ splitReads 6 (by decide), r.Alive) ∧
      ¬ DeliversCompleteFrames [oneByteMessage] (splitReads 6 (by decide)) := by
  have hs : received (splitReads 6 (by decide)) <+: frameCode.stream [oneByteMessage] :=
    ⟨[], by decide⟩
  have ha : ∀ r ∈ splitReads 6 (by decide), r.Alive := by
    simp [splitReads, QueryResult.Alive]
  refine ⟨hs, ha, fun h ↦ ?_⟩
  obtain ⟨buffer, hr⟩ := h 1 (by decide)
  have hp := ((receives_take_iff hs ha (by decide) _).mp hr).1 1 (Nat.le_refl 1)
  exact absurd hp (by decide)

/-- A read that ends inside the base part does not. -/
theorem deliversCompleteFrames_split :
    DeliversCompleteFrames [oneByteMessage] (splitReads 2 (by decide)) :=
  (deliversCompleteFrames_iff [oneByteMessage] (splitReads 2 (by decide)) ⟨[], by decide⟩
    (by simp [splitReads, QueryResult.Alive])).mpr (by decide)

end OctopusIpc.Client

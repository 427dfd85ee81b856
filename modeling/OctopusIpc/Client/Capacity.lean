import Mathlib.Data.List.Induction
import Mathlib.Data.Nat.Find
import OctopusIpc.Client.ReceiveLoop

/-!
# What the client can take

A read brings at most `IPC_SOCKET_RESPONSE_BUFFER_SIZE` bytes, and the loop comes back from it
only if it ends within the first bytes of a frame or at its end. A longer frame has no such
reads: whatever way it is split, the client never gets past it.
-/

namespace OctopusIpc.Client
open OctopusIpc.Protocol OctopusIpc.Socket

variable {ms : List ValidMessage} {results : List QueryResult}

/-- Some way to split the frames into reads, on a connection that stays open, has the client
pass them all on and come back to its loop. -/
def Deliverable (ms : List ValidMessage) : Prop :=
  ∃ results, received results = frameCode.stream ms ∧ (∀ r ∈ results, r.Alive) ∧
    Receives ReceiveState.init results ⟨[], notifications ms⟩

/-- A payload leaves room in the buffer of a read. -/
def FitsRead (m : ValidMessage) : Prop := m.val.data.length < bufferSize

theorem length_encode (m : ValidMessage) :
    (frameCode.encode m).length = 6 + m.val.data.length := by
  rw [frameCode_encode, DataMessage.length_serializeMessage, DataMessage.getTotalLength]

/-- These are the reads of which none ends in a frame beyond the first five bytes. -/
private theorem receives_iff_short (hs : received results = frameCode.stream ms)
    (ha : ∀ r ∈ results, r.Alive) :
    Receives ReceiveState.init results ⟨[], notifications ms⟩ ↔
      ∀ k ≤ results.length, (frameCode.pending ms (receivedWithin results k)).length < 6 := by
  have hbeginning : received results <+: frameCode.stream ms := hs ▸ List.prefix_refl _
  have hrun := receives_take_iff hbeginning ha (Nat.le_refl results.length) ⟨[], notifications ms⟩
  have hend : caughtUp ms (receivedWithin results results.length) = ⟨[], notifications ms⟩ := by
    rw [receivedWithin, List.take_length, hs, caughtUp, PrefixCode.pending,
      frameCode.completeWithin_length, List.take_length, List.drop_length]
  rw [List.take_length, hend] at hrun
  exact hrun.trans (and_iff_left rfl)

/-! ### Too long a frame -/

/-- One result brings at most a buffer. -/
private theorem receivedWithin_succ_le (results : List QueryResult) (k : Nat) :
    receivedWithin results (k + 1) ≤ receivedWithin results k + bufferSize := by
  by_cases hk : k < results.length
  · rw [receivedWithin, receivedWithin, List.take_succ_eq_append_getElem hk, received_append,
      received_singleton, List.length_append, Nat.add_le_add_iff_left]
    cases results[k] with
    | success c => exact c.fits
    | timeout | disconnected | error => exact Nat.zero_le _
  · rw [receivedWithin, receivedWithin, List.take_of_length_le (by omega),
      List.take_of_length_le (by omega)]
    exact Nat.le_add_right _ _

/-- The first read that goes beyond a number of bytes starts at it or before. -/
private theorem exists_read_beyond {n : Nat} (h : n < (received results).length) :
    ∃ k ≤ results.length, n < receivedWithin results k ∧
      receivedWithin results k ≤ n + bufferSize := by
  have hall : n < receivedWithin results results.length := by
    rwa [receivedWithin, List.take_length]
  have hsome : ∃ k, n < receivedWithin results k := ⟨_, hall⟩
  have hfind := Nat.find_spec hsome
  refine ⟨Nat.find hsome, Nat.find_min' hsome hall, hfind, ?_⟩
  cases hk : Nat.find hsome with
  | zero =>
    rw [hk] at hfind
    exact absurd hfind (Nat.not_lt_zero n)
  | succ k =>
    have hbefore : ¬ n < receivedWithin results k :=
      Nat.find_min hsome (by rw [hk]; exact Nat.lt_succ_self k)
    have hstep := receivedWithin_succ_le results k
    omega

/-- The frames that are delivered fit. -/
private theorem fitsRead_of_deliverable (h : Deliverable ms) {m : ValidMessage} (hm : m ∈ ms) :
    FitsRead m := by
  obtain ⟨results, hreceived, halive, hdelivers⟩ := h
  have hshort := (receives_iff_short hreceived halive).mp hdelivers
  obtain ⟨before, after, rfl⟩ := List.append_of_mem hm
  have hlength := length_encode m
  have htotal : (received results).length =
      (frameCode.stream before).length + ((frameCode.encode m).length +
        (frameCode.stream after).length) := by
    rw [hreceived, frameCode.stream_append, frameCode.stream_cons, List.length_append,
      List.length_append]
  -- the first read that goes beyond the first five bytes of the frame ends within it
  have hinside : (frameCode.stream before).length + 5 < (received results).length := by omega
  obtain ⟨k, hk, hbeyond, hwithin⟩ := exists_read_beyond hinside
  by_contra hfits
  have hlong : bufferSize ≤ m.val.data.length := Nat.not_lt.mp hfits
  have hpending := frameCode.length_pending_inside before m after (n := receivedWithin results k)
    (by omega) (by omega)
  have hless := hshort k hk
  omega

/-! ### Frames that fit -/

/-- A frame that fits, in two reads of which the first brings less than a base part. -/
def twoPartReads (m : ValidMessage) (h : FitsRead m) : List QueryResult :=
  have hlength := length_encode m
  have hfits : m.val.data.length < bufferSize := h
  [.success ⟨(frameCode.encode m).take 5,
      List.ne_nil_of_length_pos (by rw [List.length_take]; omega),
      by rw [List.length_take]; exact Nat.le_trans (Nat.min_le_left _ _) (by decide)⟩,
    .success ⟨(frameCode.encode m).drop 5,
      List.ne_nil_of_length_pos (by rw [List.length_drop]; omega),
      by rw [List.length_drop]; omega⟩]

@[simp] theorem received_twoPartReads (m : ValidMessage) (h : FitsRead m) :
    received (twoPartReads m h) = frameCode.encode m := by
  simp [twoPartReads, received, QueryResult.data]

theorem alive_twoPartReads {m : ValidMessage} (h : FitsRead m) :
    ∀ r ∈ twoPartReads m h, r.Alive := by
  simp [twoPartReads, QueryResult.Alive]

/-- In the middle of a frame that fits, and at its end, less than a base part is pending. -/
private theorem length_pending_twoPartReads (ms : List ValidMessage) {m : ValidMessage}
    (h : FitsRead m) (k : Nat) (hk : 0 < k) :
    (frameCode.pending (ms ++ [m])
      ((frameCode.stream ms).length + receivedWithin (twoPartReads m h) k)).length < 6 := by
  have hlength := length_encode m
  obtain rfl | hk : k = 1 ∨ 2 ≤ k := by omega
  · have hfirst : receivedWithin (twoPartReads m h) 1 = 5 := by
      have htake : ((frameCode.encode m).take 5).length = 5 := by
        rw [List.length_take]
        omega
      simpa [receivedWithin, twoPartReads, received, QueryResult.data] using htake
    rw [hfirst, frameCode.length_pending_inside ms m [] (by omega) (by omega)]
    omega
  · have hall : receivedWithin (twoPartReads m h) k = (frameCode.encode m).length := by
      rw [receivedWithin, List.take_of_length_le hk, received_twoPartReads]
    have hstream : (frameCode.stream ms).length + (frameCode.encode m).length =
        (frameCode.stream (ms ++ [m])).length := by
      simp [frameCode.stream_append]
    rw [hall, hstream, PrefixCode.pending, frameCode.completeWithin_length, List.take_length,
      List.drop_length]
    decide

private theorem deliverable_concat {m : ValidMessage} (h : Deliverable ms) (hm : FitsRead m) :
    Deliverable (ms ++ [m]) := by
  obtain ⟨results, hreceived, halive, hdelivers⟩ := h
  have hshort := (receives_iff_short hreceived halive).mp hdelivers
  have hreads : received (results ++ twoPartReads m hm) = frameCode.stream (ms ++ [m]) := by
    rw [received_append, received_twoPartReads, hreceived, frameCode.stream_append,
      frameCode.stream_cons, frameCode.stream_nil, List.append_nil]
  have hopen : ∀ r ∈ results ++ twoPartReads m hm, r.Alive :=
    List.forall_mem_append.mpr ⟨halive, alive_twoPartReads hm⟩
  refine ⟨_, hreads, hopen, (receives_iff_short hreads hopen).mpr fun k hk ↦ ?_⟩
  by_cases hold : k ≤ results.length
  · have hwithin : receivedWithin (results ++ twoPartReads m hm) k = receivedWithin results k := by
      rw [receivedWithin, receivedWithin, List.take_append_of_le_length hold]
    have hle : receivedWithin results k ≤ (frameCode.stream ms).length := by
      rw [← hreceived, receivedWithin]
      conv_rhs => rw [← List.take_append_drop k results, received_append, List.length_append]
      exact Nat.le_add_right _ _
    rw [hwithin, frameCode.pending_append_words ms [m] hle]
    exact hshort k hold
  · have hwithin : receivedWithin (results ++ twoPartReads m hm) k =
        (frameCode.stream ms).length + receivedWithin (twoPartReads m hm) (k - results.length) := by
      rw [receivedWithin, List.take_append, List.take_of_length_le (by omega), received_append,
        List.length_append, hreceived, receivedWithin]
    rw [hwithin]
    exact length_pending_twoPartReads ms hm _ (by omega)

end OctopusIpc.Client

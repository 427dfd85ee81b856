import Mathlib.Logic.Function.Iterate
import OctopusIpc.Client.ReceiveLoop

/-!
# Resynchronisation

What `ipc_check_complete_data_packet` does to a buffer that holds junk without a header byte
and behind it the beginning of a frame. The scan looks for pairs of header bytes, so the
first header byte alone is not found, and where a base part is there and no pair is found
the scanned bytes are erased.
-/

namespace OctopusIpc.Client
open OctopusIpc.Protocol

/-- No byte is a header byte. -/
def Junk (j : List UInt8) : Prop := 0xA5 ∉ j

variable {j p r : List UInt8} {m : ValidMessage}

/-- No header starts inside junk. -/
theorem Junk.not_headerAt (h : Junk j) {i : Nat} (hi : i < j.length) : ¬ HeaderAt (j ++ p) i := by
  rintro ⟨hbyte, -⟩
  rw [List.getElem?_append_left hi] at hbyte
  exact h (List.mem_of_getElem? hbyte)

/-- A header behind junk is the first one. -/
theorem Junk.firstHeader (h : Junk j) (hp : HeaderAt p 0) : FirstHeader (j ++ p) j.length :=
  firstHeader_append (fun _ hi ↦ h.not_headerAt hi) hp

/-- The first two bytes of a frame are a header. -/
private theorem headerAt_of_frame (he : p ++ r = m.val.serializeMessage) (hp : 2 ≤ p.length) :
    HeaderAt p 0 := by
  have h0 := headerAt_serializeMessage m.property []
  rw [List.append_nil, ← he] at h0
  rwa [HeaderAt, List.getElem?_append_left (by omega), List.getElem?_append_left (by omega)] at h0

/-- More junk than the scan window loses a scan window. -/
private theorem packetStep_longJunk (h : Junk j) (hj : maxScan ≤ j.length) :
    PacketStep (j ++ p) (j.drop maxScan ++ p) none := by
  have hstep := PacketStep.noHeader (b := j ++ p)
    (by rw [List.length_append]; unfold maxScan at hj; omega)
    fun i hi ↦ h.not_headerAt (Nat.lt_of_lt_of_le hi hj)
  rwa [List.drop_append_of_le_length hj] at hstep

/-- The first header byte alone, inside the scan window and at the end of a buffer as long as a
base part, is erased. -/
private theorem packetStep_splitHeader (h : Junk j) (hp : p.length = 1) (hb : 5 ≤ j.length)
    (hj : j.length < maxScan) : PacketStep (j ++ p) [] none := by
  have hlen : (j ++ p).length = j.length + 1 := by rw [List.length_append, hp]
  have hstep := PacketStep.noHeader (b := j ++ p) (by omega) fun i _ hi ↦ by
    rcases Nat.lt_or_ge i j.length with hlt | hge
    · exact h.not_headerAt hlt hi
    · have hnone : (j ++ p)[i + 1]? = none := List.getElem?_eq_none (by omega)
      cases hnone.symm.trans hi.2
  rwa [List.drop_of_length_le (by omega)] at hstep

/-- A buffer with a header inside the scan window is aligned to it; a complete frame there is
extracted. -/
private theorem packetStep_aligned (h : Junk j) (hj : j.length < maxScan)
    (he : p ++ r = m.val.serializeMessage) (hp : 2 ≤ p.length) (hb : 6 ≤ (j ++ p).length) :
    r = [] ∧ PacketStep (j ++ p) [] (some m) ∨ r ≠ [] ∧ PacketStep (j ++ p) p none := by
  have hfirst : FirstHeader (j ++ p) j.length := h.firstHeader (headerAt_of_frame he hp)
  have hdrop : (j ++ p).drop j.length = p := List.drop_left
  by_cases hr : r = []
  · have hframe : p = m.val.serializeMessage ++ [] := by
      rw [List.append_nil, ← he, hr, List.append_nil]
    rw [hframe] at hfirst ⊢
    exact .inl ⟨hr, PacketStep.of_frame hj hfirst⟩
  · refine .inr ⟨hr, ?_⟩
    by_cases hshort : p.length < 6
    · have hstep := PacketStep.cutBase j.length hb hj hfirst (by rw [hdrop]; exact hshort)
      rwa [hdrop] at hstep
    · obtain ⟨-, hbase, hlength⟩ := incompleteFrame_of_proper hr he.symm (Nat.not_lt.mp hshort)
      have hstep := PacketStep.incomplete j.length hj hfirst (by rwa [hdrop]) (by rwa [hdrop])
      rwa [hdrop] at hstep

/-- What one call on junk and the beginning of a frame leaves, and what it extracts. -/
inductive Resync (j : List UInt8) (m : ValidMessage) (p r : List UInt8) :
    List UInt8 → Option ValidMessage → Prop
  /-- The beginning is left, behind a part of the junk. -/
  | kept (j' : List UInt8) (hj : Junk j') : Resync j m p r (j' ++ p) none
  /-- The frame was complete. -/
  | extracted (hr : r = []) : Resync j m p r [] (some m)
  /-- The first header byte is erased with the junk before it. -/
  | erased (hp : p.length = 1) (hb : 5 ≤ j.length) (hj : j.length < maxScan) :
    Resync j m p r [] none

/-- Every call on junk and a non-empty beginning of a frame is of one of the three kinds. -/
theorem exists_resync (h : Junk j) (he : p ++ r = m.val.serializeMessage) (hp : p ≠ []) :
    ∃ rest o, PacketStep (j ++ p) rest o ∧ Resync j m p r rest o := by
  have hpos := List.length_pos_iff.mpr hp
  by_cases hshort : (j ++ p).length < 6
  · exact ⟨_, _, .short hshort, .kept j h⟩
  rcases Nat.lt_or_ge j.length maxScan with hj | hj
  · by_cases hsplit : p.length = 1
    · have hb : 5 ≤ j.length := by
        rw [List.length_append] at hshort
        omega
      exact ⟨_, _, packetStep_splitHeader h hsplit hb hj, .erased hsplit hb hj⟩
    · rcases packetStep_aligned h hj he (by omega) (Nat.not_lt.mp hshort) with
        ⟨hr, hstep⟩ | ⟨-, hstep⟩
      · exact ⟨_, _, hstep, .extracted hr⟩
      · exact ⟨_, _, hstep, .kept [] List.not_mem_nil⟩
  · exact ⟨_, _, packetStep_longJunk h hj, .kept _ fun hmem ↦ h (List.mem_of_mem_drop hmem)⟩

/-! ### Repeated calls -/

/-- One more call on the buffer and the message that the last one left. -/
def callAgain (s : List UInt8 × DataMessage) : List UInt8 × DataMessage :=
  ipcCheckCompleteDataPacket s.1 s.2

private theorem callAgain_of_step {b rest : List UInt8} {o : Option ValidMessage}
    (h : PacketStep b rest o) (q : DataMessage) : callAgain (b, q) = (rest, returned q o) :=
  ipcCheckCompleteDataPacket_of_step h q

/-- Behind any amount of junk a complete frame is decoded after finitely many calls. -/
theorem exists_calls_decode (h : Junk j) (m : ValidMessage) (q : DataMessage) :
    ∃ k, callAgain^[k] (j ++ m.val.serializeMessage, q) = ([], m.val) := by
  have hbase := m.val.base_le_length_serializeMessage
  generalize hn : j.length = n
  induction n using Nat.strongRecOn generalizing j q with
  | ind n ih =>
    subst hn
    rcases Nat.lt_or_ge j.length maxScan with hj | hj
    · have hb : 6 ≤ (j ++ m.val.serializeMessage).length := by
        rw [List.length_append]
        omega
      have hstep := (packetStep_aligned h hj (List.append_nil _) (by omega) hb).resolve_right
        fun hr ↦ hr.1 rfl
      exact ⟨1, callAgain_of_step hstep.2 q⟩
    · have hstep := packetStep_longJunk (p := m.val.serializeMessage) h hj
      have hlt : (j.drop maxScan).length < j.length := by
        rw [List.length_drop]
        unfold maxScan at hj ⊢
        omega
      have hjunk : Junk (j.drop maxScan) := fun hmem ↦ h (List.mem_of_mem_drop hmem)
      obtain ⟨k, hk⟩ := ih _ hlt hjunk (returned q none) rfl
      refine ⟨k + 1, ?_⟩
      rw [Function.iterate_succ_apply, callAgain_of_step hstep]
      exact hk

/-! ### What is kept of a frame -/

/-- A call on junk and a beginning of a frame leaves a buffer that ends with the beginning, or
returns the frame that was complete; and with the rest of the frame behind what is left, calls
decode it. -/
def KeepsFrame (j : List UInt8) (m : ValidMessage) (p r : List UInt8) (q : DataMessage) : Prop :=
  let s := callAgain (j ++ p, q)
  (p <:+ s.1 ∨ p = m.val.serializeMessage ∧ s.2 = m.val) ∧
    ∃ k, callAgain^[k] (s.1 ++ r, s.2) = ([], m.val)

/-- For junk without a header byte, a valid frame and a non-empty beginning of it, no part of
the frame is discarded unless the beginning is the first header byte alone and the junk is 5 to
19 bytes long. -/
theorem keepsFrame_iff (h : Junk j) (he : p ++ r = m.val.serializeMessage) (hp : p ≠ [])
    (q : DataMessage) :
    KeepsFrame j m p r q ↔ ¬ (p.length = 1 ∧ 5 ≤ j.length ∧ j.length < maxScan) := by
  obtain ⟨rest, o, hstep, hresync⟩ := exists_resync h he hp
  rw [KeepsFrame, callAgain_of_step hstep]
  have hbase := m.val.base_le_length_serializeMessage
  cases hresync with
  | kept j' hj' =>
    have hdecode := exists_calls_decode hj' m (returned q none)
    rw [← he, ← List.append_assoc] at hdecode
    refine iff_of_true ⟨.inl (List.suffix_append j' p), hdecode⟩ ?_
    rintro ⟨hone, hb, hmax⟩
    have herased := callAgain_of_step (packetStep_splitHeader h hone hb hmax) q
    rw [callAgain_of_step hstep] at herased
    exact hp (List.append_eq_nil_iff.mp (congrArg Prod.fst herased)).2
  | extracted hr =>
    subst hr
    rw [List.append_nil] at he
    refine iff_of_true ⟨.inr ⟨he, rfl⟩, 0, rfl⟩ ?_
    rintro ⟨hone, -⟩
    rw [he] at hone
    omega
  | erased hone hb hmax =>
    refine iff_of_false ?_ (not_not_intro ⟨hone, hb, hmax⟩)
    rintro ⟨hsuffix | ⟨hframe, -⟩, -⟩
    · exact hp (List.eq_nil_of_suffix_nil hsuffix)
    · rw [hframe] at hone
      omega

private theorem junk_zeros : Junk [0, 0, 0, 0, 0] := by
  unfold Junk
  decide

/-- Two header bytes behind five bytes of junk are kept. -/
theorem keepsFrame_header :
    KeepsFrame [0, 0, 0, 0, 0] oneByteMessage [0xA5, 0xA5] [2, 1, 0, 1, 7] DataMessage.new := by
  have hframe : [0xA5, 0xA5] ++ [2, 1, 0, 1, 7] = oneByteMessage.val.serializeMessage := rfl
  exact (keepsFrame_iff junk_zeros hframe nofun DataMessage.new).mpr nofun

/-- One header byte behind five bytes of junk is erased. -/
theorem not_keepsFrame_splitHeader :
    Junk [0, 0, 0, 0, 0] ∧
      [0xA5] ++ [0xA5, 2, 1, 0, 1, 7] = oneByteMessage.val.serializeMessage ∧
      ¬ KeepsFrame [0, 0, 0, 0, 0] oneByteMessage [0xA5] [0xA5, 2, 1, 0, 1, 7]
        DataMessage.new := by
  refine ⟨junk_zeros, rfl, ?_⟩
  rintro ⟨hkept, -⟩
  revert hkept
  decide

end OctopusIpc.Client

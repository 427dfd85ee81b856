import OctopusIpc.Base.Loop
import OctopusIpc.Client.Packet

/-!
# The client's drain loop

The inner loop of `ipc_receive_response_loop`, `src/APP/octopus_ipc_app_client.cpp:528–541`,
extracts packets until the returned message is invalid or less than a base part is left.
The message it tests starts valid and every path of the extraction keeps it valid, so only
the second exit is ever taken: `Drainable` is the language of the buffers that reach it.
-/

namespace OctopusIpc.Client
open OctopusIpc.Protocol

/-- What the receive loop owns across iterations: its buffer, and the calls of
`ipc_invoke_notify_response` made so far, each with its message and size. -/
structure ReceiveState where
  buffer : List UInt8
  notified : List (DataMessage × Nat)
  deriving DecidableEq, Repr

/-- The variables of the inner loop. -/
structure DrainState where
  buffer : List UInt8
  queryMsg : DataMessage
  notified : List (DataMessage × Nat)
  deriving DecidableEq, Repr

/-- The arguments of the notification for a message. -/
def notification (m : DataMessage) : DataMessage × Nat := (m, m.getTotalLength)

/-- One evaluation of the loop condition and body;
`src/APP/octopus_ipc_app_client.cpp:528–541`. -/
def drainBody (s : DrainState) : DrainState ⊕ ReceiveState :=
  if s.queryMsg.getBaseLength ≤ s.buffer.length then
    let (buffer, queryMsg) := ipcCheckCompleteDataPacket s.buffer s.queryMsg
    if queryMsg.isValid then .inl ⟨buffer, queryMsg, s.notified ++ [notification queryMsg]⟩
    else .inr ⟨buffer, s.notified⟩
  else .inr ⟨s.buffer, s.notified⟩

/-- Less than a base part leaves the loop. -/
theorem drainBody_of_short {s : DrainState} (h : s.buffer.length < 6) :
    drainBody s = .inr ⟨s.buffer, s.notified⟩ :=
  if_neg (by rw [DataMessage.getBaseLength_eq]; omega)

/-- With a valid message in hand the loop goes round again, whatever the buffer holds, and
passes on whatever message the call returns. -/
theorem drainBody_of_step {s : DrainState} {rest : List UInt8} {o : Option ValidMessage}
    (hq : s.queryMsg.isValid = true) (hb : 6 ≤ s.buffer.length)
    (h : PacketStep s.buffer rest o) :
    drainBody s = .inl ⟨rest, returned s.queryMsg o,
      s.notified ++ [notification (returned s.queryMsg o)]⟩ := by
  unfold drainBody
  rw [ipcCheckCompleteDataPacket_of_step h]
  exact (if_pos hb).trans (if_pos (isValid_returned hq o))

/-! ### Buffers the loop gets through -/

/-- Buffers that are cut from the left into units, a unit being a scan window in which no
header starts or a complete frame behind a headerless beginning of the window, until less
than a base part is left. -/
inductive Drainable : List UInt8 → Prop
  /-- Less than a base part is left. -/
  | short (b : List UInt8) (h : b.length < 6) : Drainable b
  /-- A scan window in which no header starts. -/
  | junk (b : List UInt8) (h : ∀ j < maxScan, ¬ HeaderAt b j) (hr : Drainable (b.drop maxScan)) :
    Drainable b
  /-- Headerless bytes and less than a base part behind them. -/
  | cutBase (b : List UInt8) (i : Nat) (hi : i < maxScan) (h : FirstHeader b i)
    (hs : (b.drop i).length < 6) : Drainable b
  /-- Headerless bytes and a complete frame behind them. -/
  | frame (b : List UInt8) (i : Nat) (m : ValidMessage) (hi : i < maxScan)
    (h : FirstHeader b i) (hm : m.val.serializeMessage <+: b.drop i)
    (hr : Drainable ((b.drop i).drop m.val.getTotalLength)) : Drainable b

/-- An incomplete frame at the front: header and length field have arrived, but fewer
payload bytes than the length field says. -/
def IncompleteFrame (b : List UInt8) : Prop :=
  HeaderAt b 0 ∧ 6 ≤ b.length ∧ b.length < 6 + (peekLength b).toNat

/-- One call leaves an incomplete frame as it is. -/
theorem IncompleteFrame.step {b : List UInt8} (h : IncompleteFrame b) : PacketStep b b none := by
  obtain ⟨h0, hs, hl⟩ := h
  exact PacketStep.incomplete 0 (by decide) (firstHeader_zero h0) hs hl

/-- An incomplete frame is not drainable. -/
theorem IncompleteFrame.not_drainable {b : List UInt8} (h : IncompleteFrame b) :
    ¬ Drainable b := by
  obtain ⟨h0, hs, hl⟩ := h
  intro hd
  cases hd with
  | short _ hb => omega
  | junk _ hj _ => exact hj 0 (by decide) h0
  | cutBase _ i hi hf hc =>
    cases firstHeader_unique hf (firstHeader_zero h0)
    rw [List.drop_zero] at hc
    omega
  | frame _ i m hi hf hm _ =>
    cases firstHeader_unique hf (firstHeader_zero h0)
    rw [List.drop_zero] at hm
    have hp := peekLength_of_prefix m.property hm
    have hle := hm.length_le
    rw [DataMessage.length_serializeMessage] at hle
    omega

/-- On an incomplete frame the loop never ends. -/
theorem IncompleteFrame.not_halts {b : List UInt8} (h : IncompleteFrame b) {s : DrainState}
    (hb : s.buffer = b) (hq : s.queryMsg.isValid = true) : ¬ Loop.Halts drainBody s := by
  refine Loop.not_halts_of_invariant
    (I := fun s ↦ s.buffer = b ∧ s.queryMsg.isValid = true) ?_ ⟨hb, hq⟩
  rintro s ⟨rfl, hq⟩
  exact ⟨_, drainBody_of_step hq h.2.1 h.step, rfl, isValid_returned hq none⟩

/-- A loop that ends was entered with a drainable buffer. -/
theorem drainable_of_halts {s : DrainState} (hq : s.queryMsg.isValid = true)
    (h : Loop.Halts drainBody s) : Drainable s.buffer := by
  refine Loop.Halts.induction
    (P := fun s ↦ s.queryMsg.isValid = true → Drainable s.buffer) ?_ ?_ h hq
  · intro s r hb hq
    by_cases hs : s.buffer.length < 6
    · exact .short _ hs
    · obtain ⟨rest, o, hstep⟩ := packetStep_total s.buffer
      cases hb.symm.trans (drainBody_of_step hq (by omega) hstep)
  · intro s s' hb _ ih hq
    by_cases hs : s.buffer.length < 6
    · exact .short _ hs
    · obtain ⟨rest, o, hstep⟩ := packetStep_total s.buffer
      cases hb.symm.trans (drainBody_of_step hq (by omega) hstep)
      have hd : Drainable rest := ih (isValid_returned hq o)
      cases hstep with
      | short h => exact absurd h hs
      | noHeader _ hj => exact .junk _ hj hd
      | cutBase i _ hi hf hc => exact .cutBase _ i hi hf hc
      | incomplete i hi hf hle hl =>
        exact absurd hd
          (IncompleteFrame.not_drainable ⟨(headerAt_drop_zero _ i).mpr hf.1, hle, hl⟩)
      | frame i m hi hf hm => exact .frame _ i m hi hf hm hd

/-- With a drainable buffer the loop ends. -/
theorem halts_of_drainable {b : List UInt8} (hd : Drainable b) {s : DrainState}
    (hb : s.buffer = b) (hq : s.queryMsg.isValid = true) : Loop.Halts drainBody s := by
  induction hd generalizing s with
  | short b h => exact Loop.halts_of_leave (drainBody_of_short (by rw [hb]; exact h))
  | junk b h _ ih =>
    by_cases hs : s.buffer.length < 6
    · exact Loop.halts_of_leave (drainBody_of_short hs)
    · subst hb
      have hstep := PacketStep.noHeader (by omega) h
      exact (Loop.halts_iff_of_next (drainBody_of_step hq (by omega) hstep)).mpr
        (ih rfl (isValid_returned hq none))
  | cutBase b i hi h hc =>
    by_cases hs : s.buffer.length < 6
    · exact Loop.halts_of_leave (drainBody_of_short hs)
    · subst hb
      have hstep := PacketStep.cutBase i (by omega) hi h hc
      exact (Loop.halts_iff_of_next (drainBody_of_step hq (by omega) hstep)).mpr
        (Loop.halts_of_leave (drainBody_of_short hc))
  | frame b i m hi h hm _ ih =>
    subst hb
    have hle := hm.length_le
    have hbase := m.val.base_le_length_serializeMessage
    rw [List.length_drop] at hle
    exact (Loop.halts_iff_of_next
      (drainBody_of_step hq (by omega) (PacketStep.frame i m hi h hm))).mpr
      (ih rfl (isValid_returned hq (some m)))

/-- The drain loop, entered with a buffer and the freshly constructed message, stops after
finitely many iterations exactly when the buffer is drainable. -/
theorem drain_halts_iff (buffer : List UInt8) (notified : List (DataMessage × Nat)) :
    Loop.Halts drainBody ⟨buffer, DataMessage.new, notified⟩ ↔ Drainable buffer :=
  ⟨drainable_of_halts DataMessage.isValid_new,
    fun h ↦ halts_of_drainable h rfl DataMessage.isValid_new⟩

/-- The base part of a frame with one payload byte, the byte itself still missing, keeps the
drain loop busy forever. -/
theorem drain_diverges_on_cut_frame :
    ¬ Loop.Halts drainBody ⟨[0xA5, 0xA5, 0, 0, 0, 1], DataMessage.new, []⟩ :=
  IncompleteFrame.not_halts (b := [0xA5, 0xA5, 0, 0, 0, 1]) ⟨by decide, by decide, by decide⟩
    rfl DataMessage.isValid_new

end OctopusIpc.Client

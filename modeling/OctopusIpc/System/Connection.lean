import OctopusIpc.Base.StepSystem
import OctopusIpc.Client.StreamAccount

/-!
# A connection and the client at its end

What is written to a client waits in the connection until its receive loop reads it, in reads of
any size. Behind each read come the rounds of the drain loop, one step each, so that a read from
which the loop does not come back has its place too: there the client makes one more callback in
every round. From anywhere else a bounded number of steps brings it to the end of what is there.
-/

namespace OctopusIpc.System
open OctopusIpc.Protocol OctopusIpc.Client OctopusIpc.Socket

/-- Where a client is: at the top of its receive loop, or in the drain loop. -/
inductive Receiver where
  | top (s : ReceiveState)
  | draining (d : DrainState)

namespace Receiver

def buffer : Receiver → List UInt8
  | top s => s.buffer
  | draining d => d.buffer

def notified : Receiver → List (DataMessage × Nat)
  | top s => s.notified
  | draining d => d.notified

/-- Where a round of the drain loop leads. -/
def afterRound : DrainState ⊕ ReceiveState → Receiver
  | .inl d => draining d
  | .inr s => top s

end Receiver

/-- A connection and the client at its end. -/
structure Connection where
  /-- The bytes of each call of a writer. -/
  sent : List (List UInt8)
  /-- The bytes that are written and not yet read. -/
  inFlight : List UInt8
  client : Receiver

/-- What the client does. -/
inductive ClientStep where
  /-- What a read brings is appended to the buffer, and the drain loop is entered with a new
  message; `src/APP/octopus_ipc_app_client.cpp:507–525`. -/
  | read (chunk : Chunk)
  /-- One round of the drain loop; `src/APP/octopus_ipc_app_client.cpp:528–541`. -/
  | round

namespace Connection

/-- Nothing has been written to a new connection. -/
def init : Connection := ⟨[], [], .top ReceiveState.init⟩

/-- The writers are called with these units. -/
def write (c : Connection) (units : List (List UInt8)) : Connection :=
  { c with sent := c.sent ++ units, inFlight := c.inFlight ++ units.flatten }

/-- A step of the client. -/
def step (c : Connection) : ClientStep → Option Connection
  | .read chunk =>
    match c.client with
    | .top s =>
      if chunk.bytes <+: c.inFlight then
        some { c with
          inFlight := c.inFlight.drop chunk.bytes.length
          client := .draining ⟨s.buffer ++ chunk.bytes, DataMessage.new, s.notified⟩ }
      else none
    | .draining _ => none
  | .round =>
    match c.client with
    | .draining d => some { c with client := .afterRound (drainBody d) }
    | .top _ => none

/-- The client by itself, when nothing more is written to it. -/
def system : StepSystem Connection ClientStep := ⟨init, step⟩

variable {c c' : Connection} {ms : List ValidMessage} {n : Nat}

/-- What a step of the client is. -/
theorem step_cases {a : ClientStep} (h : c.step a = some c') :
    (∃ chunk s, a = .read chunk ∧ c.client = .top s ∧ chunk.bytes <+: c.inFlight ∧
      c' = { c with
        inFlight := c.inFlight.drop chunk.bytes.length
        client := .draining ⟨s.buffer ++ chunk.bytes, DataMessage.new, s.notified⟩ }) ∨
      ∃ d, a = .round ∧ c.client = .draining d ∧
        c' = { c with client := .afterRound (drainBody d) } := by
  cases a with
  | read chunk =>
    cases hclient : c.client with
    | top s =>
      simp only [step, hclient, Option.ite_none_right_eq_some, Option.some.injEq] at h
      exact .inl ⟨chunk, s, rfl, rfl, h.1, h.2.symm⟩
    | draining d => simp [step, hclient] at h
  | round =>
    cases hclient : c.client with
    | top s => simp [step, hclient] at h
    | draining d =>
      simp only [step, hclient, Option.some.injEq] at h
      exact .inr ⟨d, rfl, rfl, h.symm⟩

/-! ### What is claimed of a client -/

/-- The client is in its drain loop with a frame at the front of which the base part has been
read and not all of the payload. -/
def Flooded (c : Connection) : Prop := ∃ d, c.client = .draining d ∧ IncompleteFrame d.buffer

/-- The steps that the client can take at most before it has read everything or is flooded. -/
def work (c : Connection) : Nat :=
  3 * c.inFlight.length + c.client.buffer.length +
    match c.client with
    | .top _ => 0
    | .draining _ => 1

/-- The messages written to the client, and what it makes of them. -/
structure Delivers (c : Connection) (ms : List ValidMessage) : Prop where
  sent : c.sent = ms.map frameCode.encode
  /-- It has been handed the first of the messages, each once and in order, and the bytes it has
  not finished with are exactly the frames of the others. Only when it is flooded is it handed
  more, repetitions of the last one with group and id overwritten. -/
  handed : ∃ done rest, ms = done ++ rest ∧
    c.client.buffer ++ c.inFlight = frameCode.stream rest ∧
      (c.client.notified = notifications done ∨
        c.Flooded ∧ ∃ q k, Repeats done q ∧
          c.client.notified =
            notifications done ++ List.replicate k (notification (resetQueryMsg q)))
  /-- Whatever reads it makes, it is flooded or has taken at most that many steps, and where it
  has none left it has been handed all the messages. -/
  settles : ∀ {steps c'}, system.run (fun _ _ ↦ True) c steps = some c' →
    c'.Flooded ∨ steps.length ≤ c.work ∧
      ((∀ a, c'.step a = none) → c'.client = .top ⟨[], notifications ms⟩ ∧ c'.inFlight = [])
  /-- When it is flooded it stays so, with a callback in every step. -/
  floods : c.Flooded → ∀ {steps c'}, system.run (fun _ _ ↦ True) c steps = some c' →
    c'.Flooded ∧ c'.client.notified.length = c.client.notified.length + steps.length

/-! ### What the client has read -/

/-- What the client has done with the first bytes of a stream of frames. -/
inductive HasRead (ms : List ValidMessage) (n : Nat) : Receiver → Prop
  /-- At the top of its loop it is caught up with them. -/
  | idle (h : (frameCode.pending ms n).length < 6) : HasRead ms n (.top (caughtUp ms n))
  /-- Some of the complete frames are still in the buffer. -/
  | draining (done new : List ValidMessage) (q : DataMessage)
      (h : frameCode.completeWithin ms n = done ++ new) (hq : Repeats done q) :
      HasRead ms n
        (.draining ⟨frameCode.stream new ++ frameCode.pending ms n, q, notifications done⟩)
  /-- An incomplete frame is all that is in the buffer, and it is in the way. -/
  | flooded (q : DataMessage) (k : Nat) (h : 6 ≤ (frameCode.pending ms n).length)
      (hq : Repeats (frameCode.completeWithin ms n) q) :
      HasRead ms n (.draining ⟨frameCode.pending ms n, resetQueryMsg q,
        notifications (frameCode.completeWithin ms n) ++
          List.replicate (k + 1) (notification (resetQueryMsg q))⟩)

/-- The messages are written to the connection, and the client has read the first bytes of their
frames. -/
def InStep (c : Connection) (ms : List ValidMessage) : Prop :=
  c.sent = ms.map frameCode.encode ∧ ∃ n ≤ (frameCode.stream ms).length,
    c.inFlight = (frameCode.stream ms).drop n ∧ HasRead ms n c.client

/-- The message in hand is valid. -/
private theorem isValid_of_repeats {q : DataMessage} (h : Repeats ms q) : q.isValid = true := by
  rcases h with rfl | ⟨m, -, rfl⟩
  · exact DataMessage.isValid_new
  · exact m.property

/-- Where a base part or more is pending, that is an incomplete frame. -/
private theorem incompleteFrame_pending (h : 6 ≤ (frameCode.pending ms n).length) :
    IncompleteFrame (frameCode.pending ms n) := by
  rcases frameCode.pending_eq_nil_or_proper ms n with hnil | ⟨m, -, t, ht, he⟩
  · rw [hnil, List.length_nil] at h
    omega
  · exact incompleteFrame_of_proper ht he h

/-- A read brings further bytes of the stream. -/
theorem HasRead.read {s : ReceiveState} {bytes : List UInt8} (h : HasRead ms n (.top s))
    (hbytes : bytes <+: (frameCode.stream ms).drop n) :
    HasRead ms (n + bytes.length)
      (.draining ⟨s.buffer ++ bytes, DataMessage.new, s.notified⟩) := by
  have htake : (frameCode.stream ms).take (n + bytes.length) =
      (frameCode.stream ms).take n ++ bytes := by
    rw [List.take_add, ← List.prefix_iff_eq_take.mp hbytes]
  obtain ⟨new, hcomplete, hpending⟩ :=
    frameCode.pending_append ms (Nat.le_add_right n bytes.length) htake
  cases h with
  | idle =>
    simp only [caughtUp, hpending]
    exact .draining _ new _ hcomplete (.inl rfl)

/-- A round of the drain loop with an incomplete frame in the buffer is one more callback. -/
private theorem drainBody_of_incomplete {d : DrainState} (hq : d.queryMsg.isValid = true)
    (h : IncompleteFrame d.buffer) :
    drainBody d = .inl ⟨d.buffer, resetQueryMsg d.queryMsg,
      d.notified ++ [notification (resetQueryMsg d.queryMsg)]⟩ :=
  drainBody_of_step hq h.2.1 h.step

/-- In the drain loop the message in hand is valid. -/
private theorem HasRead.isValid {d : DrainState} (h : HasRead ms n (.draining d)) :
    d.queryMsg.isValid = true := by
  cases h with
  | draining _ _ q _ hq => exact isValid_of_repeats hq
  | flooded q k _ hq => exact (isValid_resetQueryMsg q).trans (isValid_of_repeats hq)

/-- A round of the drain loop takes a frame, or leaves the loop, or begins or goes on to repeat
the last message. -/
theorem HasRead.round {d : DrainState} (h : HasRead ms n (.draining d)) :
    HasRead ms n (.afterRound (drainBody d)) ∧
      ((∃ s, drainBody d = .inr s ∧ s.buffer = d.buffer) ∨
        ∃ d', drainBody d = .inl d' ∧
          (d'.buffer.length < d.buffer.length ∨ IncompleteFrame d'.buffer)) := by
  cases h with
  | draining done new q hcomplete hq =>
    have hvalid := isValid_of_repeats hq
    cases new with
    | cons m new =>
      have hbase := m.val.base_le_length_serializeMessage
      have hstep := PacketStep.of_frame_front m (frameCode.stream new ++ frameCode.pending ms n)
      simp only [PrefixCode.stream_cons, frameCode_encode, List.append_assoc]
      rw [drainBody_of_step hvalid (by rw [List.length_append]; omega) hstep, returned]
      refine ⟨?_, .inr ⟨_, rfl, .inl ?_⟩⟩
      · have hnotified : notifications done ++ [notification m.val] =
            notifications (done ++ [m]) := by
          rw [notifications, notifications, List.map_append, List.map_cons, List.map_nil]
        rw [hnotified]
        refine .draining (done ++ [m]) new m.val ?_ (.inr ⟨m, List.getLast?_concat, rfl⟩)
        rw [hcomplete, List.append_assoc, List.singleton_append]
      · simp only [List.length_append]
        omega
    | nil =>
      rw [List.append_nil] at hcomplete
      simp only [PrefixCode.stream_nil, List.nil_append]
      subst hcomplete
      by_cases hshort : (frameCode.pending ms n).length < 6
      · rw [drainBody_of_short hshort]
        exact ⟨.idle hshort, .inl ⟨_, rfl, rfl⟩⟩
      · have hlong := Nat.not_lt.mp hshort
        have hinc := incompleteFrame_pending hlong
        rw [drainBody_of_incomplete hvalid hinc]
        exact ⟨.flooded q 0 hlong hq, .inr ⟨_, rfl, .inr hinc⟩⟩
  | flooded q k hlong hq =>
    have hinc := incompleteFrame_pending hlong
    rw [drainBody_of_incomplete ((isValid_resetQueryMsg q).trans (isValid_of_repeats hq)) hinc]
    refine ⟨?_, .inr ⟨_, rfl, .inr hinc⟩⟩
    have hagain := HasRead.flooded q (k + 1) hlong hq
    rw [List.replicate_succ', ← List.append_assoc] at hagain
    exact hagain

/-- Further frames change nothing for what has been read. -/
theorem HasRead.append {r : Receiver} (h : HasRead ms n r)
    (hn : n ≤ (frameCode.stream ms).length) (more : List ValidMessage) :
    HasRead (ms ++ more) n r := by
  have hcomplete := frameCode.completeWithin_append ms more hn
  have hpending := frameCode.pending_append_words ms more hn
  cases h with
  | idle h =>
    have hsame : caughtUp ms n = caughtUp (ms ++ more) n := by
      rw [caughtUp, caughtUp, hcomplete, hpending]
    rw [hsame]
    exact .idle (hpending ▸ h)
  | draining done new q h hq =>
    rw [← hpending]
    exact .draining done new q (hcomplete.trans h) hq
  | flooded q k h hq =>
    rw [← hpending, ← hcomplete]
    exact .flooded q k (hpending ▸ h) (hcomplete ▸ hq)

/-! ### The steps -/

theorem inStep_init : InStep init [] := by
  refine ⟨rfl, 0, Nat.le_refl _, rfl, ?_⟩
  have hshort : (frameCode.pending [] 0).length < 6 := by
    rw [frameCode.pending_zero]
    decide
  have hidle := HasRead.idle hshort
  rw [caughtUp_zero] at hidle
  exact hidle

/-- Frames are written. -/
theorem InStep.write (h : InStep c ms) (more : List ValidMessage) :
    InStep (c.write (more.map frameCode.encode)) (ms ++ more) := by
  obtain ⟨hsent, n, hn, hflight, hread⟩ := h
  have hframes : (more.map frameCode.encode).flatten = frameCode.stream more := by
    rw [PrefixCode.stream, List.flatMap_def]
  refine ⟨?_, n, ?_, ?_, hread.append hn more⟩
  · rw [Connection.write, hsent, List.map_append]
  · rw [frameCode.stream_append, List.length_append]
    omega
  · rw [Connection.write, hflight, hframes, frameCode.stream_append,
      List.drop_append_of_le_length hn]

/-- The client reads, or goes through a round of its drain loop. -/
theorem InStep.step {a : ClientStep} (h : InStep c ms) (hs : c.step a = some c') :
    InStep c' ms ∧ (c'.Flooded ∨ c'.work < c.work) := by
  obtain ⟨hsent, n, hn, hflight, hread⟩ := h
  obtain ⟨chunk, s, rfl, hclient, hchunk, rfl⟩ | ⟨d, rfl, hclient, rfl⟩ := step_cases hs
  · have hlength := hchunk.length_le
    have hpos := List.length_pos_iff.mpr chunk.nonempty
    rw [hclient] at hread
    rw [hflight] at hchunk
    refine ⟨⟨hsent, n + chunk.bytes.length, ?_, ?_, hread.read hchunk⟩, .inr ?_⟩
    · rw [hflight, List.length_drop] at hlength
      omega
    · simp only [hflight, List.drop_drop]
    · simp only [work, hclient, Receiver.buffer, List.length_append, List.length_drop]
      omega
  · rw [hclient] at hread
    obtain ⟨hafter, hround⟩ := hread.round
    refine ⟨⟨hsent, n, hn, hflight, hafter⟩, ?_⟩
    obtain ⟨s, hs, hbuffer⟩ | ⟨d', hd', hless | hinc⟩ := hround
    · right
      simp only [work, hclient, hs, Receiver.afterRound, Receiver.buffer, hbuffer]
      omega
    · right
      simp only [work, hclient, hd', Receiver.afterRound, Receiver.buffer]
      omega
    · exact .inl ⟨d', congrArg Receiver.afterRound hd', hinc⟩

/-- A flooded client stays flooded and makes a callback. -/
theorem InStep.floods_step {a : ClientStep} (h : InStep c ms) (hf : c.Flooded)
    (hs : c.step a = some c') :
    c'.Flooded ∧ c'.client.notified.length = c.client.notified.length + 1 := by
  obtain ⟨-, n, -, -, hread⟩ := h
  obtain ⟨d, hdraining, hinc⟩ := hf
  obtain ⟨_, _, _, htop, _, _⟩ | ⟨d', rfl, hclient, rfl⟩ := step_cases hs
  · cases hdraining.symm.trans htop
  · cases hdraining.symm.trans hclient
    rw [hdraining] at hread ⊢
    have hbody := drainBody_of_incomplete hread.isValid hinc
    refine ⟨⟨_, congrArg Receiver.afterRound hbody, hinc⟩, ?_⟩
    simp only [hbody, Receiver.afterRound, Receiver.notified, List.length_append,
      List.length_singleton]

/-! ### What follows for the client -/

/-- The frames it has not finished with. -/
private theorem HasRead.handed {r : Receiver} (h : HasRead ms n r) :
    ∃ done rest, ms = done ++ rest ∧
      r.buffer ++ (frameCode.stream ms).drop n = frameCode.stream rest ∧
        (r.notified = notifications done ∨
          (∃ d, r = .draining d ∧ IncompleteFrame d.buffer) ∧ ∃ q k, Repeats done q ∧
            r.notified =
              notifications done ++ List.replicate k (notification (resetQueryMsg q))) := by
  obtain ⟨rest, hms, hrest⟩ := frameCode.exists_stream_rest ms n
  cases h with
  | idle h => exact ⟨_, rest, hms, hrest, .inl rfl⟩
  | draining done new q hcomplete hq =>
    refine ⟨done, new ++ rest, ?_, ?_, .inl rfl⟩
    · rw [← List.append_assoc, ← hcomplete, ← hms]
    · rw [Receiver.buffer, List.append_assoc, hrest, frameCode.stream_append]
  | flooded q k h hq =>
    exact ⟨_, rest, hms, hrest, .inr ⟨⟨_, rfl, incompleteFrame_pending h⟩, q, k + 1, hq, rfl⟩⟩

/-- A client that can do nothing has been handed everything. -/
theorem InStep.handed_of_idle (h : InStep c ms) (hidle : ∀ a, c.step a = none) :
    c.client = .top ⟨[], notifications ms⟩ ∧ c.inFlight = [] := by
  obtain ⟨-, n, hn, hflight, hread⟩ := h
  cases hclient : c.client with
  | draining d =>
    have hround := hidle .round
    simp [Connection.step, hclient] at hround
  | top s =>
    have hempty : c.inFlight = [] := by
      cases hc : c.inFlight with
      | nil => rfl
      | cons b bs =>
        have hfits : [b].length ≤ bufferSize := (by decide : 1 ≤ bufferSize)
        have hone := hidle (.read ⟨[b], List.cons_ne_nil _ _, hfits⟩)
        simp [Connection.step, hclient, hc] at hone
    have hall : n = (frameCode.stream ms).length := by
      have hdrop := congrArg List.length (hflight.symm.trans hempty)
      rw [List.length_drop, List.length_nil] at hdrop
      omega
    rw [hclient] at hread
    cases hread with
    | idle _ =>
      have hpending : frameCode.pending ms (frameCode.stream ms).length = [] := by
        rw [PrefixCode.pending, frameCode.completeWithin_length, List.take_length,
          List.drop_length]
      refine ⟨?_, hempty⟩
      rw [hall, caughtUp, hpending, frameCode.completeWithin_length]

private theorem floods_of_run {steps : List ClientStep} (h : InStep c ms) (hf : c.Flooded)
    (hrun : system.run (fun _ _ ↦ True) c steps = some c') :
    c'.Flooded ∧ c'.client.notified.length = c.client.notified.length + steps.length := by
  induction steps generalizing c with
  | nil =>
    cases hrun
    exact ⟨hf, rfl⟩
  | cons a steps ih =>
    obtain ⟨-, c₁, hstep, hrun⟩ := StepSystem.run_cons_eq_some_iff.mp hrun
    obtain ⟨hf₁, hlength⟩ := h.floods_step hf hstep
    obtain ⟨hf', hlength'⟩ := ih (h.step hstep).1 hf₁ hrun
    refine ⟨hf', ?_⟩
    rw [hlength', hlength, List.length_cons]
    omega

private theorem settles_of_run {steps : List ClientStep} (h : InStep c ms)
    (hrun : system.run (fun _ _ ↦ True) c steps = some c') :
    c'.Flooded ∨ steps.length ≤ c.work ∧
      ((∀ a, c'.step a = none) → c'.client = .top ⟨[], notifications ms⟩ ∧ c'.inFlight = []) := by
  induction steps generalizing c with
  | nil =>
    cases hrun
    exact .inr ⟨Nat.zero_le _, h.handed_of_idle⟩
  | cons a steps ih =>
    obtain ⟨-, c₁, hstep, hrun⟩ := StepSystem.run_cons_eq_some_iff.mp hrun
    obtain ⟨h₁, hflooded | hless⟩ := h.step hstep
    · exact .inl (floods_of_run h₁ hflooded hrun).1
    · obtain hf | ⟨hlength, hend⟩ := ih h₁ hrun
      · exact .inl hf
      · refine .inr ⟨?_, hend⟩
        rw [List.length_cons]
        omega

/-- A client in step delivers. -/
theorem InStep.delivers (h : InStep c ms) : c.Delivers ms where
  sent := h.1
  handed := by
    obtain ⟨-, n, -, hflight, hread⟩ := h
    rw [hflight]
    exact hread.handed
  settles := settles_of_run h
  floods hf _ _ hrun := floods_of_run h hf hrun

end Connection
end OctopusIpc.System

import OctopusIpc.Serial.ReadLoop

/-!
# What the serial port hands over

The callback as the user of the port sees it. It is given what arrives, in pieces that fit the
buffer of the reader, as long as the loop goes round. When `closePort` has cleared the flag it
is called once more at most, and when `closePort` has come past the join not at all.
-/

namespace OctopusIpc.Serial

/-- How many calls of the callback are still to come if the loop does not go round again. -/
def ReaderPc.callsLeft : ReaderPc → Nat
  | waiting | blocked | reading => 1
  | testing | returned => 0

namespace ReadingPort

variable {s s' : ReadingPort} {a : PortAction} {as : List PortAction}

/-! ### The pieces -/

/-- Each call of the callback was given something, and no more than the buffer holds. -/
def Chunked (s : ReadingPort) : Prop := ∀ chunk ∈ s.passed, chunk ≠ [] ∧ chunk.length ≤ 512

theorem Chunked.apply (h : s.Chunked) (he : s.Enabled a) : (s.apply a).Chunked := by
  cases a with
  | read count =>
    obtain ⟨-, hbuffer, hpending⟩ := he
    have hlength : (s.pending.take count).length = count := List.length_take_of_le hpending
    intro chunk hchunk
    simp only [ReadingPort.apply, readAvailable] at hchunk
    split at hchunk
    · next hcount =>
      rcases List.mem_append.mp hchunk with hchunk | hchunk
      · exact h chunk hchunk
      · rw [List.mem_singleton.mp hchunk, hlength]
        exact ⟨List.ne_nil_of_length_pos (Nat.lt_of_lt_of_eq hcount hlength.symm), hbuffer⟩
    · exact h chunk hchunk
  | test | wait | wake | interrupt | fail | arrive | closePort | clear | join | release => exact h

theorem chunked_of_reachable (h : system.Reachable s) : s.Chunked :=
  h.invariant_of_commands (fun _ hchunk ↦ absurd hchunk List.not_mem_nil)
    fun _ _ hi _ he ↦ hi.apply he

/-! ### As long as the loop goes round -/

/-- The reader can come to the place where it reads, if something is there to be read. -/
theorem exists_run_reading (hr : s.isRunning = true) (hreader : s.reader ≠ .returned)
    (hp : s.pending ≠ []) : ∃ as, (∀ a ∈ as, a.isReaders = true) ∧
      system.run (fun _ _ ↦ True) s as = some { s with reader := .reading } := by
  have hreads {t : ReadingPort} (hp : t.pending ≠ []) (ht : t.reader = .waiting) :
      system.run (fun _ _ ↦ True) t [.wait] = some { t with reader := .reading } := by
    refine StepSystem.run_cons_of_commands_iff.mpr ⟨trivial, ht, ?_⟩
    rw [ReadingPort.apply, if_pos hp]
    rfl
  cases hpc : s.reader with
  | testing =>
    refine ⟨[.test, .wait], by simp [PortAction.isReaders], ?_⟩
    have htest : s.apply .test = { s with reader := .waiting } := by
      rw [ReadingPort.apply, if_pos hr]
    refine StepSystem.run_cons_of_commands_iff.mpr ⟨trivial, hpc, ?_⟩
    rw [htest]
    exact hreads hp rfl
  | waiting => exact ⟨[.wait], by simp [PortAction.isReaders], hreads hp hpc⟩
  | blocked =>
    refine ⟨[.wake], by simp [PortAction.isReaders], ?_⟩
    exact StepSystem.run_cons_of_commands_iff.mpr ⟨trivial, ⟨hpc, hp⟩, rfl⟩
  | reading =>
    refine ⟨[], by simp, ?_⟩
    rw [← hpc]
    rfl
  | returned => exact absurd hpc hreader

/-- The reader alone can hand over all that has arrived. -/
def CanDeliver (s : ReadingPort) : Prop :=
  ∃ as s', (∀ a ∈ as, a.isReaders = true) ∧ system.run (fun _ _ ↦ True) s as = some s' ∧
    s'.pending = []

/-- By what is pending, of which each read takes something. -/
theorem canDeliver (hr : s.isRunning = true) (hreader : s.reader ≠ .returned) : s.CanDeliver := by
  have hprogress (t : ReadingPort) (ht : t.isRunning = true ∧ t.reader ≠ .returned)
      (hp : ¬ t.pending = []) :
      ∃ as t', (∀ a ∈ as, a.isReaders = true) ∧
        system.run (fun _ _ ↦ True) t as = some t' ∧
        (t'.isRunning = true ∧ t'.reader ≠ .returned) ∧
        t'.pending.length < t.pending.length := by
    have hpos : 0 < t.pending.length := List.length_pos_iff.mpr hp
    obtain ⟨as, has, hrun⟩ := exists_run_reading ht.1 ht.2 hp
    -- One read of what the buffer holds, if so much is there.
    have hcount : min 512 t.pending.length ≤ t.pending.length := Nat.min_le_right ..
    have hless : (t.pending.drop (min 512 t.pending.length)).length < t.pending.length := by
      rw [List.length_drop]
      omega
    refine ⟨as ++ [.read (min 512 t.pending.length)],
      { t with reader := .reading }.readAvailable (min 512 t.pending.length), ?_, ?_,
      ⟨ht.1, fun h ↦ ReaderPc.noConfusion h⟩, hless⟩
    · intro a ha
      rcases List.mem_append.mp ha with ha | ha
      · exact has a ha
      · rw [List.mem_singleton.mp ha]
        rfl
    · rw [StepSystem.run_append, hrun, Option.bind_some]
      exact StepSystem.run_cons_of_commands_iff.mpr
        ⟨trivial, ⟨rfl, Nat.min_le_left .., hcount⟩, rfl⟩
  obtain ⟨as, s', has, hrun, -, hp⟩ :=
    StepSystem.exists_run_of_progress hprogress ⟨hr, hreader⟩
  exact ⟨as, s', has, hrun, hp⟩

/-! ### When it stops -/

/-- The flag is cleared or the loop has been left. -/
def Ending (s : ReadingPort) : Prop := s.isRunning = false ∨ s.reader = .returned

/-- A step then uses up what it passes on. -/
theorem Ending.apply (h : s.Ending) (he : s.Enabled a) :
    (s.apply a).Ending ∧ ∃ chunks, (s.apply a).passed = s.passed ++ chunks ∧
      chunks.length + (s.apply a).reader.callsLeft ≤ s.reader.callsLeft := by
  have hkeeps {t : ReadingPort} (hpassed : t.passed = s.passed)
      (hcalls : t.reader.callsLeft ≤ s.reader.callsLeft) :
      ∃ chunks, t.passed = s.passed ++ chunks ∧
        chunks.length + t.reader.callsLeft ≤ s.reader.callsLeft :=
    ⟨[], hpassed.trans (List.append_nil _).symm, (Nat.zero_add t.reader.callsLeft).symm ▸ hcalls⟩
  have hflag (hreader : s.reader ≠ .returned) : s.isRunning = false := h.resolve_right hreader
  cases a with
  | test =>
    have hreader : s.reader = .testing := he
    have hr : s.isRunning = false := hflag (by simp [hreader])
    have hreturned : (s.apply .test).reader = .returned := by
      rw [ReadingPort.apply, hr]
      rfl
    exact ⟨.inr hreturned, hkeeps rfl (by rw [hreturned]; exact Nat.zero_le _)⟩
  | wait =>
    have hreader : s.reader = .waiting := he
    have hcalls : (s.apply .wait).reader.callsLeft ≤ s.reader.callsLeft := by
      rw [hreader]
      simp only [ReadingPort.apply]
      split <;> exact Nat.le_refl 1
    exact ⟨.inl (hflag (by simp [hreader])), hkeeps rfl hcalls⟩
  | wake =>
    have hreader : s.reader = .blocked := he.1
    exact ⟨.inl (hflag (by simp [hreader])), hkeeps rfl (by rw [hreader]; exact Nat.le_refl 1)⟩
  | interrupt =>
    have hreader : s.reader = .blocked := he
    exact ⟨.inl (hflag (by simp [hreader])), hkeeps rfl (Nat.zero_le _)⟩
  | fail => exact ⟨.inr rfl, hkeeps rfl (Nat.zero_le _)⟩
  | read count =>
    have hreader : s.reader = .reading := he.1
    refine ⟨.inl (hflag (by simp [hreader])), ?_⟩
    simp only [ReadingPort.apply, readAvailable]
    split
    · refine ⟨_, rfl, ?_⟩
      rw [hreader]
      exact Nat.le_refl 1
    · refine ⟨[], (List.append_nil _).symm, ?_⟩
      exact Nat.zero_le _
  | clear => exact ⟨.inl rfl, hkeeps rfl (Nat.le_refl _)⟩
  | arrive | closePort | join | release => exact ⟨h, hkeeps rfl (Nat.le_refl _)⟩

/-- And a run passes on no more than that. -/
theorem Ending.passed_of_run (h : s.Ending) (hrun : system.run (fun _ _ ↦ True) s as = some s') :
    ∃ chunks, s'.passed = s.passed ++ chunks ∧ chunks.length ≤ s.reader.callsLeft := by
  induction as generalizing s with
  | nil =>
    cases hrun
    exact ⟨[], (List.append_nil _).symm, Nat.zero_le _⟩
  | cons a as ih =>
    obtain ⟨-, he, hrun⟩ := StepSystem.run_cons_of_commands_iff.mp hrun
    obtain ⟨hending, chunks, hchunks, hcalls⟩ := h.apply he
    obtain ⟨rest, hrest, hlength⟩ := ih hending hrun
    refine ⟨chunks ++ rest, ?_, ?_⟩
    · rw [hrest, hchunks, List.append_assoc]
    · rw [List.length_append]
      omega

/-- `closePort` has cleared the flag and does not wait for the reader any more. -/
def Stopped (s : ReadingPort) : Prop := s.isRunning = false ∧ s.closer ≠ .joining

/-- Then the reader has returned. -/
def StoppedReturned (s : ReadingPort) : Prop := s.Stopped → s.reader = .returned

theorem StoppedReturned.apply (h : s.StoppedReturned) (hok : s.CloserOk) (he : s.Enabled a) :
    (s.apply a).StoppedReturned := by
  rintro ⟨hr, hc⟩
  have hgone {pc : ReaderPc} (hpc : s.reader = pc) (hne : pc ≠ .returned)
      (hstopped : s.Stopped) : False := hne (hpc.symm.trans (h hstopped))
  cases a with
  | test => exact (hgone he (by simp) ⟨hr, hc⟩).elim
  | wait => exact (hgone he (by simp) ⟨hr, hc⟩).elim
  | wake => exact (hgone he.1 (by simp) ⟨hr, hc⟩).elim
  | interrupt => exact (hgone he (by simp) ⟨hr, hc⟩).elim
  | read => exact (hgone he.1 (by simp) ⟨hr, hc⟩).elim
  | fail => rfl
  | arrive => exact h ⟨hr, hc⟩
  | closePort => exact h ⟨hr, by simp [show s.closer = .outside from he]⟩
  | clear =>
    -- The thread is joinable whenever the flag is set, so `clear` leads to the join.
    have hjoining : (s.apply .clear).closer = .joining :=
      if_pos (hok.joinable (hok.clearing he))
    exact absurd hjoining hc
  | join => exact he.2
  | release => exact h ⟨hr, by simp [show s.closer = .releasing from he]⟩

theorem stoppedReturned_of_reachable (h : system.Reachable s) : s.StoppedReturned := by
  refine (h.invariant_of_commands (I := fun t ↦ t.CloserOk ∧ t.StoppedReturned)
    ⟨closerOk_init, ?_⟩ fun _ _ hi _ he ↦ ⟨hi.1.apply he, hi.2.apply hi.1 he⟩).2
  rintro ⟨⟨⟩, -⟩

/-- Whatever reads, arrivals, signals and calls of `closePort` come in whatever order: the
callback has been given the bytes that arrived, once and in order, up to those that are pending,
in pieces of 1 to 512 bytes. While the loop goes round the reader can hand over those too. Once
the flag is cleared the callback is called at most once more, and once `closePort` is past the
join, or the loop has been left, never again. -/
theorem delivery_of_run (h : system.run (fun _ _ ↦ True) init as = some s) :
    s.passed.flatten ++ s.pending = as.flatMap PortAction.arrived ∧ s.Chunked ∧
      (s.isRunning = true → s.reader ≠ .returned → s.CanDeliver) ∧
      ∀ bs s', system.run (fun _ _ ↦ True) s bs = some s' →
        (s.isRunning = false → s'.passed = s.passed ∨ ∃ c, s'.passed = s.passed ++ [c]) ∧
          (s.Stopped ∨ s.reader = .returned → s'.passed = s.passed) := by
  have hreach : system.Reachable s := StepSystem.reachableUnder_of_run h
  refine ⟨passed_append_pending h, chunked_of_reachable hreach, canDeliver, fun bs s' hrun ↦ ?_⟩
  constructor
  · intro hr
    obtain ⟨chunks, hpassed, hlength⟩ := Ending.passed_of_run (.inl hr) hrun
    have hone : s.reader.callsLeft ≤ 1 := by cases s.reader <;> decide
    match chunks, Nat.le_trans hlength hone with
    | [], _ => exact .inl (hpassed.trans (List.append_nil _))
    | [c], _ => exact .inr ⟨c, hpassed⟩
    | _ :: _ :: _, hle => simp at hle
  · intro hstopped
    have hreturned : s.reader = .returned :=
      hstopped.elim (stoppedReturned_of_reachable hreach) id
    obtain ⟨chunks, hpassed, hlength⟩ := Ending.passed_of_run (.inr hreturned) hrun
    rw [hreturned] at hlength
    rw [hpassed, List.eq_nil_of_length_eq_zero (Nat.le_zero.mp hlength), List.append_nil]

/-- Three bytes arrive in two pieces, and the second is read after the flag is cleared. -/
def readAfterClear : List PortAction :=
  [.test, .wait, .arrive [7, 8], .wake, .read 2, .test, .arrive [9], .closePort, .clear, .wait,
    .read 1, .test, .join]

theorem delivery_readAfterClear :
    ∃ s, system.run (fun _ _ ↦ True) init readAfterClear = some s ∧ s.passed = [[7, 8], [9]] ∧
      s.Stopped ∧ ∀ bs s', system.run (fun _ _ ↦ True) s bs = some s' → s'.passed = s.passed := by
  have hrun : ∃ s, system.run (fun _ _ ↦ True) init readAfterClear = some s ∧
      s.passed = [[7, 8], [9]] ∧ s.Stopped := ⟨_, rfl, rfl, rfl, by decide⟩
  obtain ⟨s, hs, hpassed, hstopped⟩ := hrun
  exact ⟨s, hs, hpassed, hstopped, fun bs s' hbs ↦
    ((delivery_of_run hs).2.2.2 bs s' hbs).2 (.inl hstopped)⟩

end ReadingPort

end OctopusIpc.Serial

import OctopusIpc.Base.StepSystem

/-!
# The reading thread and the end of the port

A port that has been opened: the thread that reads the line, the bytes that arrive on it, and
the calls of `closePort`, interleaved. `epoll_wait` has no timeout and returns when input is
there, when a signal interrupts it or when it fails. The only descriptor it watches is that of
the port, whose number does not change before the thread has been joined, and the callback was
set before the port was opened. The descriptors themselves are in the module on opening and
closing.
-/

namespace OctopusIpc.Serial

/-- Where the reading thread is. -/
inductive ReaderPc where
  /-- Before the test of `isRunning`. -/
  | testing
  /-- Behind the test, before `epoll_wait`. -/
  | waiting
  /-- Inside `epoll_wait`. -/
  | blocked
  /-- `epoll_wait` has returned an event. -/
  | reading
  | returned
  deriving DecidableEq, Repr

/-- It has passed the test and has not yet seen input. -/
def ReaderPc.waits : ReaderPc → Bool
  | waiting | blocked => true
  | _ => false

/-- How many steps the reader can still take once the flag is cleared. -/
def ReaderPc.stepsLeft : ReaderPc → Nat
  | waiting | blocked => 3
  | reading => 2
  | testing => 1
  | returned => 0

/-- Where the thread that closes the port is. -/
inductive CloserPc where
  | outside
  /-- It has found the port running. -/
  | clearing
  | joining
  /-- Before it closes the descriptors. -/
  | releasing
  deriving DecidableEq, Repr

/-- What happens next. -/
inductive PortAction where
  /-- The reader tests `isRunning`. -/
  | test
  /-- It calls `epoll_wait`, which returns at once if input is there. -/
  | wait
  /-- Input ends the wait. -/
  | wake
  /-- A signal ends the wait, which is tried again. -/
  | interrupt
  /-- The wait fails, which ends the loop. -/
  | fail
  /-- The reader reads so many bytes, none when `read` fails, and calls the callback. -/
  | read (count : Nat)
  | arrive (bytes : List UInt8)
  /-- `closePort` is called and tests `isRunning`. -/
  | closePort
  | clear
  | join
  | release
  deriving DecidableEq, Repr

namespace PortAction

/-- The steps of the reading thread. -/
def isReaders : PortAction → Bool
  | test | wait | wake | interrupt | fail | read _ => true
  | _ => false

/-- The steps of `closePort`. -/
def isClosers : PortAction → Bool
  | closePort | clear | join | release => true
  | _ => false

/-- The bytes that arrive. -/
def arrived : PortAction → List UInt8
  | arrive bytes => bytes
  | _ => []

end PortAction

/-- The port and the two threads. -/
structure ReadingPort where
  isRunning : Bool
  /-- `readThread.joinable()`. -/
  joinable : Bool
  reader : ReaderPc
  closer : CloserPc
  /-- What has arrived and not been read. -/
  pending : List UInt8
  /-- What each call of the callback was given. -/
  passed : List (List UInt8)
  deriving DecidableEq, Repr

namespace ReadingPort

/-- The port as `openPort` leaves it; `src/HAL/octopus_serialport.cpp:119–124`. -/
def init : ReadingPort := ⟨true, true, .testing, .outside, [], []⟩

/-- When an action is possible. The buffer of the reader has 512 bytes. -/
def Enabled (s : ReadingPort) : PortAction → Prop
  | .test => s.reader = .testing
  | .wait => s.reader = .waiting
  | .wake => s.reader = .blocked ∧ s.pending ≠ []
  | .interrupt => s.reader = .blocked
  | .fail => s.reader.waits = true
  | .read count => s.reader = .reading ∧ count ≤ 512 ∧ count ≤ s.pending.length
  | .arrive _ => True
  | .closePort => s.closer = .outside
  | .clear => s.closer = .clearing
  | .join => s.closer = .joining ∧ s.reader = .returned
  | .release => s.closer = .releasing

instance (s : ReadingPort) : (a : PortAction) → Decidable (s.Enabled a)
  | .test | .wait | .interrupt => inferInstanceAs (Decidable (s.reader = _))
  | .wake => inferInstanceAs (Decidable (s.reader = _ ∧ s.pending ≠ []))
  | .fail => inferInstanceAs (Decidable (s.reader.waits = true))
  | .read _ => inferInstanceAs (Decidable (s.reader = _ ∧ _ ≤ _ ∧ _ ≤ _))
  | .arrive _ => inferInstanceAs (Decidable True)
  | .closePort | .clear | .release => inferInstanceAs (Decidable (s.closer = _))
  | .join => inferInstanceAs (Decidable (s.closer = _ ∧ s.reader = _))

/-- `src/HAL/octopus_serialport.cpp:232–255`. -/
def readAvailable (s : ReadingPort) (count : Nat) : ReadingPort :=
  { s with
    reader := .testing
    pending := s.pending.drop count
    passed := if 0 < count then s.passed ++ [s.pending.take count] else s.passed }

/-- The effect of an action; the reader's are those of `src/HAL/octopus_serialport.cpp:207–259`,
those of `closePort` are lines 131–151 of the same file. -/
def apply (s : ReadingPort) : PortAction → ReadingPort
  | .test => { s with reader := if s.isRunning then .waiting else .returned }
  | .wait => { s with reader := if s.pending ≠ [] then .reading else .blocked }
  | .wake => { s with reader := .reading }
  | .interrupt => { s with reader := .testing }
  | .fail => { s with reader := .returned }
  | .read count => s.readAvailable count
  | .arrive bytes => { s with pending := s.pending ++ bytes }
  | .closePort => { s with closer := if s.isRunning then .clearing else .releasing }
  | .clear =>
    { s with isRunning := false, closer := if s.joinable then .joining else .releasing }
  | .join => { s with joinable := false, closer := .releasing }
  | .release => { s with closer := .outside }

/-- The actions as a transition system. -/
def system : StepSystem ReadingPort PortAction := StepSystem.ofCommands init Enabled apply

/-- `closePort` waits for the reader, the reader for input, none is there, and no step of
`closePort` is possible. -/
def Deadlocked (s : ReadingPort) : Prop :=
  s.closer = .joining ∧ s.reader = .blocked ∧ s.pending = [] ∧
    ∀ a : PortAction, a.isClosers = true → ¬ s.Enabled a

/-- When `closePort` clears the flag, the reader has not passed its test of it, has returned
from its wait, or has input to return for. -/
def ClearsAwake (s : ReadingPort) : PortAction → Prop
  | .clear => s.reader.waits = true → s.pending ≠ []
  | _ => True

instance (s : ReadingPort) : (a : PortAction) → Decidable (s.ClearsAwake a)
  | .clear => inferInstanceAs (Decidable (s.reader.waits = true → s.pending ≠ []))
  | .test | .wait | .wake | .interrupt | .fail | .read _ | .arrive _ | .closePort | .join
  | .release => inferInstanceAs (Decidable True)

variable {s s' : ReadingPort} {a : PortAction} {as : List PortAction}

/-! ### Bytes -/

private theorem passed_append_pending_apply (he : s.Enabled a) :
    (s.apply a).passed.flatten ++ (s.apply a).pending =
      s.passed.flatten ++ s.pending ++ a.arrived := by
  cases a with
  | arrive bytes => exact (List.append_assoc ..).symm
  | read count =>
    simp only [apply, readAvailable, PortAction.arrived, List.append_nil]
    split
    · rw [List.flatten_append, List.flatten_singleton, List.append_assoc, List.take_append_drop]
    · next hcount => rw [Nat.eq_zero_of_not_pos hcount, List.drop_zero]
  | _ => exact (List.append_nil _).symm

private theorem passed_append_pending_from
    (hrun : system.run (fun _ _ ↦ True) s as = some s') :
    s'.passed.flatten ++ s'.pending =
      s.passed.flatten ++ s.pending ++ as.flatMap PortAction.arrived := by
  induction as generalizing s with
  | nil =>
    cases hrun
    exact (List.append_nil _).symm
  | cons a as ih =>
    obtain ⟨-, he, hrun⟩ := StepSystem.run_cons_of_commands_iff.mp hrun
    rw [ih hrun, passed_append_pending_apply he, List.flatMap_cons, List.append_assoc]

/-- Whatever happens, the callback has been given the bytes that arrived, once and in order, up
to those that wait to be read. -/
theorem passed_append_pending (hrun : system.run (fun _ _ ↦ True) init as = some s) :
    s.passed.flatten ++ s.pending = as.flatMap PortAction.arrived :=
  passed_append_pending_from hrun

/-! ### The thread that closes -/

/-- What the place of `closePort` says of the flag, and when the thread is to be joined. -/
structure CloserOk (s : ReadingPort) : Prop where
  clearing : s.closer = .clearing → s.isRunning = true
  joining : s.closer = .joining → s.isRunning = false
  joinable : s.isRunning = true → s.joinable = true

theorem CloserOk.apply (h : s.CloserOk) (he : s.Enabled a) : (s.apply a).CloserOk := by
  cases a with
  | test | wait | wake | interrupt | fail | read | arrive =>
    exact ⟨h.clearing, h.joining, h.joinable⟩
  | closePort =>
    simp only [ReadingPort.apply]
    split
    · next hr => exact ⟨fun _ ↦ hr, nofun, h.joinable⟩
    · exact ⟨nofun, nofun, h.joinable⟩
  | clear =>
    simp only [ReadingPort.apply]
    split
    · exact ⟨nofun, fun _ ↦ rfl, nofun⟩
    · exact ⟨nofun, fun _ ↦ rfl, nofun⟩
  | join =>
    have hr : s.isRunning = false := h.joining he.1
    simp only [ReadingPort.apply]
    exact ⟨nofun, nofun, fun hr' ↦ absurd (hr.symm.trans hr') Bool.false_ne_true⟩
  | release =>
    simp only [ReadingPort.apply]
    exact ⟨nofun, nofun, h.joinable⟩

theorem closerOk_init : init.CloserOk := by
  refine ⟨?_, ?_, fun _ ↦ rfl⟩
  · rintro ⟨⟩
  · rintro ⟨⟩

theorem closerOk_of_reachable (h : system.Reachable s) : s.CloserOk :=
  h.invariant_of_commands closerOk_init fun _ _ hi _ he ↦ hi.apply he

/-- Nothing but the reader, a signal or the line can end such a wait. -/
theorem deadlocked_of_joining (hc : s.closer = .joining) (hb : s.reader = .blocked)
    (hp : s.pending = []) : s.Deadlocked := by
  refine ⟨hc, hb, hp, fun a ha he ↦ ?_⟩
  cases a with
  | closePort | clear | release => cases hc.symm.trans he
  | join => cases hb.symm.trans he.2
  | test | wait | wake | interrupt | fail | read | arrive => cases ha

/-! ### Stopping -/

/-- Once the flag is cleared, input is there for a reader that waits for it. -/
def StopSeen (s : ReadingPort) : Prop :=
  s.isRunning = false → s.reader.waits = true → s.pending ≠ []

theorem stopSeen_init : init.StopSeen := by
  rintro ⟨⟩

/-- A step under the guard leaves no reader waiting in vain. -/
theorem StopSeen.apply (h : s.StopSeen) (hg : s.ClearsAwake a) (he : s.Enabled a) :
    (s.apply a).StopSeen := by
  cases a with
  | test =>
    intro hr hw
    have hr' : s.isRunning = false := hr
    rw [ReadingPort.apply, hr'] at hw
    cases hw
  | wait =>
    intro hr hw
    have hreader : s.reader = .waiting := he
    have hp : s.pending ≠ [] := h hr (hreader ▸ rfl)
    rw [ReadingPort.apply, if_pos hp] at hw
    cases hw
  | wake | interrupt | fail | read =>
    intro hr hw
    cases hw
  | arrive bytes =>
    intro hr hw hp
    exact h hr hw (List.append_eq_nil_iff.mp hp).1
  | closePort | join | release => exact h
  | clear => exact fun _ hw ↦ hg hw

theorem stopSeen_of_reachable (h : system.ReachableUnder ClearsAwake s) : s.StopSeen :=
  h.invariant_of_commands stopSeen_init fun _ _ hi hg he ↦ hi.apply hg he

/-- Once the flag is cleared, a step of the reader brings it nearer to its end, and a step of
another thread leaves it where it is. -/
theorem stepsLeft_apply (h : s.StopSeen) (hr : s.isRunning = false) (he : s.Enabled a) :
    (s.apply a).reader.stepsLeft + (if a.isReaders = true then 1 else 0) ≤
      s.reader.stepsLeft := by
  cases a with
  | test =>
    have hreader : s.reader = .testing := he
    have hreturned : (s.apply .test).reader = .returned := by rw [apply, hr]; rfl
    rw [hreturned, hreader]
    exact Nat.le_refl _
  | wait =>
    have hreader : s.reader = .waiting := he
    have hreading : (s.apply .wait).reader = .reading := if_pos (h hr (hreader ▸ rfl))
    rw [hreading, hreader]
    exact Nat.le_refl _
  | wake =>
    have hreader : s.reader = .blocked := he.1
    rw [hreader]
    exact Nat.le_refl _
  | interrupt =>
    have hreader : s.reader = .blocked := he
    rw [hreader]
    exact Nat.le_succ 2
  | fail =>
    have hwaits : s.reader.waits = true := he
    cases hreader : s.reader with
    | waiting | blocked => exact Nat.le_add_left 1 2
    | testing | reading | returned => cases (hreader ▸ hwaits : _)
  | read count =>
    have hreader : s.reader = .reading := he.1
    rw [hreader]
    exact Nat.le_refl _
  | arrive | closePort | clear | join | release => exact Nat.le_refl _

/-- A reader that has not returned can take a step. -/
theorem exists_reader_step (h : s.StopSeen) (hr : s.isRunning = false)
    (hreader : s.reader ≠ .returned) : ∃ a : PortAction, a.isReaders = true ∧ s.Enabled a := by
  cases hpc : s.reader with
  | testing => exact ⟨.test, rfl, hpc⟩
  | waiting => exact ⟨.wait, rfl, hpc⟩
  | blocked => exact ⟨.wake, rfl, hpc, h hr (hpc ▸ rfl)⟩
  | reading => exact ⟨.read 0, rfl, hpc, Nat.zero_le _, Nat.zero_le _⟩
  | returned => exact absurd hpc hreader

private theorem isRunning_apply (hr : s.isRunning = false) (a : PortAction) :
    (s.apply a).isRunning = false := by
  cases a with
  | clear => rfl
  | _ => exact hr

private theorem countP_isReaders_le_stepsLeft (h : s.StopSeen) (hr : s.isRunning = false)
    (hrun : system.run ClearsAwake s as = some s') :
    as.countP PortAction.isReaders ≤ s.reader.stepsLeft := by
  induction as generalizing s with
  | nil => exact Nat.zero_le _
  | cons a as ih =>
    obtain ⟨hg, he, hrun⟩ := StepSystem.run_cons_of_commands_iff.mp hrun
    have hstep := stepsLeft_apply h hr he
    have hrest := ih (h.apply hg he) (isRunning_apply hr a) hrun
    rw [List.countP_cons]
    omega

/-- Once `closePort` has cleared the flag, the reader takes three more steps at most. -/
theorem countP_isReaders_le (h : system.ReachableUnder ClearsAwake s) (hr : s.isRunning = false)
    (hrun : system.run ClearsAwake s as = some s') :
    as.countP PortAction.isReaders ≤ 3 := by
  have hle := countP_isReaders_le_stepsLeft (stopSeen_of_reachable h) hr hrun
  have hthree : s.reader.stepsLeft ≤ 3 := by cases s.reader <;> decide
  exact Nat.le_trans hle hthree

/-- A flag that is cleared while the reader waits for input that is not there leads to a
deadlock. -/
theorem deadlocked_of_clear (h : system.Reachable s) (hc : s.closer = .clearing)
    (hw : s.reader.waits = true) (hp : s.pending = []) :
    ∃ as s', system.run (fun _ _ ↦ True) s as = some s' ∧ s'.Deadlocked := by
  have hok := closerOk_of_reachable h
  have hjoining : (s.apply .clear).closer = .joining :=
    if_pos (hok.joinable (hok.clearing hc))
  cases hreader : s.reader with
  | blocked =>
    refine ⟨[.clear], s.apply .clear, ?_, deadlocked_of_joining hjoining hreader hp⟩
    exact StepSystem.run_cons_of_commands_iff.mpr ⟨trivial, hc, rfl⟩
  | waiting =>
    have hblocked : ((s.apply .clear).apply .wait).reader = .blocked := if_neg fun hne ↦ hne hp
    have hwait : system.run (fun _ _ ↦ True) (s.apply .clear) [.wait] =
        some ((s.apply .clear).apply .wait) :=
      StepSystem.run_cons_of_commands_iff.mpr ⟨trivial, hreader, rfl⟩
    refine ⟨[.clear, .wait], (s.apply .clear).apply .wait, ?_,
      deadlocked_of_joining hjoining hblocked hp⟩
    exact StepSystem.run_cons_of_commands_iff.mpr ⟨trivial, hc, hwait⟩
  | testing | reading | returned => cases (hreader ▸ hw : _)

/-- In a run in which the flag is never cleared while the reader has passed its test and finds
no input, `closePort` never waits for a reader that nothing wakes. -/
theorem not_deadlocked_of_reachable (h : system.ReachableUnder ClearsAwake s) :
    ¬ s.Deadlocked := by
  rintro ⟨hc, hb, hp, -⟩
  have hr : s.isRunning = false := (closerOk_of_reachable h.reachable).joining hc
  exact stopSeen_of_reachable h hr (hb ▸ rfl) hp

/-- A byte arrives while the reader waits, and the port is closed before it is read. -/
def closedBehindInput : List PortAction :=
  [.test, .wait, .arrive [7], .closePort, .clear, .wake, .read 1, .test]

theorem not_deadlocked_closedBehindInput :
    ∃ s, system.ReachableUnder ClearsAwake s ∧ s.closer = .joining ∧ s.reader = .returned ∧
      s.passed = [[7]] ∧ ¬ s.Deadlocked := by
  have hrun : ∃ s, system.run ClearsAwake init closedBehindInput = some s ∧
      s.closer = .joining ∧ s.reader = .returned ∧ s.passed = [[7]] := ⟨_, rfl, rfl, rfl, rfl⟩
  obtain ⟨s, hs, hc, hreader, hpassed⟩ := hrun
  have hreach := StepSystem.reachableUnder_of_run hs
  exact ⟨s, hreach, hc, hreader, hpassed, not_deadlocked_of_reachable hreach⟩

/-- The line is silent, and the reader waits in `epoll_wait` when the port is closed. -/
theorem deadlocked_closedSilent :
    ∃ s, system.Reachable s ∧ s.Deadlocked := by
  have hrun : ∃ s, system.run (fun _ _ ↦ True) init [.test, .wait, .closePort, .clear] = some s ∧
      s.closer = .joining ∧ s.reader = .blocked ∧ s.pending = [] := ⟨_, rfl, rfl, rfl, rfl⟩
  obtain ⟨s, hs, hc, hb, hp⟩ := hrun
  exact ⟨s, StepSystem.reachableUnder_of_run hs, deadlocked_of_joining hc hb hp⟩

end ReadingPort

end OctopusIpc.Serial

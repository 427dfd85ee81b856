import OctopusIpc.Base.DescriptorTable
import OctopusIpc.Base.StepSystem

/-!
# Opening and closing the serial port

The descriptors and the thread of one `SerialPort` over a sequence of calls, each with the
outcome of the system calls in it, and the destruction at the end. The thread leaves its loop
when it is joined. The settings of the terminal are left out.
-/

namespace OctopusIpc.Serial

/-- How far `openPort` comes, with the numbers it obtains. -/
inductive OpenOutcome where
  | notOpened
  /-- `epoll_create1` fails. -/
  | noEpoll (fd : Int)
  /-- `epoll_ctl` fails. -/
  | notAdded (fd epoll : Int)
  | opened (fd epoll : Int)
  deriving DecidableEq, Repr

namespace OpenOutcome

/-- What `openPort` returns. -/
def succeeds : OpenOutcome → Bool
  | opened _ _ => true
  | _ => false

/-- The epoll instance is created and takes the port, if the port can be opened at all. -/
def epollWorks : OpenOutcome → Bool
  | notOpened => true
  | noEpoll _ => false
  | notAdded _ _ => false
  | opened _ _ => true

end OpenOutcome

/-- A call on the port. -/
inductive PortCall where
  | openPort (outcome : OpenOutcome)
  /-- `serialport_set_callback`, which opens the port unless the callback is null. -/
  | setCallback (isNull : Bool) (outcome : OpenOutcome)
  | closePort
  deriving DecidableEq, Repr

/-- The attempt to open that a call makes. -/
def PortCall.opens : PortCall → Option OpenOutcome
  | openPort outcome => some outcome
  | setCallback isNull outcome => if isNull then none else some outcome
  | closePort => none

/-- The fields of the object and what it has open; `src/HAL/octopus_serialport.hpp:85–90`. -/
structure SerialPort where
  serialFd : Int
  epollFd : Int
  isRunning : Bool
  /-- `readThread.joinable()`. -/
  joinable : Bool
  table : DescriptorTable

namespace SerialPort

/-- `src/HAL/octopus_serialport.cpp:24–25`. -/
def init : SerialPort := ⟨-1, -1, false, false, DescriptorTable.empty⟩

/-- `src/HAL/octopus_serialport.cpp:43–125`. The failures of the epoll calls close the port and
keep its number. -/
def openPort (s : SerialPort) : OpenOutcome → SerialPort
  | .notOpened => { s with serialFd := -1 }
  | .noEpoll fd =>
    { s with serialFd := fd, epollFd := -1, table := (s.table.acquire fd).close fd }
  | .notAdded fd epoll =>
    { s with
      serialFd := fd
      epollFd := epoll
      table := ((((s.table.acquire fd).acquire epoll).use epoll).use fd).close fd }
  | .opened fd epoll =>
    { s with
      serialFd := fd
      epollFd := epoll
      isRunning := true
      joinable := true
      table := (((s.table.acquire fd).acquire epoll).use epoll).use fd }

/-- The first part of `closePort`; `src/HAL/octopus_serialport.cpp:133–140`. -/
def stop (s : SerialPort) : SerialPort :=
  if s.isRunning then { s with isRunning := false, joinable := false } else s

/-- `src/HAL/octopus_serialport.cpp:141–145`. -/
def closeSerial (s : SerialPort) : SerialPort :=
  if s.serialFd ≠ -1 then { s with serialFd := -1, table := s.table.close s.serialFd } else s

/-- `src/HAL/octopus_serialport.cpp:146–150`. -/
def closeEpoll (s : SerialPort) : SerialPort :=
  if s.epollFd ≠ -1 then { s with epollFd := -1, table := s.table.close s.epollFd } else s

/-- `src/HAL/octopus_serialport.cpp:131–151`. -/
def closePort (s : SerialPort) : SerialPort := s.stop.closeSerial.closeEpoll

/-- `src/HAL/octopus_serialport.cpp:31–34`. -/
def destroy (s : SerialPort) : SerialPort := s.closePort

/-- What a call does. -/
def apply (s : SerialPort) : PortCall → SerialPort
  | .openPort outcome => s.openPort outcome
  | .setCallback isNull outcome => if isNull then s else s.openPort outcome
  | .closePort => s.closePort

/-- The numbers that an attempt obtains are free. -/
def Obtains (s : SerialPort) : OpenOutcome → Prop
  | .notOpened => True
  | .noEpoll fd => s.table.Fresh fd
  | .notAdded fd epoll | .opened fd epoll =>
    s.table.Fresh fd ∧ (s.table.acquire fd).Fresh epoll

instance (s : SerialPort) : (outcome : OpenOutcome) → Decidable (s.Obtains outcome)
  | .notOpened => inferInstanceAs (Decidable True)
  | .noEpoll _ => inferInstanceAs (Decidable (DescriptorTable.Fresh _ _))
  | .notAdded _ _ | .opened _ _ => inferInstanceAs (Decidable (_ ∧ _))

/-- When a call can end like this. -/
def Enabled (s : SerialPort) (call : PortCall) : Prop :=
  ∀ outcome ∈ call.opens, s.Obtains outcome

instance (s : SerialPort) (call : PortCall) : Decidable (s.Enabled call) :=
  inferInstanceAs (Decidable (∀ outcome ∈ call.opens, s.Obtains outcome))

/-- The calls as a transition system. -/
def system : StepSystem SerialPort PortCall := StepSystem.ofCommands init Enabled apply

/-- Nothing is held: the fields say so, and nothing is open. -/
def HoldsNothing (s : SerialPort) : Prop :=
  s.serialFd = -1 ∧ s.epollFd = -1 ∧ ∀ fd, s.table.opened fd = false

/-- An attempt that fails leaves nothing held, and one that succeeds finds no thread to
overwrite. -/
def OpensSoundly (s : SerialPort) (outcome : OpenOutcome) : Prop :=
  if outcome.succeeds = true then s.joinable = false else (s.openPort outcome).HoldsNothing

/-- Every attempt of the sequence is sound, and when the object is destroyed behind it,
everything obtained has been closed once. -/
def BalancedThrough (s : SerialPort) : List PortCall → Prop
  | [] => s.destroy.table.Balanced
  | call :: calls =>
    (∀ outcome ∈ call.opens, s.OpensSoundly outcome) ∧ (s.apply call).BalancedThrough calls

/-- Every attempt of the sequence comes while the port is closed, and its epoll calls work. -/
def OpensClosedPort (isOpen : Bool) : List PortCall → Prop
  | [] => True
  | call :: calls =>
    match call.opens with
    | some outcome =>
      isOpen = false ∧ outcome.epollWorks = true ∧ OpensClosedPort outcome.succeeds calls
    | none => OpensClosedPort (isOpen && call != .closePort) calls

variable {s s' : SerialPort} {outcome : OpenOutcome} {calls : List PortCall} {isOpen : Bool}

/-! ### The two states of a sound port -/

/-- No thread runs, nothing is held, and everything was closed once. -/
structure Closed (s : SerialPort) : Prop where
  serialFd : s.serialFd = -1
  epollFd : s.epollFd = -1
  isRunning : s.isRunning = false
  joinable : s.joinable = false
  balanced : s.table.Balanced

/-- The thread runs, and the two descriptors are what is open. -/
structure Open (s : SerialPort) : Prop where
  serialFd : 0 ≤ s.serialFd
  epollFd : 0 ≤ s.epollFd
  ne : s.serialFd ≠ s.epollFd
  isRunning : s.isRunning = true
  joinable : s.joinable = true
  proper : s.table.proper = true
  opened_iff : ∀ fd, s.table.opened fd = true ↔ fd = s.serialFd ∨ fd = s.epollFd

theorem closed_init : init.Closed := ⟨rfl, rfl, rfl, rfl, DescriptorTable.balanced_empty⟩

/-- A closed port that cannot be opened stays closed. -/
theorem Closed.notOpened (h : s.Closed) : (s.openPort .notOpened).Closed :=
  ⟨rfl, h.epollFd, h.isRunning, h.joinable, h.balanced⟩

/-- A closed port may be opened. -/
theorem Closed.opened {fd epoll : Int} (h : s.Closed) (he : s.Obtains (.opened fd epoll)) :
    (s.openPort (.opened fd epoll)).Open := by
  obtain ⟨hfd, hepoll⟩ := he
  have hne : fd ≠ epoll := by
    rintro rfl
    cases DescriptorTable.opened_acquire_self.symm.trans hepoll.2
  have hopened (k : Int) : ((s.table.acquire fd).acquire epoll).opened k = true ↔
      k = fd ∨ k = epoll := by
    rw [DescriptorTable.opened_acquire_iff, DescriptorTable.opened_acquire_iff,
      h.balanced.2 k, or_iff_left Bool.false_ne_true, or_comm]
  refine ⟨hfd.1, hepoll.1, hne, rfl, rfl, ?_, hopened⟩
  refine DescriptorTable.proper_use_iff.mpr ⟨DescriptorTable.proper_use_iff.mpr
    ⟨h.balanced.1, .inr ?_⟩, .inr ?_⟩
  · exact (hopened epoll).mpr (.inr rfl)
  · exact (hopened fd).mpr (.inl rfl)

/-- Closing a closed port does nothing. -/
theorem Closed.closePort (h : s.Closed) : s.closePort = s := by
  have hstop : s.stop = s := if_neg (h.isRunning ▸ nofun)
  have hserial : s.closeSerial = s := if_neg (not_not.mpr h.serialFd)
  have hepoll : s.closeEpoll = s := if_neg (not_not.mpr h.epollFd)
  rw [SerialPort.closePort, hstop, hserial, hepoll]

/-- Closing an open port closes both descriptors once. -/
theorem Open.closePort (h : s.Open) : s.closePort.Closed := by
  have hserial : s.serialFd ≠ -1 := by
    have hpos := h.serialFd
    omega
  have hepoll : s.epollFd ≠ -1 := by
    have hpos := h.epollFd
    omega
  have hclose : s.closePort =
      ⟨-1, -1, false, false, (s.table.close s.serialFd).close s.epollFd⟩ := by
    rw [SerialPort.closePort, stop, if_pos h.isRunning, closeSerial, if_pos hserial, closeEpoll,
      if_pos hepoll]
  rw [hclose]
  have hopen : (s.table.close s.serialFd).opened s.epollFd = true :=
    DescriptorTable.opened_close_iff.mpr ⟨h.ne.symm, (h.opened_iff _).mpr (.inr rfl)⟩
  have hproper : (s.table.close s.serialFd).proper = true :=
    DescriptorTable.proper_close_iff.mpr ⟨h.proper, .inr ((h.opened_iff _).mpr (.inl rfl))⟩
  refine ⟨rfl, rfl, rfl, rfl, DescriptorTable.proper_close_iff.mpr ⟨hproper, .inr hopen⟩,
    fun k ↦ Bool.eq_false_iff.mpr fun hk ↦ ?_⟩
  rw [DescriptorTable.opened_close_iff, DescriptorTable.opened_close_iff] at hk
  exact ((h.opened_iff k).mp hk.2.2).elim hk.2.1 hk.1

/-- A port in one of the two states. -/
def InState (isOpen : Bool) (s : SerialPort) : Prop := if isOpen = true then s.Open else s.Closed

/-- Closing leads to the closed state. -/
theorem InState.closePort (h : s.InState isOpen) : s.closePort.Closed := by
  cases isOpen with
  | true => exact Open.closePort h
  | false =>
    have hclosed : s.Closed := h
    rw [hclosed.closePort]
    exact hclosed

/-! ### Attempts to open -/

/-- A failing epoll call leaves the number of the closed port in its field. -/
theorem not_holdsNothing_of_epoll (he : s.Obtains outcome) (hepoll : outcome.epollWorks = false) :
    ¬ (s.openPort outcome).HoldsNothing := by
  rintro ⟨hserial, -, -⟩
  cases outcome with
  | notOpened | opened => cases hepoll
  | noEpoll fd =>
    have hpos : 0 ≤ fd := he.1
    have hfd : fd = -1 := hserial
    omega
  | notAdded fd epoll =>
    have hpos : 0 ≤ fd := he.1.1
    have hfd : fd = -1 := hserial
    omega

/-- An attempt on an open port is never sound. -/
theorem Open.not_opensSoundly (h : s.Open) (he : s.Obtains outcome) :
    ¬ s.OpensSoundly outcome := by
  intro hsound
  unfold OpensSoundly at hsound
  cases outcome with
  | opened fd epoll => cases h.joinable.symm.trans hsound
  | notOpened =>
    have hepoll : s.epollFd = -1 := hsound.2.1
    have hpos := h.epollFd
    omega
  | noEpoll => exact not_holdsNothing_of_epoll he rfl hsound
  | notAdded => exact not_holdsNothing_of_epoll he rfl hsound

/-- An attempt on a closed port is sound if the epoll calls work, and leads to the state that
its result tells. -/
theorem Closed.opensSoundly_iff (h : s.Closed) (he : s.Obtains outcome) :
    s.OpensSoundly outcome ↔ outcome.epollWorks = true := by
  unfold OpensSoundly
  cases outcome with
  | notOpened => exact iff_of_true ⟨rfl, h.epollFd, h.balanced.2⟩ rfl
  | opened => exact iff_of_true h.joinable rfl
  | noEpoll | notAdded => exact iff_of_false (not_holdsNothing_of_epoll he rfl) nofun

theorem Closed.inState_openPort (h : s.Closed) (he : s.Obtains outcome)
    (hepoll : outcome.epollWorks = true) : (s.openPort outcome).InState outcome.succeeds := by
  cases outcome with
  | notOpened => exact h.notOpened
  | opened fd epoll => exact h.opened he
  | noEpoll | notAdded => cases hepoll

/-! ### Sequences of calls -/

private theorem InState.balanced_iff (h : s.InState isOpen)
    (hrun : system.run (fun _ _ ↦ True) s calls = some s') :
    s.BalancedThrough calls ↔ OpensClosedPort isOpen calls := by
  induction calls generalizing s isOpen with
  | nil => exact iff_of_true h.closePort.balanced trivial
  | cons call calls ih =>
    obtain ⟨-, he, hrun⟩ := StepSystem.run_cons_of_commands_iff.mp hrun
    rw [BalancedThrough, OpensClosedPort]
    have hattempt (outcome : OpenOutcome) (hopens : call.opens = some outcome)
        (happly : s.apply call = s.openPort outcome) :
        ((∀ outcome ∈ call.opens, s.OpensSoundly outcome) ∧ (s.apply call).BalancedThrough calls) ↔
          isOpen = false ∧ outcome.epollWorks = true ∧
            OpensClosedPort outcome.succeeds calls := by
      have hobtains : s.Obtains outcome := he outcome hopens
      have hall : (∀ outcome ∈ call.opens, s.OpensSoundly outcome) ↔ s.OpensSoundly outcome := by
        rw [hopens]
        simp only [Option.mem_some_iff, forall_eq']
      rw [hall]
      cases isOpen with
      | true =>
        have hopen : s.Open := h
        refine iff_of_false (fun hb ↦ hopen.not_opensSoundly hobtains hb.1) ?_
        rintro ⟨⟨⟩, -⟩
      | false =>
        have hclosed : s.Closed := h
        rw [hclosed.opensSoundly_iff hobtains, happly, and_iff_right rfl]
        refine and_congr_right fun hepoll ↦ ?_
        exact ih (hclosed.inState_openPort hobtains hepoll) (happly ▸ hrun)
    have hnone : ∀ outcome ∈ (none : Option OpenOutcome), s.OpensSoundly outcome := by
      rintro outcome ⟨⟩
    cases call with
    | openPort outcome => exact hattempt outcome rfl rfl
    | setCallback isNull outcome =>
      cases isNull with
      | false => exact hattempt outcome rfl rfl
      | true =>
        have hkeep : s.BalancedThrough calls ↔ OpensClosedPort isOpen calls := ih h hrun
        simp only [PortCall.opens, if_true]
        rw [show (isOpen && PortCall.setCallback true outcome != .closePort) = isOpen from
          Bool.and_true isOpen]
        exact (and_iff_right hnone).trans hkeep
    | closePort =>
      have hclosed : s.closePort.InState false := h.closePort
      have hkeep := ih hclosed hrun
      rw [show (isOpen && PortCall.closePort != .closePort) = false from Bool.and_false isOpen]
      exact (and_iff_right hnone).trans hkeep

/-- Whatever sequence of calls is made on a new object with whatever outcomes: each attempt is
sound, and the descriptors balance when the object is destroyed, if and only if each attempt
comes while the port is closed and its epoll calls work. -/
theorem balancedThrough_iff (hrun : system.run (fun _ _ ↦ True) init calls = some s) :
    init.BalancedThrough calls ↔ OpensClosedPort false calls := by
  have hinit : init.InState false := closed_init
  exact hinit.balanced_iff hrun

/-- The port is opened, closed, not found, and opened again with a callback. -/
def openedInTurn : List PortCall :=
  [.openPort (.opened 3 4), .closePort, .openPort .notOpened, .setCallback true .notOpened,
    .setCallback false (.opened 3 4)]

theorem balancedThrough_openedInTurn : init.BalancedThrough openedInTurn := by
  have hrun : ∃ s, system.run (fun _ _ ↦ True) init openedInTurn = some s := ⟨_, rfl⟩
  obtain ⟨s, hs⟩ := hrun
  exact (balancedThrough_iff hs).mpr ⟨rfl, rfl, rfl, rfl, rfl, rfl, trivial⟩

/-- A port that epoll does not take is closed again by the destructor, with its number still in
the field; a port that is opened twice puts the second thread over the first, which is still to
be joined. -/
theorem not_balancedThrough_notAdded :
    ((system.run (fun _ _ ↦ True) init [.openPort (.notAdded 3 4)]).map fun s ↦
        (s.serialFd, s.destroy.table.proper)) = some (3, false) ∧
      ¬ init.BalancedThrough [.openPort (.notAdded 3 4)] ∧
      ¬ init.BalancedThrough [.openPort (.opened 3 4), .openPort (.opened 5 6)] := by
  refine ⟨rfl, fun h ↦ ?_, fun h ↦ ?_⟩
  · have hproper := h.2.1
    cases hproper
  · have hjoinable : true = false := h.2.1 (.opened 5 6) rfl
    cases hjoinable

end SerialPort

end OctopusIpc.Serial

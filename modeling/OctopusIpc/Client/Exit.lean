import OctopusIpc.Client.Connection
import OctopusIpc.Client.ReceiveLoop

/-!
# Leaving the client library

`ipc_exit_cleanup`, which clears `socket_running`, closes the stored descriptor and joins the
receiver thread, next to that thread, with its drain loop, and the threads that send. It runs
on a thread of its own and may be called again. Each call into the system is taken to come
back, the wait of the receiver because it has a timeout.
-/

namespace OctopusIpc.Client
open OctopusIpc.Protocol OctopusIpc.Socket

/-- The steps of the receiver thread, the others being those of the threads that send. -/
def ClientAction.isReceivers : ClientAction → Bool
  | testSend _ | loadSend _ | write _ _ _ | closeSend _ _ => false
  | _ => true

/-- Where the receiver thread is. -/
inductive ReceiverPc where
  /-- In its loop or in a reconnect, at the place that the client process has for it. -/
  | looping
  /-- In the drain loop, with the bytes of a read. -/
  | draining (chunk : Chunk)
  | returned

/-- Where the thread in `ipc_exit_cleanup` is. -/
inductive ExitPc where
  | outside
  /-- Past the exchange of `socket_running`. -/
  | loading
  | closing (fd : Int)
  | joining
  deriving DecidableEq, Repr

/-- The client process while it may be left. -/
structure ExitingClient where
  process : ClientProcess
  received : ReceiveState
  socketRunning : Bool
  /-- `ipc_receiver_thread.joinable()`. -/
  joinable : Bool
  receiver : ReceiverPc
  exit : ExitPc

/-- What happens next. -/
inductive ExitAction where
  /-- A step that the client process has, of the receiver or of a sender. -/
  | client (a : ClientAction)
  /-- The read of the reported socket brings data. -/
  | receive (chunk : Chunk)
  /-- The drain loop comes back after that many rounds. -/
  | drain (rounds : Nat)
  /-- The receiver finds `socket_running` cleared. -/
  | leave
  /-- `src/APP/octopus_ipc_app_client.cpp:646–650`. -/
  | exchange
  /-- `socket_client` is read, and then its number closed;
  `src/APP/octopus_ipc_app_client.cpp:672`. -/
  | loadSocket
  | closeSocket (fd : Int)
  /-- `src/APP/octopus_ipc_app_client.cpp:682–686`. -/
  | join

/-- The steps of the receiver thread. -/
def ExitAction.isReceivers : ExitAction → Bool
  | client a => a.isReceivers
  | receive _ | drain _ | leave => true
  | exchange | loadSocket | closeSocket _ | join => false

/-- How many steps the receiver can still take from a place in its loop if it does not go round
again, depending on whether its socket has been registered. -/
def LoopPc.stepsLeft (epollInitialized : Bool) : LoopPc → Nat
  | top => 1
  | closingUnregistered _ | closingUnconnected _ => 2
  | connecting _ => 3
  | storing _ => 4
  | registering _ => 5
  | opening => 6
  | checkingServer => 7
  | closingOld => 8
  | reading => 9
  | polling => if epollInitialized then 10 else 11

namespace ReceiverPc

def isLooping : ReceiverPc → Bool
  | looping => true
  | draining _ | returned => false

def isReturned : ReceiverPc → Bool
  | returned => true
  | looping | draining _ => false

end ReceiverPc

namespace ExitingClient

/-- The library has been loaded; `src/APP/octopus_ipc_app_client.cpp:626–627`. -/
def init : ExitingClient :=
  ⟨ClientProcess.init, ReceiveState.init, true, true, .looping, .outside⟩

/-- What that many rounds of the drain loop leave, if it comes back from them. -/
def drained (s : ExitingClient) (rounds : Nat) : Option ReceiveState :=
  match s.receiver with
  | .draining chunk => receiveIteration rounds s.received (.success chunk)
  | .looping | .returned => none

/-- When the receiver comes to a step of the client process. It tests `socket_running` and then
`socket_client`, which no other thread writes, in one step. A read with data is `receive`. -/
def Allows (s : ExitingClient) : ClientAction → Prop
  | .testConnection => s.receiver.isLooping = true ∧ s.socketRunning = true
  | .read ok => s.receiver.isLooping = true ∧ ok = false
  | a => a.isReceivers = true → s.receiver.isLooping = true

instance (s : ExitingClient) : (a : ClientAction) → Decidable (s.Allows a)
  | .testConnection | .read _ => inferInstanceAs (Decidable (_ ∧ _))
  | .initEpoll _ | .poll _ | .closeOld | .checkServer _ _ | .openSocket _ | .register _ _ _
  | .closeUnregistered _ | .store _ | .connect _ _ | .closeUnconnected _ | .testSend _
  | .loadSend _ | .write _ _ _ | .closeSend _ _ => inferInstanceAs (Decidable (_ → _))

/-- When an action is possible. -/
def Enabled (s : ExitingClient) : ExitAction → Prop
  | .client a => s.Allows a ∧ s.process.Enabled a
  | .receive _ => s.receiver.isLooping = true ∧ s.process.Enabled (.read true)
  | .drain rounds => (s.drained rounds).isSome = true
  | .leave => s.receiver.isLooping = true ∧ s.process.loop = .top ∧ s.socketRunning = false
  | .exchange => s.exit = .outside
  | .loadSocket => s.exit = .loading
  | .closeSocket fd => s.exit = .closing fd
  | .join => s.exit = .joining ∧ s.receiver.isReturned = true

instance (s : ExitingClient) : (a : ExitAction) → Decidable (s.Enabled a)
  | .client _ | .receive _ => inferInstanceAs (Decidable (_ ∧ s.process.Enabled _))
  | .drain _ => inferInstanceAs (Decidable (_ = _))
  | .leave => inferInstanceAs (Decidable (_ ∧ _ ∧ _))
  | .exchange | .loadSocket | .closeSocket _ => inferInstanceAs (Decidable (s.exit = _))
  | .join => inferInstanceAs (Decidable (_ ∧ _))

/-- The effect of an action. -/
def apply (s : ExitingClient) : ExitAction → ExitingClient
  | .client a => { s with process := s.process.apply a }
  | .receive chunk =>
    { s with process := s.process.apply (.read true), receiver := .draining chunk }
  | .drain rounds =>
    { s with received := (s.drained rounds).getD s.received, receiver := .looping }
  | .leave => { s with receiver := .returned }
  | .exchange => { s with socketRunning := false, exit := .loading }
  | .loadSocket => { s with exit := .closing s.process.socketClient }
  | .closeSocket fd =>
    { s with
      process := s.process.setSocket fd none
      exit := if s.joinable then .joining else .outside }
  | .join => { s with joinable := false, exit := .outside }

/-- The client process and its end as a transition system. -/
def system : StepSystem ExitingClient ExitAction := StepSystem.ofCommands init Enabled apply

/-- The receiver is in a drain loop that does not come back. -/
def Floods (s : ExitingClient) : Prop :=
  ∃ chunk, s.receiver = .draining chunk ∧ ¬ Drainable (s.received.buffer ++ chunk.bytes)

variable {s s' : ExitingClient} {a : ExitAction} {as : List ExitAction}

/-! ### How far the receiver is from its end -/

/-- How many steps the receiver can still take once the flag is cleared. -/
def stepsLeft (s : ExitingClient) : Nat :=
  match s.receiver with
  | .looping => s.process.loop.stepsLeft s.process.epollInitialized
  | .draining _ => 2
  | .returned => 0

theorem stepsLeft_le (s : ExitingClient) : s.stepsLeft ≤ 11 := by
  unfold stepsLeft
  split
  · cases s.process.loop <;> simp only [LoopPc.stepsLeft] <;> try decide
    split <;> decide
  · decide
  · decide

/-- A step of the client process that is one of the receiver brings it nearer to its end. -/
theorem stepsLeft_client {p : ClientProcess} {c : ClientAction} (he : p.Enabled c)
    (htest : c ≠ .testConnection) (hread : c ≠ .read true) :
    (p.apply c).loop.stepsLeft (p.apply c).epollInitialized +
        (if c.isReceivers = true then 1 else 0) ≤
      p.loop.stepsLeft p.epollInitialized := by
  cases c with
  | testConnection => exact absurd rfl htest
  | initEpoll created =>
    obtain ⟨hloop, hinit, -⟩ := he
    cases created with
    | true =>
      have hpolling : (p.apply (.initEpoll true)).loop = .polling := hloop
      rw [hpolling, hloop, hinit]
      exact Nat.le_refl 11
    | false =>
      rw [hloop, hinit]
      exact (by decide : 9 ≤ 11)
  | poll event =>
    obtain ⟨hloop, hinit, -⟩ := he
    rw [hloop, hinit]
    cases event with
    | timeout => exact (by decide : 2 ≤ 10)
    | failed => exact (by decide : 9 ≤ 10)
    | readable => exact Nat.le_refl 10
  | read ok =>
    cases ok with
    | true => exact absurd rfl hread
    | false =>
      rw [he.1]
      exact Nat.le_refl 9
  | closeOld | closeUnregistered | store | closeUnconnected =>
    rw [show p.loop = _ from he]
    exact Nat.le_refl _
  | checkServer running started =>
    rw [show p.loop = _ from he]
    simp only [ClientProcess.apply]
    split
    · exact Nat.le_refl 7
    · exact (by decide : 2 ≤ 7)
  | openSocket fd =>
    rw [he.1]
    cases fd with
    | none => exact (by decide : 2 ≤ 6)
    | some fd => exact Nat.le_refl 6
  | register fd created ok =>
    rw [he.1]
    cases ok with
    | true => exact Nat.le_refl 5
    | false => exact (by decide : 3 ≤ 5)
  | connect fd ok =>
    rw [he.1]
    cases ok with
    | true => exact (by decide : 2 ≤ 3)
    | false => exact Nat.le_refl 3
  | testSend | loadSend | write | closeSend => exact Nat.le_refl _

/-- The senders do not move the receiver. -/
theorem loop_apply_of_sender {p : ClientProcess} {c : ClientAction} (h : c.isReceivers = false) :
    (p.apply c).loop = p.loop := by
  cases c with
  | testSend | loadSend | write | closeSend => rfl
  | testConnection | initEpoll | poll | read | closeOld | checkServer | openSocket | register
  | closeUnregistered | store | connect | closeUnconnected => cases h

theorem eq_looping (h : s.receiver.isLooping = true) : s.receiver = .looping := by
  cases hr : s.receiver with
  | looping => rfl
  | draining chunk | returned =>
    rw [hr] at h
    cases h

/-- A receiver that is not in its loop is passed by the steps of the client process. -/
theorem Allows.isReceivers_eq_false {c : ClientAction} (h : s.Allows c)
    (hr : s.receiver.isLooping = false) : c.isReceivers = false := by
  have hnot {P : Prop} (hl : s.receiver.isLooping = true) : P := by
    cases hr.symm.trans hl
  cases c with
  | testConnection => exact hnot h.1
  | read ok => exact hnot h.1
  | initEpoll | poll | closeOld | checkServer | openSocket | register | closeUnregistered | store
  | connect | closeUnconnected => exact hnot (h rfl)
  | testSend | loadSend | write | closeSend => rfl

/-- Where a drain loop stands in the receive loop, and what has been done to the flag. -/
structure ExitOk (s : ExitingClient) : Prop where
  draining : ∀ chunk, s.receiver = .draining chunk → s.process.loop = .top
  cleared : s.exit ≠ .outside → s.socketRunning = false

theorem exitOk_init : init.ExitOk where
  draining _ h := by cases h
  cleared h := absurd rfl h

theorem ExitOk.apply (h : s.ExitOk) (he : s.Enabled a) : (s.apply a).ExitOk := by
  cases a with
  | client c =>
    refine ⟨fun chunk hchunk ↦ ?_, h.cleared⟩
    have hreceiver : s.receiver = .draining chunk := hchunk
    have hsender : c.isReceivers = false :=
      he.1.isReceivers_eq_false (by rw [hreceiver]; rfl)
    exact (loop_apply_of_sender hsender).trans (h.draining chunk hreceiver)
  | receive chunk => exact ⟨fun _ _ ↦ rfl, h.cleared⟩
  | drain rounds => exact ⟨fun _ hchunk ↦ (by cases hchunk), h.cleared⟩
  | leave => exact ⟨fun _ hchunk ↦ (by cases hchunk), h.cleared⟩
  | exchange => exact ⟨h.draining, fun _ ↦ rfl⟩
  | loadSocket =>
    have hloading : s.exit = .loading := he
    exact ⟨h.draining, fun _ ↦ h.cleared (by rw [hloading]; decide)⟩
  | closeSocket fd =>
    have hclosing : s.exit = .closing fd := he
    exact ⟨h.draining, fun _ ↦ h.cleared (by rw [hclosing]; exact fun hc ↦ by cases hc)⟩
  | join => exact ⟨h.draining, fun hexit ↦ absurd rfl hexit⟩

theorem exitOk_of_reachable (h : system.Reachable s) : s.ExitOk :=
  h.invariant_of_commands exitOk_init fun _ _ hi _ he ↦ hi.apply he

/-- Once the flag is cleared, a step of the receiver brings it nearer to its end, and a step of
another thread leaves it where it is. -/
theorem stepsLeft_apply (h : s.ExitOk) (hr : s.socketRunning = false) (he : s.Enabled a) :
    (s.apply a).stepsLeft + (if a.isReceivers = true then 1 else 0) ≤ s.stepsLeft := by
  cases a with
  | client c =>
    obtain ⟨hallows, henabled⟩ := he
    cases hreceiver : s.receiver with
    | looping =>
      have htest : c ≠ .testConnection := by
        rintro rfl
        cases hr.symm.trans hallows.2
      have hread : c ≠ .read true := by
        rintro rfl
        cases hallows.2
      have hafter : (s.apply (.client c)).receiver = .looping := hreceiver
      rw [stepsLeft, stepsLeft, hafter, hreceiver]
      exact stepsLeft_client henabled htest hread
    | draining chunk | returned =>
      have hsender : c.isReceivers = false :=
        hallows.isReceivers_eq_false (by rw [hreceiver]; rfl)
      simp [stepsLeft, ExitingClient.apply, hreceiver, ExitAction.isReceivers, hsender]
  | receive chunk =>
    have hreading : s.process.loop = .reading := he.2.1
    rw [stepsLeft, stepsLeft, eq_looping he.1, hreading]
    exact (by decide : 3 ≤ 9)
  | drain rounds =>
    cases hreceiver : s.receiver with
    | draining chunk =>
      have htop : (s.apply (.drain rounds)).process.loop = .top := h.draining chunk hreceiver
      have hlooping : (s.apply (.drain rounds)).receiver = .looping := rfl
      rw [stepsLeft, stepsLeft, hlooping, hreceiver, htop]
      exact Nat.le_refl 2
    | looping | returned =>
      have hnone : s.drained rounds = none := by rw [drained, hreceiver]
      rw [Enabled, hnone] at he
      cases he
  | leave =>
    rw [stepsLeft, stepsLeft, eq_looping he.1, he.2.1]
    exact Nat.le_refl 1
  | exchange | loadSocket | closeSocket | join => exact Nat.le_refl _

private theorem socketRunning_apply (hr : s.socketRunning = false) (a : ExitAction) :
    (s.apply a).socketRunning = false := by
  cases a with
  | exchange => rfl
  | client | receive | drain | leave | loadSocket | closeSocket | join => exact hr

private theorem countP_isReceivers_le_stepsLeft (h : s.ExitOk) (hr : s.socketRunning = false)
    (hrun : system.run (fun _ _ ↦ True) s as = some s') :
    as.countP ExitAction.isReceivers ≤ s.stepsLeft := by
  induction as generalizing s with
  | nil => exact Nat.zero_le _
  | cons a as ih =>
    obtain ⟨-, he, hrun⟩ := StepSystem.run_cons_of_commands_iff.mp hrun
    have hstep := stepsLeft_apply h hr he
    have hrest := ih (h.apply he) (socketRunning_apply hr a) hrun
    rw [List.countP_cons]
    omega

/-! ### Whether it gets there -/

/-- The drain loop comes back exactly from a drainable buffer. -/
theorem exists_drain_iff {chunk : Chunk} (hreceiver : s.receiver = .draining chunk) :
    (∃ rounds, s.Enabled (.drain rounds)) ↔ Drainable (s.received.buffer ++ chunk.bytes) := by
  have hdrained (rounds : Nat) : s.drained rounds = Loop.run drainBody rounds
      ⟨s.received.buffer ++ chunk.bytes, DataMessage.new, s.received.notified⟩ := by
    rw [drained, hreceiver]
    rfl
  constructor
  · rintro ⟨rounds, he⟩
    rw [Enabled, hdrained] at he
    obtain ⟨r, hr⟩ := Option.isSome_iff_exists.mp he
    exact drainable_of_halts DataMessage.isValid_new ⟨r, rounds, hr⟩
  · intro hd
    obtain ⟨r, rounds, hr⟩ := halts_of_drainable hd
      (s := ⟨_, DataMessage.new, s.received.notified⟩) rfl DataMessage.isValid_new
    refine ⟨rounds, ?_⟩
    rw [Enabled, hdrained, hr]
    rfl

/-- A receiver in a drain loop that does not come back stays there, and so does the thread that
joins it. -/
theorem Floods.apply (h : s.Floods) (hj : s.exit = .joining) (he : s.Enabled a) :
    (s.apply a).Floods ∧ (s.apply a).exit = .joining := by
  obtain ⟨chunk, hreceiver, hnot⟩ := h
  cases a with
  | client c => exact ⟨⟨chunk, hreceiver, hnot⟩, hj⟩
  | receive | leave => cases hreceiver.symm.trans (eq_looping he.1)
  | drain rounds => exact absurd ((exists_drain_iff hreceiver).mp ⟨rounds, he⟩) hnot
  | exchange | loadSocket | closeSocket => cases hj.symm.trans he
  | join =>
    have hreturned := he.2
    rw [hreceiver] at hreturned
    cases hreturned

/-- Otherwise the receiver has a step that does not lead it into such a loop. -/
theorem exists_receiver_step (hr : s.socketRunning = false) (hfloods : ¬ s.Floods)
    (hreceiver : s.receiver.isReturned = false) :
    ∃ a : ExitAction, a.isReceivers = true ∧ s.Enabled a ∧ ¬ (s.apply a).Floods := by
  cases hpc : s.receiver with
  | returned =>
    rw [hpc] at hreceiver
    cases hreceiver
  | draining chunk =>
    have hd : Drainable (s.received.buffer ++ chunk.bytes) :=
      not_not.mp fun hnot ↦ hfloods ⟨chunk, hpc, hnot⟩
    obtain ⟨rounds, he⟩ := (exists_drain_iff hpc).mpr hd
    refine ⟨.drain rounds, rfl, he, ?_⟩
    rintro ⟨_, hdraining, -⟩
    cases hdraining
  | looping =>
    have hlooping : s.receiver.isLooping = true := by rw [hpc]; rfl
    have hclient {c : ClientAction} (hreceivers : c.isReceivers = true) (hallows : s.Allows c)
        (henabled : s.process.Enabled c) :
        ∃ a : ExitAction, a.isReceivers = true ∧ s.Enabled a ∧ ¬ (s.apply a).Floods := by
      refine ⟨.client c, hreceivers, ⟨hallows, henabled⟩, ?_⟩
      rintro ⟨_, hdraining, -⟩
      cases hpc.symm.trans hdraining
    -- Every call the receiver can be at may fail, and `epoll_wait` may time out.
    cases hloop : s.process.loop with
    | top =>
      refine ⟨.leave, rfl, ⟨hlooping, hloop, hr⟩, ?_⟩
      rintro ⟨_, hdraining, -⟩
      cases hdraining
    | polling =>
      cases hinit : s.process.epollInitialized with
      | true =>
        exact hclient (c := .poll .timeout) rfl (fun _ ↦ hlooping)
          ⟨hloop, hinit, fun h ↦ by cases h⟩
      | false =>
        exact hclient (c := .initEpoll false) rfl (fun _ ↦ hlooping)
          ⟨hloop, hinit, fun h ↦ by cases h⟩
    | reading =>
      exact hclient (c := .read false) rfl ⟨hlooping, rfl⟩ ⟨hloop, fun h ↦ by cases h⟩
    | closingOld => exact hclient (c := .closeOld) rfl (fun _ ↦ hlooping) hloop
    | checkingServer =>
      exact hclient (c := .checkServer false false) rfl (fun _ ↦ hlooping) hloop
    | opening =>
      exact hclient (c := .openSocket none) rfl (fun _ ↦ hlooping) ⟨hloop, fun _ h ↦ by cases h⟩
    | registering fd =>
      exact hclient (c := .register fd false false) rfl (fun _ ↦ hlooping)
        ⟨hloop, fun h ↦ by cases h⟩
    | closingUnregistered fd =>
      exact hclient (c := .closeUnregistered fd) rfl (fun _ ↦ hlooping) hloop
    | storing fd => exact hclient (c := .store fd) rfl (fun _ ↦ hlooping) hloop
    | connecting fd =>
      exact hclient (c := .connect fd false) rfl (fun _ ↦ hlooping) ⟨hloop, fun h ↦ by cases h⟩
    | closingUnconnected fd =>
      exact hclient (c := .closeUnconnected fd) rfl (fun _ ↦ hlooping) hloop

private theorem exit_apply_of_receivers (h : a.isReceivers = true) :
    (s.apply a).exit = s.exit := by
  cases a with
  | client | receive | drain | leave => rfl
  | exchange | loadSocket | closeSocket | join => cases h

/-- By the steps that the receiver has left. -/
private theorem exists_run_returned (h : s.ExitOk) (hr : s.socketRunning = false)
    (hfloods : ¬ s.Floods) : ∃ as s', system.run (fun _ _ ↦ True) s as = some s' ∧
      s'.receiver.isReturned = true ∧ s'.exit = s.exit := by
  have hprogress (t : ExitingClient)
      (ht : t.ExitOk ∧ t.socketRunning = false ∧ ¬ t.Floods ∧ t.exit = s.exit)
      (hnot : ¬ t.receiver.isReturned = true) :
      ∃ as t', (∀ a ∈ as, a.isReceivers = true) ∧
        system.run (fun _ _ ↦ True) t as = some t' ∧
        (t'.ExitOk ∧ t'.socketRunning = false ∧ ¬ t'.Floods ∧ t'.exit = s.exit) ∧
        t'.stepsLeft < t.stepsLeft := by
    obtain ⟨hok, hcleared, hflows, hexit⟩ := ht
    obtain ⟨a, ha, he, hafter⟩ :=
      exists_receiver_step hcleared hflows (eq_false_of_ne_true hnot)
    have hstep := stepsLeft_apply hok hcleared he
    rw [if_pos ha] at hstep
    refine ⟨[a], t.apply a, fun b hb ↦ List.mem_singleton.mp hb ▸ ha,
      StepSystem.run_cons_of_commands trivial he [], ⟨hok.apply he, ?_, hafter, ?_⟩, hstep⟩
    · exact socketRunning_apply hcleared a
    · exact (exit_apply_of_receivers ha).trans hexit
  obtain ⟨as, s', -, hrun, ⟨-, -, -, hexit⟩, hreturned⟩ :=
    StepSystem.exists_run_of_progress hprogress ⟨h, hr, hfloods, rfl⟩
  exact ⟨as, s', hrun, hreturned, hexit⟩

/-- When `ipc_exit_cleanup` waits in its join, the receiver takes at most eleven more steps,
whatever the server, the kernel and the senders do, and the join can be passed exactly if the
receiver is not in a drain loop whose bytes it never gets through. -/
theorem exit_returns_iff (h : system.Reachable s) (hj : s.exit = .joining) :
    (∀ as s', system.run (fun _ _ ↦ True) s as = some s' →
        as.countP ExitAction.isReceivers ≤ 11) ∧
      ((∃ as s', system.run (fun _ _ ↦ True) s as = some s' ∧ s'.exit = .outside) ↔
        ¬ s.Floods) := by
  have hok := exitOk_of_reachable h
  have hr : s.socketRunning = false := hok.cleared (by rw [hj]; decide)
  refine ⟨fun as s' hrun ↦ ?_, ?_, fun hfloods ↦ ?_⟩
  · exact Nat.le_trans (countP_isReceivers_le_stepsLeft hok hr hrun) s.stepsLeft_le
  · rintro ⟨as, s', hrun, houtside⟩ hfloods
    have hstuck : s'.Floods ∧ s'.exit = .joining :=
      StepSystem.invariant_of_run (I := fun t ↦ t.Floods ∧ t.exit = .joining)
        (fun t a t' ht _ hs ↦ by
          obtain ⟨he, rfl⟩ := StepSystem.ofCommands_step_eq_some_iff.mp hs
          exact ht.1.apply ht.2 he) ⟨hfloods, hj⟩ hrun
    cases houtside.symm.trans hstuck.2
  · obtain ⟨as, s', hrun, hreturned, hexit⟩ := exists_run_returned hok hr hfloods
    refine ⟨as ++ [.join], s'.apply .join, ?_, rfl⟩
    rw [StepSystem.run_append, hrun, Option.bind_some]
    exact StepSystem.run_cons_of_commands_iff.mpr ⟨trivial, ⟨hexit.trans hj, hreturned⟩, rfl⟩

/-- The library connects, reads the given bytes, and is left before they are drained. -/
def leftWhileDraining (chunk : Chunk) : List ExitAction :=
  [.client .testConnection, .client .closeOld, .client (.checkServer true false),
    .client (.openSocket (some 3)), .client (.register 3 true true), .client (.store 3),
    .client (.connect 3 true), .client .testConnection, .client (.poll .readable),
    .receive chunk, .exchange, .loadSocket, .closeSocket 3]

/-- A frame without a payload is got through, one whose payload is missing is not. -/
theorem exit_returns_iff_leftWhileDraining :
    (∃ s, system.run (fun _ _ ↦ True) init
        (leftWhileDraining ⟨[0xA5, 0xA5, 0, 0, 0, 0], List.cons_ne_nil _ _, by decide⟩) = some s ∧
      ∃ as s', system.run (fun _ _ ↦ True) s as = some s' ∧ s'.exit = .outside) ∧
    ∃ s, system.run (fun _ _ ↦ True) init
        (leftWhileDraining ⟨[0xA5, 0xA5, 0, 0, 0, 1], List.cons_ne_nil _ _, by decide⟩) = some s ∧
      ¬ ∃ as s', system.run (fun _ _ ↦ True) s as = some s' ∧ s'.exit = .outside := by
  have hrun (chunk : Chunk) : ∃ s, system.run (fun _ _ ↦ True) init
      (leftWhileDraining chunk) = some s ∧ s.exit = .joining ∧
      s.receiver = .draining chunk ∧ s.received.buffer = [] := ⟨_, rfl, rfl, rfl, rfl⟩
  constructor
  · obtain ⟨s, hs, hj, hreceiver, hbuffer⟩ := hrun ⟨[0xA5, 0xA5, 0, 0, 0, 0], _, _⟩
    refine ⟨s, hs, (exit_returns_iff (StepSystem.reachableUnder_of_run hs) hj).2.mpr ?_⟩
    rintro ⟨chunk, hchunk, hnot⟩
    cases hreceiver.symm.trans hchunk
    rw [hbuffer] at hnot
    exact hnot (drainable_of_halts (s := ⟨[0xA5, 0xA5, 0, 0, 0, 0], DataMessage.new, []⟩)
      DataMessage.isValid_new ⟨_, 2, rfl⟩)
  · obtain ⟨s, hs, hj, hreceiver, hbuffer⟩ := hrun ⟨[0xA5, 0xA5, 0, 0, 0, 1], _, _⟩
    refine ⟨s, hs, fun hout ↦ ?_⟩
    refine (exit_returns_iff (StepSystem.reachableUnder_of_run hs) hj).2.mp hout ?_
    refine ⟨_, hreceiver, ?_⟩
    rw [hbuffer]
    exact IncompleteFrame.not_drainable ⟨by decide, by decide, by decide⟩

end ExitingClient

end OctopusIpc.Client

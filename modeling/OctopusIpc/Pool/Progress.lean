import Mathlib.Algebra.BigOperators.Group.List.Basic
import Mathlib.Algebra.GroupWithZero.Nat
import OctopusIpc.Pool.Fates
import OctopusIpc.Pool.Front
import OctopusIpc.Pool.Waiting

/-!
# Draining the queue

What the workers of a running pool do when they are left to themselves, in any order: each of
their steps comes nearer to an end, and where none has a step left every submission that was
not discarded has been executed.
-/

namespace OctopusIpc.Pool

variable {τ : Type}

/-- A step of `worker_loop`, spurious wake-ups apart. -/
def Action.isWorkers : Action τ → Bool
  | loopTest _ | lock _ | test _ | block _ | take _ | begin _ | finish _ _ => true
  | call _ _ | submit _ | notifyOne _ _ | addThreads _ | removeThreads _ _ | wake _ | clear
  | notifyAll | join => false

/-- How many steps a worker can take until it blocks or returns if it finds no task. -/
def WorkerPc.work : WorkerPc τ → Nat
  | blocked | exited => 0
  | parking | checking => 1
  | testing => 2
  | acquire | notified => 3
  | outer => 4
  | executing _ => 5
  | holding _ => 6

namespace ThreadPool

variable {cfg : Config} {s s' : ThreadPool τ} {a : Action τ} {w : Nat} {pc pc' : WorkerPc τ}

/-- How many steps the workers can take among themselves. -/
def work (s : ThreadPool τ) : Nat :=
  (s.workers.map WorkerPc.work).sum + 6 * s.taskQueue.length

/-! ### Each step is one less -/

private theorem sum_map_set {α : Type} (f : α → Nat) {l : List α} {i : Nat} {x : α}
    (h : l[i]? = some x) (y : α) : ((l.set i y).map f).sum + f x = (l.map f).sum + f y := by
  induction l generalizing i with
  | nil => cases h
  | cons z l ih =>
    cases i with
    | zero =>
      cases h
      simp only [List.set_cons_zero, List.map_cons, List.sum_cons]
      omega
    | succ i =>
      have hrest := ih (i := i) h
      simp only [List.set_cons_succ, List.map_cons, List.sum_cons]
      omega

/-- A worker that goes on counts at its new place and no more at its old one. -/
private theorem sum_work_setWorker (hw : s.workers[w]? = some pc) (pc' : WorkerPc τ) :
    ((s.setWorker w pc').workers.map WorkerPc.work).sum + pc.work =
      (s.workers.map WorkerPc.work).sum + pc'.work :=
  sum_map_set WorkerPc.work hw pc'

/-- A worker that goes on to a place nearer to its end is so many steps nearer. -/
private theorem work_setWorker_lt (hw : s.workers[w]? = some pc) (hlt : pc'.work < pc.work) :
    (s.setWorker w pc').work < s.work := by
  have hsum := sum_work_setWorker hw pc'
  show (List.map _ _).sum + 6 * s.taskQueue.length < (List.map _ _).sum + 6 * s.taskQueue.length
  omega

/-- Each step of a worker is one less it can take. -/
theorem Step.work_lt (hs : Step cfg s a s') (ha : a.isWorkers = true) : s'.work < s.work := by
  cases hs with
  | call | submitWaits | submitted | woken | lost | addThreads | removeThreads | wake | clear
  | notifyAll | join => cases ha
  | enter w hw | leave w hw | pass w hw | fail w hw | block w hw | stop w hw | shrink w hw =>
    exact work_setWorker_lt hw (by simp only [WorkerPc.work]; omega)
  | lock w hm hw =>
    rcases hw with hw | hw
    · exact work_setWorker_lt hw (by simp only [WorkerPc.work]; omega)
    · exact work_setWorker_lt hw (by simp only [WorkerPc.work]; omega)
  | take w job queue hw hq =>
    -- The task pays for its way through the hands of the worker.
    have hsum := sum_work_setWorker hw (.holding job)
    have hlength : s.taskQueue.length = queue.length + 1 := by rw [hq, List.length_cons]
    simp only [WorkerPc.work] at hsum
    simp only [work]
    omega
  | begin w job hw | finish w outcome job hw =>
    exact work_setWorker_lt hw (by simp only [WorkerPc.work]; omega)

/-! ### Someone has a step -/

/-- The mutex is with a worker at a place where it is held. -/
def HeldOk (s : ThreadPool τ) : Prop :=
  ∀ w, s.queueMutex = some w → ∃ pc, s.workers[w]? = some pc ∧ pc.holdsMutex = true

theorem heldOk_init : HeldOk (init cfg : ThreadPool τ) := fun _ h ↦ nomatch h

private theorem HeldOk.of_none (hm : s.queueMutex = none) : HeldOk s := by
  intro w hw
  cases hm.symm.trans hw

/-- A worker without the mutex goes on. -/
private theorem HeldOk.setWorker (h : HeldOk s) (hw : s.workers[w]? = some pc)
    (hpc : pc.holdsMutex = false) : HeldOk (s.setWorker w pc') := by
  intro v hv
  obtain ⟨x, hx, hholds⟩ := h v hv
  have hne : v ≠ w := by
    rintro rfl
    cases hw.symm.trans hx
    cases hpc.symm.trans hholds
  exact ⟨x, (List.getElem?_set_ne hne.symm).trans hx, hholds⟩

/-- A worker with the mutex goes on with it. -/
private theorem HeldOk.setWorker_of_holds (h : HeldOk s) (hw : s.workers[w]? = some pc)
    (hpc' : pc'.holdsMutex = true) : HeldOk (s.setWorker w pc') := by
  intro v hv
  by_cases hne : v = w
  · subst hne
    exact ⟨pc', List.getElem?_set_self (List.getElem?_eq_some_iff.mp hw).1, hpc'⟩
  · obtain ⟨x, hx, hholds⟩ := h v hv
    exact ⟨x, (List.getElem?_set_ne (Ne.symm hne)).trans hx, hholds⟩

/-- Each step leaves the mutex with a worker that is where it is held. -/
theorem HeldOk.step (h : HeldOk s) (hs : Step cfg s a s') : HeldOk s' := by
  cases hs with
  | call | submitWaits | submitted | lost | removeThreads | clear | join => exact h
  | woken p w pc hp hw => exact HeldOk.setWorker (s := s.setCaller p pc) h hw rfl
  | addThreads count hm => exact .of_none hm
  | enter w hw | leave w hw | wake w hw | begin w job hw => exact h.setWorker hw rfl
  | finish w outcome job hw => exact h.setWorker hw rfl
  | lock w hm hw =>
    intro v hv
    cases hv
    have hlt : w < s.workers.length :=
      hw.elim (fun hw ↦ (List.getElem?_eq_some_iff.mp hw).1)
        fun hw ↦ (List.getElem?_eq_some_iff.mp hw).1
    exact ⟨.testing, List.getElem?_set_self hlt, rfl⟩
  | pass w hw | fail w hw => exact h.setWorker_of_holds hw rfl
  | block | stop | shrink | take => exact .of_none rfl
  | notifyAll hd =>
    intro w hw
    obtain ⟨x, hx, hholds⟩ := h w hw
    refine ⟨x.notify, ?_, holdsMutex_notify.trans hholds⟩
    rw [List.getElem?_map, hx]
    rfl

theorem heldOk_of_reachable (h : (system cfg).Reachable s) : HeldOk s :=
  h.invariant heldOk_init fun _ _ _ hi _ hs ↦ hi.step (step_of_eq_some hs)

/-- None of the workers has a step. -/
def Stuck (cfg : Config) (s : ThreadPool τ) : Prop :=
  ∀ a : Action τ, a.isWorkers = true → (system cfg).step s a = none

private theorem Stuck.elim (h : Stuck cfg s) (ha : a.isWorkers = true)
    (hs : ((system cfg).step s a).isSome = true) : False := by
  rw [h a ha] at hs
  cases hs

private theorem isSome_take (h : (system cfg).Reachable s) (hw : s.workers[w]? = some .checking) :
    ((system cfg).step s (.take w)).isSome = true :=
  Option.isSome_iff_exists.mpr (exists_take_of_checking h hw)

/-- The owner of the mutex always has a step. -/
private theorem Stuck.queueMutex_eq_none (hstuck : Stuck cfg s) (h : (system cfg).Reachable s) :
    s.queueMutex = none := by
  cases hm : s.queueMutex with
  | none => rfl
  | some w =>
    obtain ⟨pc, hw, hholds⟩ := heldOk_of_reachable h w hm
    refine False.elim ?_
    cases pc with
    | testing => exact hstuck.elim (a := .test w) rfl (by simp [system, step, hw])
    | parking => exact hstuck.elim (a := .block w) rfl (by simp [system, step, hw])
    | checking => exact hstuck.elim (a := .take w) rfl (isSome_take h hw)
    | outer | acquire | blocked | notified | holding | executing | exited => cases hholds

/-- Where no worker has a step all of them are blocked or have returned. -/
private theorem Stuck.isAwake_eq_false (hstuck : Stuck cfg s) (h : (system cfg).Reachable s)
    (hw : s.workers[w]? = some pc) : pc.isAwake = false := by
  have hm := hstuck.queueMutex_eq_none h
  by_contra hawake
  refine False.elim ?_
  cases pc with
  | outer => exact hstuck.elim (a := .loopTest w) rfl (by simp [system, step, hw])
  | acquire => exact hstuck.elim (a := .lock w) rfl (by simp [system, step, hm, hw])
  | notified => exact hstuck.elim (a := .lock w) rfl (by simp [system, step, hm, hw])
  | testing => exact hstuck.elim (a := .test w) rfl (by simp [system, step, hw])
  | checking => exact hstuck.elim (a := .take w) rfl (isSome_take h hw)
  | holding job => exact hstuck.elim (a := .begin w) rfl (by simp [system, step, hw])
  | executing job =>
    exact hstuck.elim (a := .finish w .returned) rfl (by simp [system, step, hw])
  | parking | blocked | exited => exact absurd rfl hawake

/-! ### While the workers are left to themselves -/

/-- The pool runs, no submitter is before its notification, and while a task is queued a worker
is left for it. -/
structure LeftToWorkers (cfg : Config) (s : ThreadPool τ) : Prop where
  reachable : (system cfg).Reachable s
  running : s.isRunning = true
  notified : ∀ p, s.callers p ≠ .notifySubmitted
  live : s.taskQueue ≠ [] → ∃ x ∈ s.workers, x ≠ .exited

/-- A worker leaves the loop of a running pool only when the queue is empty. -/
theorem LeftToWorkers.step (h : LeftToWorkers cfg s) (ha : a.isWorkers = true)
    (hs : (system cfg).step s a = some s') :
    LeftToWorkers cfg s' ∧ s'.survivors cfg = s.survivors cfg := by
  have hreach := h.reachable.step trivial hs
  have hset {w : Nat} {pc' : WorkerPc τ} {pc : WorkerPc τ} (hw : s.workers[w]? = some pc)
      (hne : pc' ≠ .exited) : ∃ x ∈ (s.setWorker w pc').workers, x ≠ .exited :=
    ⟨pc', mem_setWorker hw, hne⟩
  cases step_of_eq_some hs with
  | call | submitWaits | submitted | woken | lost | addThreads | removeThreads | wake | clear
  | notifyAll | join => cases ha
  | enter w hw | pass w hw | fail w hw | block w hw =>
    exact ⟨⟨hreach, h.running, h.notified, fun _ ↦ hset hw (fun h ↦ nomatch h)⟩, rfl⟩
  | take w job queue hw | begin w job hw | finish w outcome job hw =>
    exact ⟨⟨hreach, h.running, h.notified, fun _ ↦ hset hw (fun h ↦ nomatch h)⟩, rfl⟩
  | leave w hw hr => cases hr.symm.trans h.running
  | lock w hm hw =>
    refine ⟨⟨hreach, h.running, h.notified, fun _ ↦ ?_⟩, rfl⟩
    rcases hw with hw | hw
    · exact hset hw (fun h ↦ nomatch h)
    · exact hset hw (fun h ↦ nomatch h)
  | stop w hw hq | shrink w hw hq =>
    exact ⟨⟨hreach, h.running, h.notified, fun hne ↦ absurd hq hne⟩, rfl⟩

/-- Where no step is left to count none can be taken. -/
theorem stuck_of_work_eq_zero (h : s.work = 0) : Stuck cfg s := by
  intro a ha
  cases hs : (system cfg).step s a with
  | none => rfl
  | some s' => exact absurd ((step_of_eq_some hs).work_lt ha) (by omega)

/-- Where no worker has a step none has a task, and none is queued. -/
theorem LeftToWorkers.drained (h : LeftToWorkers cfg s) (hstuck : Stuck cfg s) :
    Drained cfg s := by
  have hasleep : ∀ x ∈ s.workers, x.isAwake = false := by
    intro x hx
    obtain ⟨w, hw⟩ := List.mem_iff_getElem?.mp hx
    exact hstuck.isAwake_eq_false h.reachable hw
  have hempty : s.taskQueue = [] := by
    by_contra hne
    rcases taskAttended_of_reachable h.reachable h.running hne with
      ⟨x, hx, hawake⟩ | ⟨p, hp⟩ | hexited
    · cases hawake.symm.trans (hasleep x hx)
    · exact h.notified p hp
    · obtain ⟨x, hx, hlive⟩ := h.live hne
      exact hlive (hexited x hx)
  have hhand : s.inHand = [] := by
    refine List.filterMap_eq_nil_iff.mpr fun x hx ↦ ?_
    have hx := hasleep x hx
    cases x <;> first | rfl | cases hx
  have hperm := perm_dequeued h.reachable
  have horder : s.dequeued ++ s.taskQueue = s.survivors cfg := (fifo_reachable h.reachable).wf.order
  rw [hhand, List.map_nil, List.append_nil] at hperm
  rw [hempty, List.append_nil] at horder
  intro job hjob
  have hmem : job.id ∈ s.executed.map Job.id := by
    rw [hperm.mem_iff, horder]
    exact List.mem_map_of_mem hjob
  have hnodup : (s.executed.map Job.id).Nodup :=
    hperm.nodup_iff.mpr (fifo_reachable h.reachable).wf.nodup_taken
  have hone := List.count_eq_one_of_mem hnodup hmem
  rw [List.count_eq_countP, List.countP_map] at hone
  exact hone

/-- A running pool whose submitters have all notified and that has a worker left, left to its
workers in any order, comes to an end after a bounded number of their steps, and has then
executed each task that was submitted to it and not discarded exactly once. -/
theorem drained_of_workers (h : (system cfg).Reachable s) (hr : s.isRunning = true)
    (hlive : ∃ x ∈ s.workers, x ≠ .exited) (hcallers : ∀ p, s.callers p ≠ .notifySubmitted)
    {as : List (Action τ)}
    (hrun : (system cfg).run (fun _ a ↦ a.isWorkers = true) s as = some s') :
    as.length ≤ s.work ∧
      (Stuck cfg s' → ∀ job ∈ s.survivors cfg, s'.timesExecuted job = 1) := by
  have hleft : LeftToWorkers cfg s' ∧ s'.survivors cfg = s.survivors cfg := by
    refine StepSystem.invariant_of_run
      (I := fun t ↦ LeftToWorkers cfg t ∧ t.survivors cfg = s.survivors cfg)
      (fun t a t' ht ha hs ↦ ?_) ⟨⟨h, hr, hcallers, fun _ ↦ hlive⟩, rfl⟩ hrun
    obtain ⟨hleft, hsurvivors⟩ := ht.1.step ha hs
    exact ⟨hleft, hsurvivors.trans ht.2⟩
  constructor
  · exact StepSystem.length_le_of_run (fun t a t' ha hs ↦ (step_of_eq_some hs).work_lt ha) hrun
  · intro hstuck job hjob
    exact hleft.1.drained hstuck job (hleft.2 ▸ hjob)

/-- Two workers and three tasks, one of them displaced. -/
def threeTasks : List (Action Nat) :=
  [.call 0 (.plain 7), .submit 0, .notifyOne 0 0, .call 0 (.delayed 8 50), .submit 0,
    .notifyOne 0 0, .call 0 (.plain 9), .submit 0, .notifyOne 0 0]

/-- Each worker takes one and waits for more. -/
def eachTakesOne : List (Action Nat) :=
  [.loopTest 0, .loopTest 1, .lock 1, .test 1, .take 1, .lock 0, .test 0, .take 0, .begin 0,
    .finish 0 .threwException, .begin 1, .finish 1 .returned, .loopTest 0, .loopTest 1, .lock 0,
    .test 0, .block 0, .lock 1, .test 1, .block 1]

theorem drained_eachTakesOne :
    ∃ s s' : ThreadPool Nat, (system ⟨2, 2, .dropOldest⟩).Reachable s ∧
      s.survivors ⟨2, 2, .dropOldest⟩ = [⟨1, .delayed 8 50⟩, ⟨2, .plain 9⟩] ∧
      (system ⟨2, 2, .dropOldest⟩).run (fun _ a ↦ a.isWorkers = true) s eachTakesOne = some s' ∧
      eachTakesOne.length ≤ s.work ∧ s'.workers = [.blocked, .blocked] ∧
      s'.timesExecuted ⟨1, .delayed 8 50⟩ = 1 ∧ s'.timesExecuted ⟨2, .plain 9⟩ = 1 := by
  have hrun : ∃ s, (system ⟨2, 2, .dropOldest⟩).run (fun _ _ ↦ True) (init ⟨2, 2, .dropOldest⟩)
      threeTasks = some s ∧ s.isRunning = true ∧ s.workers = [.outer, .outer] ∧
      (∀ p, s.callers p = .idle) ∧
      s.survivors ⟨2, 2, .dropOldest⟩ = [⟨1, .delayed 8 50⟩, ⟨2, .plain 9⟩] ∧
      ∃ s', (system ⟨2, 2, .dropOldest⟩).run (fun _ a ↦ a.isWorkers = true) s eachTakesOne =
        some s' ∧ s'.workers = [.blocked, .blocked] ∧ s'.work = 0 := by
    refine ⟨_, rfl, rfl, rfl, fun p ↦ ?_, by decide, _, rfl, rfl, rfl⟩
    cases p <;> rfl
  obtain ⟨s, hs, hr, hw, hcallers, hsurvivors, s', hrun, hw', hwork⟩ := hrun
  have hreach : (system ⟨2, 2, .dropOldest⟩).Reachable s := StepSystem.reachableUnder_of_run hs
  have hlive : ∃ x ∈ s.workers, x ≠ WorkerPc.exited :=
    ⟨.outer, hw ▸ List.mem_cons_self, fun h ↦ nomatch h⟩
  have hnotified (p : Nat) : s.callers p ≠ .notifySubmitted := by
    rw [hcallers p]
    exact fun h ↦ nomatch h
  obtain ⟨hlength, hdrained⟩ := drained_of_workers hreach hr hlive hnotified hrun
  have hexecuted := hdrained (stuck_of_work_eq_zero hwork)
  rw [hsurvivors] at hexecuted
  exact ⟨s, s', hreach, hsurvivors, hrun, hlength, hw', hexecuted _ List.mem_cons_self,
    hexecuted _ (List.mem_cons_of_mem _ List.mem_cons_self)⟩

end ThreadPool

end OctopusIpc.Pool

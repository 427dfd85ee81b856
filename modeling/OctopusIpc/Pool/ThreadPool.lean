import Mathlib.Algebra.Group.Nat.Defs
import Mathlib.Logic.Function.Basic
import OctopusIpc.Base.StepSystem
import OctopusIpc.Pool.TaskQueue

/-!
# The thread pool

`OctopusThreadPool` with any number of calling threads, its workers and its destructor,
interleaved at the points where they take or release `queue_mutex_`, wait on `task_cv_` or
touch the atomic `is_running_`. A critical section that does not wait is one step. Waiting
on the condition variable is the test of the predicate and, if it fails, the release of the
mutex with the block, both with the mutex held.
-/

namespace OctopusIpc.Pool

/-- Where a worker is in `worker_loop`. -/
inductive WorkerPc (τ : Type) where
  /-- Before the test of `is_running_`. -/
  | outer
  /-- Before it takes the mutex. -/
  | acquire
  /-- In `wait`, about to test the predicate. -/
  | testing
  /-- In `wait`, the predicate having failed, about to block. -/
  | parking
  /-- Blocked on `task_cv_`. -/
  | blocked
  /-- Woken, before it has the mutex back. -/
  | notified
  /-- Returned from `wait`. -/
  | checking
  /-- With a task off the queue. -/
  | holding (job : Job τ)
  /-- Inside a task. -/
  | executing (job : Job τ)
  | exited
  deriving DecidableEq, Repr

/-- Where a calling thread is in a submission or in `remove_threads`. -/
inductive CallerPc (τ : Type) where
  | idle
  /-- Before the critical section, or between two rounds of a blocked submission. -/
  | submitting (task : Task τ)
  /-- Between the unlock and `notify_one`. -/
  | notifySubmitted
  /-- In the notification loop of `remove_threads`, with this many rounds after the next. -/
  | notifyRemoved (rounds : Nat)
  deriving DecidableEq, Repr

/-- Where the destructor is. -/
inductive DestructorPc where
  | alive
  /-- Before `notify_all`. -/
  | cleared
  | joining
  | returned
  deriving DecidableEq, Repr

/-- How a task ends. -/
inductive TaskOutcome where
  | returned
  | threwException
  | threwUnknown
  deriving DecidableEq, Repr

/-- The pool and the threads that are inside it. For the specification it also carries each
submission with the queue it found, and the tasks in the order in which they left the queue
and in which they ended. -/
structure ThreadPool (τ : Type) where
  isRunning : Bool
  activeThreadCount : Nat
  threadsToTerminate : Nat
  taskQueue : List (Job τ)
  queueMutex : Option Nat
  workers : List (WorkerPc τ)
  callers : Nat → CallerPc τ
  destructor : DestructorPc
  log : List (Job τ × List (Job τ))
  dequeued : List (Job τ)
  executed : List (Job τ)

/-- The steps of the pool. -/
inductive Action (τ : Type) where
  /-- A thread calls one of the three submitting functions. -/
  | call (p : Nat) (task : Task τ)
  /-- One critical section of a submission. -/
  | submit (p : Nat)
  /-- A `notify_one`, with the worker it wakes if any is blocked. -/
  | notifyOne (p w : Nat)
  /-- `src/IPC/octopus_ipc_threadpool.cpp:262–274`. -/
  | addThreads (count : Nat)
  /-- The critical section of `remove_threads`; `src/IPC/octopus_ipc_threadpool.cpp:282–289`. -/
  | removeThreads (p count : Nat)
  /-- The test of the loop; `src/IPC/octopus_ipc_threadpool.cpp:179`. -/
  | loopTest (w : Nat)
  /-- A worker gets the mutex, before its wait or back in it. -/
  | lock (w : Nat)
  /-- One test of the predicate; `src/IPC/octopus_ipc_threadpool.cpp:185–186`. -/
  | test (w : Nat)
  /-- The mutex is released and the worker blocks. -/
  | block (w : Nat)
  /-- A spurious wake-up. -/
  | wake (w : Nat)
  /-- The rest of the worker's critical section; `src/IPC/octopus_ipc_threadpool.cpp:188–206`. -/
  | take (w : Nat)
  /-- The task is called; `src/IPC/octopus_ipc_threadpool.cpp:210`. -/
  | begin (w : Nat)
  /-- `src/IPC/octopus_ipc_threadpool.cpp:208–219`. -/
  | finish (w : Nat) (outcome : TaskOutcome)
  /-- `src/IPC/octopus_ipc_threadpool.cpp:44`. -/
  | clear
  /-- `src/IPC/octopus_ipc_threadpool.cpp:45`. -/
  | notifyAll
  /-- The last join returns; `src/IPC/octopus_ipc_threadpool.cpp:48–54`. -/
  | join

variable {τ : Type}

namespace WorkerPc

/-- A notification wakes a blocked worker only. -/
def notify : WorkerPc τ → WorkerPc τ
  | blocked => notified
  | pc => pc

/-- Blocked on `task_cv_`. -/
def isBlocked : WorkerPc τ → Bool
  | blocked => true
  | _ => false

/-- Its thread has returned. -/
def isExited : WorkerPc τ → Bool
  | exited => true
  | _ => false

/-- The worker has `queue_mutex_`. -/
def holdsMutex : WorkerPc τ → Bool
  | testing | parking | checking => true
  | _ => false

end WorkerPc

/-- Where a caller is after one notification. -/
def CallerPc.afterNotify : CallerPc τ → Option (CallerPc τ)
  | notifySubmitted => some idle
  | notifyRemoved 0 => some idle
  | notifyRemoved (n + 1) => some (notifyRemoved n)
  | _ => none

/-- Where a call of `remove_threads` is after its critical section. -/
def CallerPc.afterRemove : Nat → CallerPc τ
  | 0 => idle
  | n + 1 => notifyRemoved n

/-- Whatever the outcome, the worker goes round its loop;
`src/IPC/octopus_ipc_threadpool.cpp:208–219`. -/
def TaskOutcome.next : TaskOutcome → WorkerPc τ
  | returned => .outer
  | threwException => .outer
  | threwUnknown => .outer

/-- `--` on a `size_t`, which wraps round at zero. -/
def decrement : Nat → Nat
  | 0 => 2 ^ 64 - 1
  | n + 1 => n

namespace ThreadPool

variable (cfg : Config)

/-- The constructed pool; `src/IPC/octopus_ipc_threadpool.cpp:24–39`. -/
def init : ThreadPool τ where
  isRunning := true
  activeThreadCount := cfg.threadCount
  threadsToTerminate := 0
  taskQueue := []
  queueMutex := none
  workers := List.replicate cfg.threadCount .outer
  callers _ := .idle
  destructor := .alive
  log := []
  dequeued := []
  executed := []

/-- A worker goes on to another place. -/
def setWorker (s : ThreadPool τ) (w : Nat) (pc : WorkerPc τ) : ThreadPool τ :=
  { s with workers := s.workers.set w pc }

/-- A caller goes on to another place. -/
def setCaller (s : ThreadPool τ) (p : Nat) (pc : CallerPc τ) : ThreadPool τ :=
  { s with callers := Function.update s.callers p pc }

/-- The predicate of the wait; `src/IPC/octopus_ipc_threadpool.cpp:186`. -/
def waitPredicate (s : ThreadPool τ) : Bool :=
  !s.taskQueue.isEmpty || !s.isRunning || decide (0 < s.threadsToTerminate)

/-- One critical section of a submission. A caller that has to wait unlocks, sleeps and
comes back. -/
def submit (s : ThreadPool τ) (p : Nat) (task : Task τ) : ThreadPool τ :=
  let job := ⟨s.log.length, task⟩
  match cfg.submit s.taskQueue job with
  | none => s
  | some (queue, notify) =>
    { s.setCaller p (if notify then .notifySubmitted else .idle) with
      taskQueue := queue
      log := s.log ++ [(job, s.taskQueue)] }

/-- `src/IPC/octopus_ipc_threadpool.cpp:262–274`. -/
def addThreads (s : ThreadPool τ) (count : Nat) : ThreadPool τ :=
  { s with
    workers := s.workers ++ List.replicate count .outer
    activeThreadCount := s.activeThreadCount + count }

/-- `src/IPC/octopus_ipc_threadpool.cpp:282–295`. Requests may pile up past the range of the
counter; threads cannot. -/
def removeThreads (s : ThreadPool τ) (p count : Nat) : ThreadPool τ :=
  let count := if s.activeThreadCount < count then s.activeThreadCount else count
  { s.setCaller p (CallerPc.afterRemove count) with
    threadsToTerminate := (s.threadsToTerminate + count) % 2 ^ 64 }

/-- What a worker does when its wait has returned, nothing being defined for a `front()` of
the empty queue; `src/IPC/octopus_ipc_threadpool.cpp:188–206`. -/
def take (s : ThreadPool τ) (w : Nat) : Option (ThreadPool τ) :=
  if !s.isRunning && s.taskQueue.isEmpty then
    some { s.setWorker w .exited with queueMutex := none }
  else if s.taskQueue.isEmpty && decide (0 < s.threadsToTerminate) then
    some { s.setWorker w .exited with
      threadsToTerminate := decrement s.threadsToTerminate
      activeThreadCount := decrement s.activeThreadCount
      queueMutex := none }
  else
    match s.taskQueue with
    | [] => none
    | job :: queue =>
      some { s.setWorker w (.holding job) with
        taskQueue := queue
        dequeued := s.dequeued ++ [job]
        queueMutex := none }

/-- What each step does in a state in which it can be taken. -/
def step (s : ThreadPool τ) : Action τ → Option (ThreadPool τ)
  | .call p task =>
    match s.callers p with
    | .idle => some (s.setCaller p (.submitting task))
    | _ => none
  | .submit p =>
    match s.queueMutex, s.callers p with
    | none, .submitting task => some (s.submit cfg p task)
    | _, _ => none
  | .notifyOne p w =>
    match (s.callers p).afterNotify, s.workers[w]? with
    | some pc, some .blocked => some ((s.setCaller p pc).setWorker w .notified)
    | some pc, _ => if s.workers.any WorkerPc.isBlocked then none else some (s.setCaller p pc)
    | none, _ => none
  | .addThreads count =>
    match s.queueMutex with
    | none => some (s.addThreads count)
    | some _ => none
  | .removeThreads p count =>
    match s.queueMutex, s.callers p with
    | none, .idle => some (s.removeThreads p count)
    | _, _ => none
  | .loopTest w =>
    match s.workers[w]? with
    | some .outer => some (s.setWorker w (if s.isRunning then .acquire else .exited))
    | _ => none
  | .lock w =>
    match s.queueMutex, s.workers[w]? with
    | none, some .acquire | none, some .notified =>
      some { s.setWorker w .testing with queueMutex := some w }
    | _, _ => none
  | .test w =>
    match s.workers[w]? with
    | some .testing => some (s.setWorker w (if s.waitPredicate then .checking else .parking))
    | _ => none
  | .block w =>
    match s.workers[w]? with
    | some .parking => some { s.setWorker w .blocked with queueMutex := none }
    | _ => none
  | .wake w =>
    match s.workers[w]? with
    | some .blocked => some (s.setWorker w .notified)
    | _ => none
  | .take w =>
    match s.workers[w]? with
    | some .checking => s.take w
    | _ => none
  | .begin w =>
    match s.workers[w]? with
    | some (.holding job) => some (s.setWorker w (.executing job))
    | _ => none
  | .finish w outcome =>
    match s.workers[w]? with
    | some (.executing job) =>
      some { s.setWorker w outcome.next with executed := s.executed ++ [job] }
    | _ => none
  | .clear =>
    match s.destructor with
    | .alive => some { s with isRunning := false, destructor := .cleared }
    | _ => none
  | .notifyAll =>
    match s.destructor with
    | .cleared => some { s with workers := s.workers.map WorkerPc.notify, destructor := .joining }
    | _ => none
  | .join =>
    match s.destructor with
    | .joining => if s.workers.all WorkerPc.isExited then some { s with destructor := .returned }
      else none
    | _ => none

/-- The pool as a transition system. -/
def system : StepSystem (ThreadPool τ) (Action τ) where
  init := init cfg
  step := step cfg

/-! ### What a step is -/

/-- The steps by what they do, each with the condition under which it does it. -/
inductive Step (s : ThreadPool τ) : Action τ → ThreadPool τ → Prop
  | call (p : Nat) (task : Task τ) (hp : s.callers p = .idle) :
      Step s (.call p task) (s.setCaller p (.submitting task))
  | submitWaits (p : Nat) (task : Task τ) (hm : s.queueMutex = none)
      (hp : s.callers p = .submitting task) : Step s (.submit p) s
  | submitted (p : Nat) (task : Task τ) (queue : List (Job τ)) (notify : Bool)
      (hm : s.queueMutex = none) (hp : s.callers p = .submitting task)
      (hq : cfg.Submitted s.taskQueue ⟨s.log.length, task⟩ queue notify) :
      Step s (.submit p)
        { s.setCaller p (if notify then .notifySubmitted else .idle) with
          taskQueue := queue
          log := s.log ++ [(⟨s.log.length, task⟩, s.taskQueue)] }
  | woken (p w : Nat) (pc : CallerPc τ) (hp : (s.callers p).afterNotify = some pc)
      (hw : s.workers[w]? = some .blocked) :
      Step s (.notifyOne p w) ((s.setCaller p pc).setWorker w .notified)
  | lost (p w : Nat) (pc : CallerPc τ) (hp : (s.callers p).afterNotify = some pc)
      (hnone : ∀ v : Nat, s.workers[v]? ≠ some .blocked) :
      Step s (.notifyOne p w) (s.setCaller p pc)
  | addThreads (count : Nat) (hm : s.queueMutex = none) :
      Step s (.addThreads count) (s.addThreads count)
  | removeThreads (p count : Nat) (hm : s.queueMutex = none) (hp : s.callers p = .idle) :
      Step s (.removeThreads p count) (s.removeThreads p count)
  | enter (w : Nat) (hw : s.workers[w]? = some .outer) (hr : s.isRunning = true) :
      Step s (.loopTest w) (s.setWorker w .acquire)
  | leave (w : Nat) (hw : s.workers[w]? = some .outer) (hr : s.isRunning = false) :
      Step s (.loopTest w) (s.setWorker w .exited)
  | lock (w : Nat) (hm : s.queueMutex = none)
      (hw : s.workers[w]? = some .acquire ∨ s.workers[w]? = some .notified) :
      Step s (.lock w) { s.setWorker w .testing with queueMutex := some w }
  | pass (w : Nat) (hw : s.workers[w]? = some .testing) (hp : s.waitPredicate = true) :
      Step s (.test w) (s.setWorker w .checking)
  | fail (w : Nat) (hw : s.workers[w]? = some .testing) (hp : s.waitPredicate = false) :
      Step s (.test w) (s.setWorker w .parking)
  | block (w : Nat) (hw : s.workers[w]? = some .parking) :
      Step s (.block w) { s.setWorker w .blocked with queueMutex := none }
  | wake (w : Nat) (hw : s.workers[w]? = some .blocked) :
      Step s (.wake w) (s.setWorker w .notified)
  | stop (w : Nat) (hw : s.workers[w]? = some .checking) (hq : s.taskQueue = [])
      (hr : s.isRunning = false) :
      Step s (.take w) { s.setWorker w .exited with queueMutex := none }
  | shrink (w : Nat) (hw : s.workers[w]? = some .checking) (hq : s.taskQueue = [])
      (hr : s.isRunning = true) (ht : 0 < s.threadsToTerminate) :
      Step s (.take w)
        { s.setWorker w .exited with
          threadsToTerminate := decrement s.threadsToTerminate
          activeThreadCount := decrement s.activeThreadCount
          queueMutex := none }
  | take (w : Nat) (job : Job τ) (queue : List (Job τ)) (hw : s.workers[w]? = some .checking)
      (hq : s.taskQueue = job :: queue) :
      Step s (.take w)
        { s.setWorker w (.holding job) with
          taskQueue := queue
          dequeued := s.dequeued ++ [job]
          queueMutex := none }
  | begin (w : Nat) (job : Job τ) (hw : s.workers[w]? = some (.holding job)) :
      Step s (.begin w) (s.setWorker w (.executing job))
  | finish (w : Nat) (outcome : TaskOutcome) (job : Job τ)
      (hw : s.workers[w]? = some (.executing job)) :
      Step s (.finish w outcome) { s.setWorker w .outer with executed := s.executed ++ [job] }
  | clear (hd : s.destructor = .alive) :
      Step s .clear { s with isRunning := false, destructor := .cleared }
  | notifyAll (hd : s.destructor = .cleared) :
      Step s .notifyAll { s with workers := s.workers.map WorkerPc.notify, destructor := .joining }
  | join (hd : s.destructor = .joining) (hw : ∀ (w : Nat) pc, s.workers[w]? = some pc → pc = .exited) :
      Step s .join { s with destructor := .returned }

variable {cfg} {s s' : ThreadPool τ} {a : Action τ}

/-- One critical section of a submission. -/
private theorem step_submit {p : Nat} {task : Task τ} (hm : s.queueMutex = none)
    (hp : s.callers p = .submitting task) : Step cfg s (.submit p) (s.submit cfg p task) := by
  cases hs : cfg.submit s.taskQueue ⟨s.log.length, task⟩ with
  | none =>
    simp only [ThreadPool.submit, hs]
    exact .submitWaits p task hm hp
  | some r =>
    simp only [ThreadPool.submit, hs]
    exact .submitted p task r.1 r.2 hm hp (Config.submitted_of_submit hs)

/-- The rest of a critical section of a worker. -/
private theorem step_take {w : Nat} (hw : s.workers[w]? = some .checking)
    (h : s.take w = some s') : Step cfg s (.take w) s' := by
  unfold ThreadPool.take at h
  cases hq : s.taskQueue with
  | nil =>
    simp only [hq, List.isEmpty_nil, Bool.and_true, Bool.not_eq_true', Bool.true_and,
      decide_eq_true_eq] at h
    split at h
    · next hr =>
      cases h
      exact .stop w hw hq hr
    · next hr =>
      split at h <;> cases h
      next ht => exact .shrink w hw hq (Bool.not_eq_false _ ▸ hr) ht
  | cons job queue =>
    simp only [hq, List.isEmpty_cons, Bool.and_false, Bool.false_and, Bool.false_eq_true,
      if_false] at h
    cases h
    exact .take w job queue hw hq

private theorem not_blocked_of_any (h : ¬ s.workers.any WorkerPc.isBlocked = true) (v : Nat) :
    s.workers[v]? ≠ some .blocked :=
  fun hv ↦ h (List.any_eq_true.mpr ⟨_, List.mem_of_getElem? hv, rfl⟩)

private theorem exited_of_all (h : s.workers.all WorkerPc.isExited = true) (w : Nat)
    (pc : WorkerPc τ) (hw : s.workers[w]? = some pc) : pc = .exited := by
  have hexited := List.all_eq_true.mp h pc (List.mem_of_getElem? hw)
  cases pc <;> first | rfl | cases hexited

/-- Every step is one of these. -/
theorem step_of_eq_some (h : (system cfg).step s a = some s') : Step cfg s a s' := by
  cases a with
  | call p task =>
    simp only [system, step] at h
    split at h <;> cases h
    next hp => exact .call p task hp
  | submit p =>
    simp only [system, step] at h
    split at h <;> cases h
    next task hm hp => exact step_submit hm hp
  | notifyOne p w =>
    simp only [system, step] at h
    split at h
    · next pc hp hw =>
      cases h
      exact .woken p w pc hp hw
    · next pc hp hw =>
      split at h <;> cases h
      next hnone => exact .lost p w pc hp (not_blocked_of_any hnone)
    · cases h
  | addThreads count =>
    simp only [system, step] at h
    split at h <;> cases h
    next hm => exact .addThreads count hm
  | removeThreads p count =>
    simp only [system, step] at h
    split at h <;> cases h
    next hm hp => exact .removeThreads p count hm hp
  | loopTest w =>
    simp only [system, step] at h
    split at h <;> cases h
    next hw =>
      split
      · next hr => exact .enter w hw hr
      · next hr => exact .leave w hw (Bool.eq_false_iff.mpr hr)
  | lock w =>
    simp only [system, step] at h
    split at h <;> cases h
    · next hm hw => exact .lock w hm (.inl hw)
    · next hm hw => exact .lock w hm (.inr hw)
  | test w =>
    simp only [system, step] at h
    split at h <;> cases h
    next hw =>
      split
      · next hp => exact .pass w hw hp
      · next hp => exact .fail w hw (Bool.eq_false_iff.mpr hp)
  | block w =>
    simp only [system, step] at h
    split at h <;> cases h
    next hw => exact .block w hw
  | wake w =>
    simp only [system, step] at h
    split at h <;> cases h
    next hw => exact .wake w hw
  | take w =>
    simp only [system, step] at h
    split at h
    · next hw => exact step_take hw h
    · cases h
  | begin w =>
    simp only [system, step] at h
    split at h <;> cases h
    next job hw => exact .begin w job hw
  | finish w outcome =>
    simp only [system, step] at h
    split at h <;> cases h
    next job hw => cases outcome <;> exact .finish w _ job hw
  | clear =>
    simp only [system, step] at h
    split at h <;> cases h
    next hd => exact .clear hd
  | notifyAll =>
    simp only [system, step] at h
    split at h <;> cases h
    next hd => exact .notifyAll hd
  | join =>
    simp only [system, step] at h
    split at h
    · next hd =>
      split at h <;> cases h
      next hw => exact .join hd (exited_of_all hw)
    · cases h

/-! ### Where the workers are after a step -/

variable {w v : Nat} {pc pc' : WorkerPc τ}

/-- A worker that goes on leaves the others where they are. -/
theorem of_setWorker (h : (s.setWorker w pc).workers[v]? = some pc') :
    v = w ∧ pc' = pc ∨ v ≠ w ∧ s.workers[v]? = some pc' := by
  simp only [setWorker, List.getElem?_set] at h
  split at h
  · next hvw =>
    split at h
    · cases h
      exact .inl ⟨hvw.symm, rfl⟩
    · cases h
  · next hvw => exact .inr ⟨Ne.symm hvw, h⟩

/-- Added threads are before their loop. -/
theorem of_addThreads {count : Nat} (h : (s.addThreads count).workers[v]? = some pc) :
    pc = .outer ∨ s.workers[v]? = some pc := by
  simp only [addThreads, List.getElem?_append] at h
  split at h
  · exact .inr h
  · rw [List.getElem?_replicate] at h
    split at h
    · cases h
      exact .inl rfl
    · cases h

/-- What holds of every worker and of the place one of them goes on to. -/
theorem forall_setWorker {P : WorkerPc τ → Prop} (h : ∀ x ∈ s.workers, P x) (hpc : P pc) :
    ∀ x ∈ (s.setWorker w pc).workers, P x := by
  intro x hx
  rcases List.mem_or_eq_of_mem_set hx with hx | rfl
  · exact h x hx
  · exact hpc

/-- What holds of every worker and of a new one. -/
theorem forall_addThreads {P : WorkerPc τ → Prop} {count : Nat} (h : ∀ x ∈ s.workers, P x)
    (houter : P .outer) : ∀ x ∈ (s.addThreads count).workers, P x := by
  intro x hx
  rcases List.mem_append.mp hx with hx | hx
  · exact h x hx
  · rw [List.eq_of_mem_replicate hx]
    exact houter

/-- A worker that goes on is still one of the workers. -/
theorem mem_setWorker (hw : s.workers[w]? = some pc') : pc ∈ (s.setWorker w pc).workers :=
  List.mem_set (List.getElem?_eq_some_iff.mp hw).1 pc

/-- A notification does not change who has the mutex. -/
@[simp] theorem holdsMutex_notify : pc.notify.holdsMutex = pc.holdsMutex := by
  cases pc <;> rfl

/-! ### The mutex -/

/-- Only the worker that owns the mutex is at a place where it is held. -/
def MutexOk (s : ThreadPool τ) : Prop :=
  ∀ w pc, s.workers[w]? = some pc → pc.holdsMutex = true → s.queueMutex = some w

/-- Nobody is inside the wait or past it while the mutex is free. -/
theorem MutexOk.not_holds (h : MutexOk s) (hm : s.queueMutex = none)
    (hw : s.workers[w]? = some pc) : pc.holdsMutex = false := by
  refine Bool.eq_false_iff.mpr fun hpc ↦ ?_
  cases hm.symm.trans (h w pc hw hpc)

/-- A worker with the mutex is the only one that has it. -/
theorem MutexOk.unique (h : MutexOk s) (hw : s.workers[w]? = some pc)
    (hpc : pc.holdsMutex = true) (hv : s.workers[v]? = some pc') (hpc' : pc'.holdsMutex = true) :
    v = w :=
  Option.some.inj ((h v pc' hv hpc').symm.trans (h w pc hw hpc))

/-- A worker that goes on without the mutex may keep it from nobody. -/
private theorem MutexOk.setWorker (h : MutexOk s) (hpc : pc.holdsMutex = false) :
    MutexOk (s.setWorker w pc) := by
  intro v pc' hv hholds
  rcases of_setWorker hv with ⟨-, rfl⟩ | ⟨-, hv⟩
  · cases hpc.symm.trans hholds
  · exact h v pc' hv hholds

/-- A worker that has the mutex may go on with it. -/
private theorem MutexOk.setWorker_of_holds (h : MutexOk s) (hw : s.workers[w]? = some pc)
    (hpc : pc.holdsMutex = true) : MutexOk (s.setWorker w pc') := by
  intro v pc'' hv hholds
  rcases of_setWorker hv with ⟨rfl, -⟩ | ⟨-, hv⟩
  · exact h v pc hw hpc
  · exact h v pc'' hv hholds

/-- A worker that had the mutex releases it. -/
private theorem MutexOk.release (h : MutexOk s) (hw : s.workers[w]? = some pc)
    (hpc : pc.holdsMutex = true) (hpc' : pc'.holdsMutex = false) :
    MutexOk { s.setWorker w pc' with queueMutex := none } := by
  intro v pc'' hv hholds
  rcases of_setWorker hv with ⟨-, rfl⟩ | ⟨hne, hv⟩
  · cases hpc'.symm.trans hholds
  · exact absurd (h.unique hw hpc hv hholds) hne

theorem mutexOk_init : MutexOk (init cfg : ThreadPool τ) := by
  intro w pc hw hpc
  have houter := List.eq_of_mem_replicate (List.mem_of_getElem? hw)
  subst houter
  cases hpc

/-- Each step keeps the mutex with one worker. -/
theorem MutexOk.step (h : MutexOk s) (hs : Step cfg s a s') : MutexOk s' := by
  cases hs with
  | call | submitWaits | submitted | lost | removeThreads | clear | join => exact h
  | woken p w pc hp hw => exact MutexOk.setWorker (s := s.setCaller p pc) h rfl
  | addThreads count hm =>
    intro v pc hv hpc
    rcases of_addThreads hv with rfl | hv
    · cases hpc
    · exact h v pc hv hpc
  | enter | leave | wake | begin | finish => exact h.setWorker rfl
  | lock w hm hw =>
    intro v pc hv hpc
    rcases of_setWorker hv with ⟨rfl, -⟩ | ⟨-, hv⟩
    · rfl
    · cases (h.not_holds hm hv).symm.trans hpc
  | pass w hw | fail w hw => exact h.setWorker_of_holds hw rfl
  | block w hw | stop w hw | shrink w hw | take w job queue hw => exact h.release hw rfl rfl
  | notifyAll hd =>
    intro v pc hv hpc
    rw [List.getElem?_map, Option.map_eq_some_iff] at hv
    obtain ⟨pc', hv, rfl⟩ := hv
    exact h v pc' hv (holdsMutex_notify.symm.trans hpc)

/-- In every run only the owner of the mutex is at a place where it is held. -/
theorem mutexOk_of_reachable (h : (system cfg).Reachable s) : MutexOk s :=
  h.invariant mutexOk_init fun _ _ _ hi _ hs ↦ hi.step (step_of_eq_some hs)

/-! ### The flag -/

/-- Once the destructor began the pool is not running. -/
def ClearedOk (s : ThreadPool τ) : Prop := s.destructor ≠ .alive → s.isRunning = false

theorem clearedOk_init : ClearedOk (init cfg : ThreadPool τ) := fun h ↦ absurd rfl h

/-- Nothing sets the flag again. -/
theorem ClearedOk.step (h : ClearedOk s) (hs : Step cfg s a s') : ClearedOk s' := by
  cases hs with
  | clear => exact fun _ ↦ rfl
  | notifyAll hd => exact fun _ ↦ h (hd ▸ nofun)
  | join hd => exact fun _ ↦ h (hd ▸ nofun)
  | _ => exact h

/-- In every run the pool is not running once the destructor began. -/
theorem clearedOk_of_reachable (h : (system cfg).Reachable s) : ClearedOk s :=
  h.invariant clearedOk_init fun _ _ _ hi _ hs ↦ hi.step (step_of_eq_some hs)

end ThreadPool

end OctopusIpc.Pool

import OctopusIpc.Pool.ThreadPool

/-!
# The front of the queue

The pool calls `front()` and `pop_front()` in two places: a worker that is past its wait and
past both exits behind it, and a submission that drops the oldest task of a full queue. The
wait and the exits look at three conditions. Two of them change under the mutex only, which
the worker has had since its test, and the third, `is_running_`, is only ever cleared.
-/

namespace OctopusIpc.Pool.ThreadPool

variable {τ : Type} {cfg : Config} {s s' : ThreadPool τ} {a : Action τ} {w : Nat}

/-- The first exit behind the wait; `src/IPC/octopus_ipc_threadpool.cpp:189`. -/
def exitsOnShutdown (s : ThreadPool τ) : Bool := !s.isRunning && s.taskQueue.isEmpty

/-- The second exit, which does not look at `is_running_` again;
`src/IPC/octopus_ipc_threadpool.cpp:195`. -/
def exitsOnShrink (s : ThreadPool τ) : Bool :=
  s.taskQueue.isEmpty && decide (0 < s.threadsToTerminate)

/-- A worker whose wait has returned goes on to `front()` and `pop_front()`;
`src/IPC/octopus_ipc_threadpool.cpp:203–204`. -/
def TakesFront (s : ThreadPool τ) (w : Nat) : Prop :=
  s.workers[w]? = some .checking ∧ s.exitsOnShutdown = false ∧ s.exitsOnShrink = false

/-- The next critical section of a submission goes on to `pop_front()`;
`src/IPC/octopus_ipc_threadpool.cpp:78–82,139–143`. -/
def DropsFront (cfg : Config) (s : ThreadPool τ) (p : Nat) : Prop :=
  s.queueMutex = none ∧ cfg.strategy = .dropOldest ∧ cfg.maxQueueSize ≤ s.taskQueue.length ∧
    ∃ task, s.callers p = .submitting task ∧ ∀ t, task ≠ .packaged t

/-- For a worker past its wait the predicate still holds. -/
def CheckedOk (s : ThreadPool τ) : Prop :=
  ∀ w : Nat, s.workers[w]? = some .checking → s.waitPredicate = true

theorem checkedOk_init : CheckedOk (init cfg : ThreadPool τ) := by
  intro w hw
  cases List.eq_of_mem_replicate (List.mem_of_getElem? hw)

/-- A worker that goes on to another place leaves the predicate as it is. -/
private theorem CheckedOk.setWorker (h : CheckedOk s) {pc : WorkerPc τ} (hpc : pc ≠ .checking) :
    CheckedOk (s.setWorker w pc) := by
  intro v hv
  rcases of_setWorker hv with ⟨-, hv⟩ | ⟨-, hv⟩
  · exact absurd hv.symm hpc
  · exact h v hv

/-- While the mutex is free nobody is past the wait. -/
private theorem MutexOk.checkedOk (h : MutexOk s) (hm : s.queueMutex = none) : CheckedOk s := by
  intro v hv
  cases h.not_holds hm hv

/-- The predicate changes under the mutex, which a worker past its wait has, or becomes true. -/
theorem CheckedOk.step (h : CheckedOk s) (hm : MutexOk s) (hs : Step cfg s a s') :
    CheckedOk s' := by
  have hm' : MutexOk s' := hm.step hs
  cases hs with
  | call | submitWaits | lost | join => exact h
  | submitted p task queue notify hfree => exact hm'.checkedOk hfree
  | removeThreads p count hfree => exact hm'.checkedOk hfree
  | addThreads count hfree => exact hm'.checkedOk hfree
  | woken | enter | leave | fail | wake | begin | finish | lock => exact h.setWorker nofun
  | pass w hw hp => exact fun _ _ ↦ hp
  | block | stop | shrink | take => exact hm'.checkedOk rfl
  | clear hd =>
    intro v _
    simp only [waitPredicate, Bool.not_false, Bool.or_true, Bool.true_or]
  | notifyAll hd =>
    intro v hv
    rw [List.getElem?_map, Option.map_eq_some_iff] at hv
    obtain ⟨pc, hv, hpc⟩ := hv
    cases pc <;> first | exact h v hv | cases hpc

/-- In every run the predicate holds for the workers past their wait. -/
theorem checkedOk_of_reachable (h : (system cfg).Reachable s) : CheckedOk s :=
  h.invariant_of_reachable checkedOk_init fun _ _ _ hr hi _ hs ↦
    hi.step (mutexOk_of_reachable hr) (step_of_eq_some hs)

/-- Past both exits the predicate can only hold for a task in the queue. -/
theorem CheckedOk.taskQueue_ne_nil (h : CheckedOk s) (hw : s.TakesFront w) : s.taskQueue ≠ [] := by
  obtain ⟨hchecking, hshutdown, hshrink⟩ := hw
  have hpred := h w hchecking
  intro hq
  simp only [exitsOnShutdown, exitsOnShrink, waitPredicate, hq, List.isEmpty_nil, Bool.and_true,
    Bool.true_and, Bool.not_true, Bool.false_or] at hshutdown hshrink hpred
  rw [hshutdown, hshrink] at hpred
  cases hpred

/-- A worker past its wait always has a step. -/
theorem exists_take_of_checking (h : (system cfg).Reachable s)
    (hw : s.workers[w]? = some .checking) : ∃ s', (system cfg).step s (.take w) = some s' := by
  have htake : (system cfg).step s (.take w) = s.take w := by
    simp only [system, step, hw]
  rw [htake, ThreadPool.take]
  split
  · exact ⟨_, rfl⟩
  split
  · exact ⟨_, rfl⟩
  · next hshutdown hshrink =>
    have hne := (checkedOk_of_reachable h).taskQueue_ne_nil
      ⟨hw, Bool.eq_false_iff.mpr hshutdown, Bool.eq_false_iff.mpr hshrink⟩
    cases hq : s.taskQueue with
    | nil => exact absurd hq hne
    | cons job queue => exact ⟨_, rfl⟩

/-- In every run a worker takes from a queue with a task in it, and where the queue may hold a
task at all a submission drops one from a queue with a task in it. -/
theorem taskQueue_ne_nil_of_front (h : (system cfg).Reachable s) :
    (∀ w, s.TakesFront w → s.taskQueue ≠ []) ∧
      (1 ≤ cfg.maxQueueSize → ∀ p, s.DropsFront cfg p → s.taskQueue ≠ []) := by
  refine ⟨fun w hw ↦ (checkedOk_of_reachable h).taskQueue_ne_nil hw, ?_⟩
  rintro hmax p ⟨-, -, hfull, -⟩ hq
  rw [hq, List.length_nil] at hfull
  omega

/-- The destructor clears the flag between a worker's test, which a task let it pass, and its
exits. -/
def clearedPastWait : List (Action Nat) :=
  [.call 0 (.plain 7), .submit 0, .notifyOne 0 0, .loopTest 0, .lock 0, .test 0, .clear]

theorem taskQueue_ne_nil_clearedPastWait :
    ∃ s : ThreadPool Nat, (system ⟨1, 1, .dropOldest⟩).Reachable s ∧ s.isRunning = false ∧
      s.TakesFront 0 ∧ s.taskQueue ≠ [] := by
  have hrun : ∃ s, (system ⟨1, 1, .dropOldest⟩).run (fun _ _ ↦ True) (init ⟨1, 1, .dropOldest⟩)
      clearedPastWait = some s ∧ s.isRunning = false ∧ s.TakesFront 0 :=
    ⟨_, rfl, rfl, rfl, rfl, rfl⟩
  obtain ⟨s, hs, hr, hfront⟩ := hrun
  have hreach : (system ⟨1, 1, .dropOldest⟩).Reachable s := StepSystem.reachableUnder_of_run hs
  exact ⟨s, hreach, hr, hfront, (taskQueue_ne_nil_of_front hreach).1 0 hfront⟩

end OctopusIpc.Pool.ThreadPool

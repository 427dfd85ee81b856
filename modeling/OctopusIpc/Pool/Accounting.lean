import OctopusIpc.Pool.Shutdown

/-!
# The counters of the thread pool

`active_thread_count_` is set by the constructor, raised by `add_threads` and lowered by a
worker that consumes a request to terminate. While the pool runs this is the only exit from
`worker_loop`, so the counter is the number of workers that are still in it.
-/

namespace OctopusIpc.Pool

variable {τ : Type}

/-- Its thread has not returned. -/
def WorkerPc.isLive (pc : WorkerPc τ) : Bool := !pc.isExited

namespace ThreadPool

variable {cfg : Config} {s s' : ThreadPool τ} {a : Action τ} {w : Nat} {pc pc' : WorkerPc τ}

/-- The workers whose `worker_loop` has not returned. -/
def liveWorkers (s : ThreadPool τ) : Nat := s.workers.countP WorkerPc.isLive

/-- While the pool runs its counter is the number of its live workers. -/
def CountOk (s : ThreadPool τ) : Prop := s.isRunning = true → s.activeThreadCount = s.liveWorkers

theorem countOk_init : CountOk (init cfg : ThreadPool τ) := by
  intro _
  rw [liveWorkers, init, List.countP_replicate]
  rfl

/-- A worker that goes on inside its loop is as live as before. -/
theorem liveWorkers_setWorker (hw : s.workers[w]? = some pc) (hpc : pc.isLive = true)
    (hpc' : pc'.isLive = true) : (s.setWorker w pc').liveWorkers = s.liveWorkers :=
  countP_setWorker_of_eq hw (hpc'.trans hpc.symm)

/-- A worker that returns is one live worker less. -/
theorem liveWorkers_exit (hw : s.workers[w]? = some pc) (hpc : pc.isLive = true) :
    (s.setWorker w .exited).liveWorkers + 1 = s.liveWorkers := by
  have hcount : (s.setWorker w .exited).workers.countP WorkerPc.isLive + pc.isLive.toNat =
      s.workers.countP WorkerPc.isLive + 0 := countP_setWorker hw WorkerPc.isLive
  rw [hpc] at hcount
  exact hcount

/-- Added threads are live. -/
theorem liveWorkers_addThreads (s : ThreadPool τ) (count : Nat) :
    (s.addThreads count).liveWorkers = s.liveWorkers + count := by
  rw [liveWorkers, addThreads, List.countP_append, List.countP_replicate]
  rfl

/-- A notification ends no worker. -/
theorem isLive_notify (x : WorkerPc τ) : x.notify.isLive = x.isLive := by
  cases x <;> rfl

private theorem CountOk.setWorker (h : CountOk s) (hw : s.workers[w]? = some pc)
    (hpc : pc.isLive = true) (hpc' : pc'.isLive = true) : CountOk (s.setWorker w pc') := by
  intro hr
  rw [liveWorkers_setWorker hw hpc hpc']
  exact h hr

/-- Each step of a running pool counts the exits it brings about. -/
theorem CountOk.step (h : CountOk s) (hs : Step cfg s a s') : CountOk s' := by
  cases hs with
  | call | submitWaits | submitted | lost | removeThreads | join => exact h
  | woken p w pc hp hw => exact CountOk.setWorker (s := s.setCaller p pc) h hw rfl rfl
  | addThreads count hm =>
    intro hr
    rw [liveWorkers_addThreads]
    exact congrArg (· + count) (h hr)
  | enter w hw | pass w hw | fail w hw | block w hw | wake w hw | begin w job hw =>
    exact h.setWorker hw rfl rfl
  | take w job queue hw | finish w outcome job hw => exact h.setWorker hw rfl rfl
  | lock w hm hw =>
    rcases hw with hw | hw
    · exact h.setWorker hw rfl rfl
    · exact h.setWorker hw rfl rfl
  | leave w hw hr | stop w hw hq hr => exact fun hr' ↦ absurd hr' (hr ▸ nofun)
  | shrink w hw hq hr ht =>
    intro _
    have hexit := liveWorkers_exit hw rfl
    have hlive : (s.setWorker w .exited).liveWorkers = decrement s.activeThreadCount := by
      rw [h hr, ← hexit]
      rfl
    exact hlive.symm
  | clear => exact fun hr' ↦ absurd hr' nofun
  | notifyAll =>
    intro hr
    rw [liveWorkers, countP_notifyAll isLive_notify]
    exact h hr

/-- In every run of the pool the counter is right while the pool runs. -/
theorem countOk_of_reachable (h : (system cfg).Reachable s) : CountOk s :=
  h.invariant countOk_init fun _ _ _ hi _ hs ↦ hi.step (step_of_eq_some hs)

/-! ### The counters over one step -/

/-- What a step does to the two counters: threads are added, removals are requested, a worker
consumes one request and returns, or nothing changes. The subtractions are stated as sums, so
that they hold only of a counter above zero. -/
def CounterStep (s : ThreadPool τ) : Action τ → ThreadPool τ → Prop
  | .addThreads count, s' =>
    s'.activeThreadCount = s.activeThreadCount + count ∧
      s'.threadsToTerminate = s.threadsToTerminate
  | .removeThreads _ count, s' =>
    s'.activeThreadCount = s.activeThreadCount ∧
      s'.threadsToTerminate = (s.threadsToTerminate + min count s.activeThreadCount) % 2 ^ 64
  | .take _, s' =>
    s'.activeThreadCount = s.activeThreadCount ∧ s'.threadsToTerminate = s.threadsToTerminate ∨
      s'.activeThreadCount + 1 = s.activeThreadCount ∧
        s'.threadsToTerminate + 1 = s.threadsToTerminate ∧ s'.liveWorkers + 1 = s.liveWorkers
  | _, s' =>
    s'.activeThreadCount = s.activeThreadCount ∧ s'.threadsToTerminate = s.threadsToTerminate

/-- Above zero a decrement does not wrap round. -/
theorem decrement_add_one {n : Nat} (h : 0 < n) : decrement n + 1 = n := by
  cases n with
  | zero => cases h
  | succ n => rfl

/-- A request is consumed only when there is one, by a worker that is counted. -/
theorem counterStep_of_step (h : CountOk s) (hs : Step cfg s a s') : CounterStep s a s' := by
  cases hs with
  | removeThreads p count hm hp =>
    have hmin : (if s.activeThreadCount < count then s.activeThreadCount else count) =
        min count s.activeThreadCount := by
      split <;> omega
    exact ⟨rfl, by rw [removeThreads, hmin]⟩
  | shrink w hw hq hr ht =>
    have hexit := liveWorkers_exit hw rfl
    have hactive : 0 < s.activeThreadCount := by
      rw [h hr, ← hexit]
      exact Nat.succ_pos _
    exact .inr ⟨decrement_add_one hactive, decrement_add_one ht, hexit⟩
  | stop | take => exact .inl ⟨rfl, rfl⟩
  | _ => exact ⟨rfl, rfl⟩

/-- However a task ends, its worker goes round the loop. -/
theorem finish_of_executing {job : Job τ} (hw : s.workers[w]? = some (.executing job))
    (outcome : TaskOutcome) :
    ∃ s', (system cfg).step s (.finish w outcome) = some s' ∧
      s'.workers = s.workers.set w .outer ∧ s'.liveWorkers = s.liveWorkers := by
  refine ⟨{ s.setWorker w outcome.next with executed := s.executed ++ [job] }, ?_, ?_, ?_⟩
  · simp only [system, ThreadPool.step, hw]
  · cases outcome <;> rfl
  · have hlive : (outcome.next : WorkerPc τ).isLive = true := by cases outcome <;> rfl
    exact liveWorkers_setWorker hw rfl hlive

/-- In every run the counter of a running pool is the number of workers in their loop, no
step lets a counter wrap round at zero, and no outcome of a task ends a worker. -/
theorem accounting_of_reachable (h : (system cfg).Reachable s) :
    (s.isRunning = true → s.activeThreadCount = s.liveWorkers) ∧
      (∀ a s', (system cfg).step s a = some s' → CounterStep s a s') ∧
      ∀ (w : Nat) job outcome, s.workers[w]? = some (.executing job) →
        ∃ s', (system cfg).step s (.finish w outcome) = some s' ∧
          s'.workers = s.workers.set w .outer ∧ s'.liveWorkers = s.liveWorkers :=
  have hcount := countOk_of_reachable h
  ⟨hcount, fun _ _ hs ↦ counterStep_of_step hcount (step_of_eq_some hs),
    fun _ _ outcome hw ↦ finish_of_executing hw outcome⟩

/-- One of two workers is told to go and goes, while the other is inside a task. -/
def shrunkByOne : List (Action Nat) :=
  [.call 0 (.plain 7), .submit 0, .loopTest 1, .lock 1, .test 1, .take 1, .begin 1,
    .removeThreads 3 5, .loopTest 0, .lock 0, .test 0, .take 0]

theorem accounting_shrunkByOne :
    ∃ s : ThreadPool Nat, (system ⟨2, 4, .block⟩).Reachable s ∧
      s.threadsToTerminate = 1 ∧ s.activeThreadCount = s.liveWorkers ∧
      ∃ s', (system ⟨2, 4, .block⟩).step s (.finish 1 .threwUnknown) = some s' ∧
        s'.workers = [.exited, .outer] ∧ s'.liveWorkers = s.liveWorkers := by
  have hrun : ∃ s, (system ⟨2, 4, .block⟩).run (fun _ _ ↦ True) (init ⟨2, 4, .block⟩)
      shrunkByOne = some s ∧ s.isRunning = true ∧ s.threadsToTerminate = 1 ∧
      s.workers = [.exited, .executing ⟨0, .plain 7⟩] :=
    ⟨_, rfl, rfl, rfl, rfl⟩
  obtain ⟨s, hs, hr, ht, hw⟩ := hrun
  have hreach : (system ⟨2, 4, .block⟩).Reachable s := StepSystem.reachableUnder_of_run hs
  obtain ⟨hcount, -, hfinish⟩ := accounting_of_reachable hreach
  obtain ⟨s', hs', hw', hlive⟩ := hfinish 1 ⟨0, .plain 7⟩ .threwUnknown (hw ▸ rfl)
  exact ⟨s, hreach, ht, hcount hr, s', hs', by rw [hw', hw]; rfl, hlive⟩

end ThreadPool

end OctopusIpc.Pool

import OctopusIpc.Pool.Accounting

/-!
# The health check of the thread pool

The pool together with a clock and any number of threads that call `health_check`. It is the
only caller of `add_threads` and `remove_threads`, which are private. A check compares
`active_thread_count_` with two, and that counter falls only when an idle worker consumes a
request, so requests that no worker has consumed yet are left out of the comparison.
-/

namespace OctopusIpc.Pool

/-- Where a thread is in `health_check`. -/
inductive CheckPc where
  | idle
  /-- With the time it read, before the test of `last_check`. -/
  | testing (now : Nat)
  /-- Past the test, before it stores the time in `last_check`. -/
  | stamping (now : Nat)
  /-- Before the exchange of `is_scaling_`. -/
  | exchanging
  /-- Before it reads the size of the queue. -/
  | measuring
  /-- With the size of the queue, before it reads `active_thread_count_`. -/
  | deciding (queueSize : Nat)
  /-- Before `add_threads(2)`. -/
  | adding
  /-- Before `remove_threads(1)`. -/
  | removing
  /-- Before `is_scaling_` is cleared. -/
  | releasing
  deriving DecidableEq, Repr

/-- The pool, the clock in nanoseconds, the function's static `last_check`, which its first
call sets, the flag and the threads that check. -/
structure CheckedPool (τ : Type) where
  pool : ThreadPool τ
  now : Nat
  lastCheck : Option Nat
  isScaling : Bool
  checks : Nat → CheckPc

/-- The steps of the pool and of its checks. -/
inductive CheckAction (τ : Type) where
  /-- Anything else in the pool. -/
  | pool (a : Action τ)
  | tick (nanoseconds : Nat)
  /-- A thread calls `health_check` and reads the clock;
  `src/IPC/octopus_ipc_threadpool.cpp:225–226`. -/
  | check (p : Nat)
  /-- `src/IPC/octopus_ipc_threadpool.cpp:228–231`. -/
  | testTime (p : Nat)
  /-- `src/IPC/octopus_ipc_threadpool.cpp:233`. -/
  | stamp (p : Nat)
  /-- `src/IPC/octopus_ipc_threadpool.cpp:235–238`. -/
  | exchange (p : Nat)
  /-- `src/IPC/octopus_ipc_threadpool.cpp:240`. -/
  | measure (p : Nat)
  /-- `src/IPC/octopus_ipc_threadpool.cpp:246–252`. -/
  | decide (p : Nat)
  /-- The critical section of `add_threads` or of `remove_threads`. -/
  | scale (p : Nat)
  /-- `src/IPC/octopus_ipc_threadpool.cpp:259`. -/
  | release (p : Nat)

variable {τ : Type}

namespace CheckedPool

variable (cfg : Config)

/-- The pool before its first check. -/
def init : CheckedPool τ where
  pool := ThreadPool.init cfg
  now := 0
  lastCheck := none
  isScaling := false
  checks _ := .idle

/-- A check goes on to another place. -/
def setCheck (s : CheckedPool τ) (p : Nat) (pc : CheckPc) : CheckedPool τ :=
  { s with checks := Function.update s.checks p pc }

/-- Threads are added and removed by checks only, and a thread inside a check does not
submit. -/
def allows (s : CheckedPool τ) : Action τ → Bool
  | .addThreads _ => false
  | .removeThreads _ _ => false
  | .call p _ => s.checks p == .idle
  | _ => true

/-- The first call sets the static variable, each reads the clock. -/
def check (s : CheckedPool τ) (p : Nat) : CheckedPool τ :=
  { s.setCheck p (.testing s.now) with lastCheck := some (s.lastCheck.getD s.now) }

/-- The test of the time. The static variable is not guarded: between the test and the store
other threads may test and store, and a time before the stored one is too early as well. -/
def testTime (s : CheckedPool τ) (p now : Nat) : CheckedPool τ :=
  s.setCheck p
    (if (now - s.lastCheck.getD now) / 1000000000 < 600 then .idle else .stamping now)

/-- What the check does about a queue of this size. The source compares the size with
`max_queue_size_ * 0.8` as doubles, which is the same for sizes below `2 ^ 50`. -/
def verdict (s : CheckedPool τ) (queueSize : Nat) : CheckPc :=
  if 4 * cfg.maxQueueSize < 5 * queueSize then .adding
  else if queueSize = 0 ∧ 2 < s.pool.activeThreadCount then .removing
  else .releasing

/-- What each step does in a state in which it can be taken. -/
def step (s : CheckedPool τ) : CheckAction τ → Option (CheckedPool τ)
  | .pool a =>
    if s.allows a then (ThreadPool.step cfg s.pool a).map fun pool ↦ { s with pool := pool }
    else none
  | .tick nanoseconds => some { s with now := s.now + nanoseconds }
  | .check p =>
    match s.checks p, s.pool.callers p with
    | .idle, .idle => some (s.check p)
    | _, _ => none
  | .testTime p =>
    match s.checks p with
    | .testing now => some (s.testTime p now)
    | _ => none
  | .stamp p =>
    match s.checks p with
    | .stamping now => some { s.setCheck p .exchanging with lastCheck := some now }
    | _ => none
  | .exchange p =>
    match s.checks p with
    | .exchanging =>
      some { s.setCheck p (if s.isScaling then .idle else .measuring) with isScaling := true }
    | _ => none
  | .measure p =>
    match s.pool.queueMutex, s.checks p with
    | none, .measuring => some (s.setCheck p (.deciding s.pool.taskQueue.length))
    | _, _ => none
  | .decide p =>
    match s.checks p with
    | .deciding queueSize => some (s.setCheck p (s.verdict cfg queueSize))
    | _ => none
  | .scale p =>
    match s.checks p with
    | .adding => (ThreadPool.step cfg s.pool (.addThreads 2)).map fun pool ↦
        { s.setCheck p .releasing with pool := pool }
    | .removing => (ThreadPool.step cfg s.pool (.removeThreads p 1)).map fun pool ↦
        { s.setCheck p .releasing with pool := pool }
    | _ => none
  | .release p =>
    -- The notification of `remove_threads` comes before.
    match s.checks p, s.pool.callers p with
    | .releasing, .idle => some { s.setCheck p .idle with isScaling := false }
    | _, _ => none

/-- The pool and its checks as a transition system. -/
def system : StepSystem (CheckedPool τ) (CheckAction τ) where
  init := init cfg
  step := step cfg

variable {cfg} {s s' : CheckedPool τ} {a : CheckAction τ}

/-! ### What a step does to the pool -/

/-- The pool's part of a step: none, one that the pool may take by itself, or a scaling. -/
inductive PoolStep (cfg : Config) (s : CheckedPool τ) : CheckAction τ → ThreadPool τ → Prop
  | stay (a : CheckAction τ) (pool : ThreadPool τ) (hpool : pool = s.pool) : PoolStep cfg s a pool
  | own (a : Action τ) (pool : ThreadPool τ) (ha : s.allows a = true)
      (hs : (ThreadPool.system cfg).step s.pool a = some pool) : PoolStep cfg s (.pool a) pool
  | grow (p : Nat) (pool : ThreadPool τ) (hp : s.checks p = .adding)
      (hs : (ThreadPool.system cfg).step s.pool (.addThreads 2) = some pool) :
      PoolStep cfg s (.scale p) pool
  | shrink (p : Nat) (pool : ThreadPool τ) (hp : s.checks p = .removing)
      (hs : (ThreadPool.system cfg).step s.pool (.removeThreads p 1) = some pool) :
      PoolStep cfg s (.scale p) pool

/-- Every step is one of these for the pool. -/
theorem poolStep_of_eq_some (h : (system cfg).step s a = some s') : PoolStep cfg s a s'.pool := by
  cases a with
  | pool a =>
    simp only [system, step, Option.ite_none_right_eq_some, Option.map_eq_some_iff] at h
    obtain ⟨ha, pool, hs, rfl⟩ := h
    exact .own a pool ha hs
  | tick nanoseconds =>
    cases h
    exact .stay _ _ rfl
  | check p | testTime p | stamp p | exchange p | measure p | decide p | release p =>
    simp only [system, step] at h
    split at h <;> cases h
    exact .stay _ _ rfl
  | scale p =>
    simp only [system, step] at h
    split at h
    · next hp =>
      obtain ⟨pool, hs, rfl⟩ := Option.map_eq_some_iff.mp h
      exact .grow p pool hp hs
    · next hp =>
      obtain ⟨pool, hs, rfl⟩ := Option.map_eq_some_iff.mp h
      exact .shrink p pool hp hs
    · cases h

/-- Seen without its checks the pool runs as it does anywhere. -/
theorem reachable_pool {G : CheckedPool τ → CheckAction τ → Prop}
    (h : (system cfg).ReachableUnder G s) : (ThreadPool.system cfg).Reachable s.pool := by
  refine h.invariant (I := fun t ↦ (ThreadPool.system cfg).Reachable t.pool) ?_
    fun t a t' ht _ hs ↦ ?_
  · exact StepSystem.ReachableUnder.init (S := ThreadPool.system cfg)
  cases poolStep_of_eq_some hs with
  | stay _ _ hpool => exact hpool ▸ ht
  | own b pool ha hb => exact ht.step trivial hb
  | grow p pool hp hb => exact ht.step trivial hb
  | shrink p pool hp hb => exact ht.step trivial hb

/-! ### Two threads -/

/-- When the requested removals are done two threads are left. -/
def KeepsTwo (s : CheckedPool τ) : Prop :=
  s.pool.threadsToTerminate + 2 ≤ s.pool.activeThreadCount

instance (s : CheckedPool τ) : Decidable s.KeepsTwo := Nat.decLe ..

/-- A check requests a removal only of a thread that is above the two when the requests that
are still pending are counted. -/
def CountsPending (s : CheckedPool τ) : CheckAction τ → Prop
  | .scale p => s.checks p = .removing →
      s.pool.threadsToTerminate + 2 < s.pool.activeThreadCount
  | _ => True

instance (s : CheckedPool τ) : (a : CheckAction τ) → Decidable (s.CountsPending a)
  | .scale p => inferInstanceAs (Decidable (s.checks p = .removing → _ < _))
  | .pool _ | .tick _ | .check _ | .testTime _ | .stamp _ | .exchange _ | .measure _ | .decide _
  | .release _ =>
    inferInstanceAs (Decidable True)

/-- What the pool does by itself leaves the difference of the two counters as it is. -/
theorem keepsTwo_of_own {b : Action τ} {pool : ThreadPool τ} (h : s.KeepsTwo)
    (hb : s.allows b = true) (hc : s.pool.CounterStep b pool) :
    pool.threadsToTerminate + 2 ≤ pool.activeThreadCount := by
  have hkeep : s.pool.threadsToTerminate + 2 ≤ s.pool.activeThreadCount := h
  cases b with
  | addThreads | removeThreads => cases hb
  | take w =>
    rcases hc with ⟨hactive, hpending⟩ | ⟨hactive, hpending, -⟩
    · omega
    · omega
  | _ =>
    obtain ⟨hactive, hpending⟩ := hc
    omega

/-- A removal that the check requests is clamped to nothing only in an empty pool. -/
theorem threadsToTerminate_of_removal {p : Nat} {pool : ThreadPool τ}
    (hactive : 0 < s.pool.activeThreadCount) (hc : s.pool.CounterStep (.removeThreads p 1) pool) :
    pool.activeThreadCount = s.pool.activeThreadCount ∧
      pool.threadsToTerminate = (s.pool.threadsToTerminate + 1) % 2 ^ 64 := by
  obtain ⟨hsame, hpending⟩ := hc
  rw [Nat.min_eq_left hactive] at hpending
  exact ⟨hsame, hpending⟩

/-- A check that counts the pending requests leaves two threads. -/
theorem KeepsTwo.step (h : s.KeepsTwo) (hpool : s.pool.CountOk) (hg : s.CountsPending a)
    (hs : (system cfg).step s a = some s') : s'.KeepsTwo := by
  have hcounters {b : Action τ} {pool : ThreadPool τ}
      (hb : (ThreadPool.system cfg).step s.pool b = some pool) : s.pool.CounterStep b pool :=
    ThreadPool.counterStep_of_step hpool (ThreadPool.step_of_eq_some hb)
  have hkeep : s.pool.threadsToTerminate + 2 ≤ s.pool.activeThreadCount := h
  unfold KeepsTwo
  cases poolStep_of_eq_some hs with
  | stay _ _ hpool => exact hpool ▸ hkeep
  | own b pool ha hb => exact keepsTwo_of_own h ha (hcounters hb)
  | grow p pool hp hb =>
    obtain ⟨hactive, hpending⟩ := hcounters hb
    omega
  | shrink p pool hp hb =>
    obtain ⟨hactive, hpending⟩ := threadsToTerminate_of_removal (by omega) (hcounters hb)
    have hroom : s.pool.threadsToTerminate + 2 < s.pool.activeThreadCount := hg hp
    have hmod := Nat.mod_le (s.pool.threadsToTerminate + 1) (2 ^ 64)
    omega

/-- The condition is exact: the step in which a check requests a removal leaves two threads if
and only if it meets it. -/
theorem keepsTwo_iff_of_removal {p : Nat} (h : (system cfg).Reachable s)
    (hp : s.checks p = .removing) (hactive : 0 < s.pool.activeThreadCount)
    (hwrap : s.pool.threadsToTerminate + 1 < 2 ^ 64)
    (hs : (system cfg).step s (.scale p) = some s') :
    s'.KeepsTwo ↔ s.CountsPending (.scale p) := by
  have hcount := ThreadPool.countOk_of_reachable (reachable_pool h)
  have hguard : s.CountsPending (.scale p) ↔
      s.pool.threadsToTerminate + 2 < s.pool.activeThreadCount := forall_prop_of_true hp
  rw [hguard, KeepsTwo]
  generalize hpool' : s'.pool = pool'
  have hstep := poolStep_of_eq_some hs
  rw [hpool'] at hstep
  have hremoved : (ThreadPool.system cfg).step s.pool (.removeThreads p 1) = some pool' := by
    simp only [system, step, hp, Option.map_eq_some_iff] at hs
    obtain ⟨pool, hpool, rfl⟩ := hs
    exact hpool.trans (congrArg some hpool')
  obtain ⟨hsame, hpending⟩ := threadsToTerminate_of_removal hactive
    (ThreadPool.counterStep_of_step hcount (ThreadPool.step_of_eq_some hremoved))
  rw [Nat.mod_eq_of_lt hwrap] at hpending
  omega

/-- In every run whose checks count the pending requests the pool keeps two threads, and while
it runs two live workers. -/
theorem keepsTwo_of_reachable (hc : 2 ≤ cfg.threadCount)
    (h : (system cfg).ReachableUnder CountsPending s) :
    s.KeepsTwo ∧ (s.pool.isRunning = true → 2 ≤ s.pool.liveWorkers) := by
  have hkeeps : s.KeepsTwo := by
    refine h.invariant_of_reachable (I := KeepsTwo) ?_ fun t a t' ht hi hg hs ↦ ?_
    · have hinit : 0 + 2 ≤ cfg.threadCount := by omega
      exact hinit
    · exact hi.step (ThreadPool.countOk_of_reachable (reachable_pool ht)) hg hs
  refine ⟨hkeeps, fun hr ↦ ?_⟩
  have hcount := ThreadPool.countOk_of_reachable (reachable_pool h) hr
  have hdiff : s.pool.threadsToTerminate + 2 ≤ s.pool.activeThreadCount := hkeeps
  omega

/-- A worker takes a task and is inside it. -/
def occupy (w : Nat) : List (CheckAction Nat) :=
  [.pool (.call 0 (.plain w)), .pool (.submit 0), .pool (.notifyOne 0 0), .pool (.loopTest w),
    .pool (.lock w), .pool (.test w), .pool (.take w), .pool (.begin w)]

/-- A check ten minutes after the last one, with nobody to be notified. -/
def checkLater : List (CheckAction Nat) :=
  [.tick 600000000000, .check 9, .testTime 9, .stamp 9, .exchange 9, .measure 9, .decide 9,
    .scale 9, .pool (.notifyOne 9 0), .release 9]

/-- The first check sets the time and returns. -/
def firstCheck : List (CheckAction Nat) := [.check 9, .testTime 9]

/-- A worker returns from its task, finds a request and leaves. -/
def leave (w : Nat) : List (CheckAction Nat) :=
  [.pool (.finish w .returned), .pool (.loopTest w), .pool (.lock w), .pool (.test w),
    .pool (.take w)]

theorem keepsTwo_occupied :
    ∃ s : CheckedPool Nat, (system ⟨3, 4, .block⟩).ReachableUnder CountsPending s ∧
      s.pool.threadsToTerminate = 1 ∧ s.KeepsTwo := by
  have hrun : ∃ s, (system ⟨3, 4, .block⟩).run CountsPending (init ⟨3, 4, .block⟩)
      (occupy 0 ++ occupy 1 ++ occupy 2 ++ firstCheck ++ checkLater) = some s ∧
      s.pool.threadsToTerminate = 1 := ⟨_, rfl, rfl⟩
  obtain ⟨s, hs, hpending⟩ := hrun
  have hreach := StepSystem.reachableUnder_of_run hs
  exact ⟨s, hreach, hpending, (keepsTwo_of_reachable (by decide) hreach).1⟩

/-- Three workers are busy over three checks, each of which requests a removal, and no worker
is left when their tasks are done. -/
theorem not_keepsTwo_occupied :
    ∃ s : CheckedPool Nat, (system ⟨3, 4, .block⟩).Reachable s ∧ ¬ s.KeepsTwo ∧
      s.pool.isRunning = true ∧ s.pool.workers = [.exited, .exited, .exited] := by
  have hrun : ∃ s, (system ⟨3, 4, .block⟩).run (fun _ _ ↦ True) (init ⟨3, 4, .block⟩)
      (occupy 0 ++ occupy 1 ++ occupy 2 ++ firstCheck ++ checkLater ++ checkLater ++ checkLater ++
        leave 0 ++ leave 1 ++ leave 2) = some s ∧ s.pool.activeThreadCount = 0 ∧
      s.pool.isRunning = true ∧ s.pool.workers = [.exited, .exited, .exited] :=
    ⟨_, rfl, rfl, rfl, rfl⟩
  obtain ⟨s, hs, hactive, hr, hw⟩ := hrun
  refine ⟨s, StepSystem.reachableUnder_of_run hs, fun hkeeps ↦ ?_, hr, hw⟩
  have hdiff : s.pool.threadsToTerminate + 2 ≤ s.pool.activeThreadCount := hkeeps
  omega

end CheckedPool

end OctopusIpc.Pool

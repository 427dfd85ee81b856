import Mathlib.Init

/-!
# The task queue of the thread pool

The bounded queue of `OctopusThreadPool` and what a submission does to it, with the lock
held, under each of the strategies for a full queue.
-/

namespace OctopusIpc.Pool

/-- `src/IPC/octopus_ipc_threadpool.hpp:25–30`. -/
inductive TaskOverflowStrategy where
  | dropOldest
  | dropNewest
  | block
  deriving DecidableEq, Repr

/-- The queue after a submission, or nothing while the submitter has to wait for space;
`src/IPC/octopus_ipc_threadpool.cpp:75–109`. -/
def enqueue {τ : Type} (strategy : TaskOverflowStrategy) (maxQueueSize : Nat)
    (taskQueue : List τ) (task : τ) : Option (List τ) :=
  match strategy with
  | .dropOldest =>
    some ((if maxQueueSize ≤ taskQueue.length then taskQueue.tail else taskQueue) ++ [task])
  | .dropNewest =>
    some (if maxQueueSize ≤ taskQueue.length then taskQueue else taskQueue ++ [task])
  | .block =>
    if maxQueueSize ≤ taskQueue.length then none else some (taskQueue ++ [task])

/-- A submission brings no task into the queue but its own. -/
theorem mem_of_mem_enqueue {τ : Type} {strategy : TaskOverflowStrategy} {maxQueueSize : Nat}
    {taskQueue taskQueue' : List τ} {task x : τ}
    (h : enqueue strategy maxQueueSize taskQueue task = some taskQueue') (hx : x ∈ taskQueue') :
    x ∈ taskQueue ∨ x = task := by
  have happend {q : List τ} (hq : ∀ y ∈ q, y ∈ taskQueue) (hx : x ∈ q ++ [task]) :
      x ∈ taskQueue ∨ x = task := by
    rcases List.mem_append.mp hx with hx | hx
    · exact Or.inl (hq x hx)
    · exact Or.inr (List.mem_singleton.mp hx)
  cases strategy with
  | dropOldest =>
    cases h
    refine happend (fun y hy ↦ ?_) hx
    split at hy
    · exact List.mem_of_mem_tail hy
    · exact hy
  | dropNewest =>
    cases h
    split at hx
    · exact Or.inl hx
    · exact happend (fun _ ↦ id) hx
  | block =>
    simp only [enqueue] at h
    split at h
    · cases h
    · cases h
      exact happend (fun _ ↦ id) hx

/-- While there is room every strategy appends the task. -/
theorem enqueue_of_room {τ : Type} {strategy : TaskOverflowStrategy} {maxQueueSize : Nat}
    {taskQueue : List τ} (task : τ) (h : taskQueue.length < maxQueueSize) :
    enqueue strategy maxQueueSize taskQueue task = some (taskQueue ++ [task]) := by
  unfold enqueue
  cases strategy <;> simp only [if_neg (Nat.not_le.mpr h)]

/-- What each strategy does when the queue is full. -/
theorem enqueue_of_full {τ : Type} {strategy : TaskOverflowStrategy} {maxQueueSize : Nat}
    {taskQueue : List τ} (task : τ) (h : maxQueueSize ≤ taskQueue.length) :
    enqueue strategy maxQueueSize taskQueue task =
      match strategy with
      | .dropOldest => some (taskQueue.tail ++ [task])
      | .dropNewest => some taskQueue
      | .block => none := by
  unfold enqueue
  cases strategy <;> simp only [if_pos h]

/-! ### The three ways to submit -/

/-- A closure in the queue: the task itself, the task after a sleep, or a packaged task
whose result goes to a future. -/
inductive Task (τ : Type) where
  | plain (task : τ)
  | delayed (task : τ) (delay : Nat)
  | packaged (task : τ)
  deriving DecidableEq, Repr

/-- A submitted closure with its place in the order of submissions. -/
structure Job (τ : Type) where
  id : Nat
  task : Task τ
  deriving DecidableEq, Repr

/-- What each strategy gives up for a task that comes to a full queue. -/
def TaskOverflowStrategy.victim {α : Type} (strategy : TaskOverflowStrategy) (found : List α)
    (task : α) : Option α :=
  match strategy with
  | .dropOldest => found.head?
  | .dropNewest => some task
  | .block => none

/-- The parameters of the constructor. -/
structure Config where
  threadCount : Nat
  maxQueueSize : Nat
  strategy : TaskOverflowStrategy
  deriving DecidableEq, Repr

namespace Config

variable {τ : Type} (cfg : Config)

/-- The critical section of `enqueue`: the queue it leaves behind and whether it goes on to
notify a worker, or nothing while it has to wait;
`src/IPC/octopus_ipc_threadpool.cpp:72–113`. -/
def enqueue (taskQueue : List τ) (task : τ) : Option (List τ × Bool) :=
  (Pool.enqueue cfg.strategy cfg.maxQueueSize taskQueue task).map fun queue ↦
    (queue, cfg.strategy != .dropNewest || decide (taskQueue.length < cfg.maxQueueSize))

/-- The same critical section, written out a second time;
`src/IPC/octopus_ipc_threadpool.cpp:128–174`. -/
def enqueueDelayed (taskQueue : List τ) (task : τ) : Option (List τ × Bool) :=
  cfg.enqueue taskQueue task

/-- The critical section of `enqueue_with_result`, which does not look at the strategy;
`src/IPC/octopus_ipc_threadpool.hpp:150–163`. -/
def enqueueWithResult (taskQueue : List τ) (task : τ) : Option (List τ × Bool) :=
  if taskQueue.length < cfg.maxQueueSize then some (taskQueue ++ [task], true)
  else some (taskQueue, false)

/-- The critical section of the function that submits a closure of this kind. -/
def submit (taskQueue : List (Job τ)) (job : Job τ) : Option (List (Job τ) × Bool) :=
  match job.task with
  | .plain _ => cfg.enqueue taskQueue job
  | .delayed _ _ => cfg.enqueueDelayed taskQueue job
  | .packaged _ => cfg.enqueueWithResult taskQueue job

/-- What a submission discards that finds the given queue: nothing while there is room, and
then what the strategy says, a packaged task being refused under any strategy. -/
def victim (found : List (Job τ)) (job : Job τ) : Option (Job τ) :=
  if found.length < cfg.maxQueueSize then none
  else
    match job.task with
    | .plain _ | .delayed _ _ => cfg.strategy.victim found job
    | .packaged _ => some job

variable {cfg} {taskQueue queue : List (Job τ)} {job : Job τ} {notify : Bool}

/-- What a submission that returns did: it appended its task, or refused it, or made room
for it at the front; and it notifies unless it refused. -/
inductive Submitted (cfg : Config) (found : List (Job τ)) (job : Job τ) :
    List (Job τ) → Bool → Prop
  | appended (hroom : found.length < cfg.maxQueueSize) :
      Submitted cfg found job (found ++ [job]) true
  | refused (hfull : cfg.maxQueueSize ≤ found.length) (hvictim : cfg.victim found job = some job) :
      Submitted cfg found job found false
  | displaced (hfull : cfg.maxQueueSize ≤ found.length)
      (hvictim : cfg.victim found job = found.head?) :
      Submitted cfg found job (found.tail ++ [job]) true

/-- Nothing is discarded while there is room. -/
theorem victim_of_room (h : taskQueue.length < cfg.maxQueueSize) :
    cfg.victim taskQueue job = none :=
  if_pos h

private theorem submitted_of_enqueue (hkind : ∀ task, job.task ≠ .packaged task)
    (h : cfg.enqueue taskQueue job = some (queue, notify)) :
    Submitted cfg taskQueue job queue notify := by
  rcases Nat.lt_or_ge taskQueue.length cfg.maxQueueSize with hroom | hfull
  · rw [enqueue, enqueue_of_room job hroom, decide_eq_true hroom, Bool.or_true] at h
    cases h
    exact .appended hroom
  · have hvictim : cfg.victim taskQueue job = cfg.strategy.victim taskQueue job := by
      rw [victim, if_neg (Nat.not_lt.mpr hfull)]
      cases hj : job.task with
      | packaged task => exact absurd hj (hkind task)
      | plain task => rfl
      | delayed task delay => rfl
    rw [enqueue, enqueue_of_full job hfull, decide_eq_false (Nat.not_lt.mpr hfull)] at h
    cases hs : cfg.strategy with
    | dropOldest =>
      rw [hs] at h hvictim
      cases h
      exact .displaced hfull hvictim
    | dropNewest =>
      rw [hs] at h hvictim
      cases h
      exact .refused hfull hvictim
    | block =>
      rw [hs] at h
      cases h

/-- A submission under each strategy and of each kind is one of the three. -/
theorem submitted_of_submit (h : cfg.submit taskQueue job = some (queue, notify)) :
    Submitted cfg taskQueue job queue notify := by
  cases hj : job.task with
  | plain task =>
    simp only [submit, hj] at h
    exact submitted_of_enqueue (by simp [hj]) h
  | delayed task delay =>
    simp only [submit, hj, enqueueDelayed] at h
    exact submitted_of_enqueue (by simp [hj]) h
  | packaged task =>
    simp only [submit, hj, enqueueWithResult] at h
    split at h
    · next hroom =>
      cases h
      exact .appended hroom
    · next hfull =>
      cases h
      exact .refused (Nat.not_lt.mp hfull) (by rw [victim, if_neg hfull, hj])

end Config

end OctopusIpc.Pool

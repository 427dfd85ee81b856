import Mathlib.Data.Nat.Basic
import OctopusIpc.Client.SendApi
import OctopusIpc.Pool.Carried

/-!
# The order of queued sends

`ipc_send_message_queue` submits a task to the pool for each message, and the worker that takes
the task sleeps for the delay and writes the frame. The tasks leave the pool's queue in the
order of submission, but nothing orders the writes of the workers that have taken them.
-/

namespace OctopusIpc.Client
open OctopusIpc.Pool OctopusIpc.Protocol

/-- A task of the pool: a copied message with the thread that queued it, or a task that writes
nothing to the socket. -/
inductive QueuedTask where
  | sendMessage (caller : Nat) (copiedMsg : DataMessage)
  | other
  deriving DecidableEq, Repr

/-- The job was queued by this thread with this delay;
`src/APP/octopus_ipc_app_client.cpp:776–844`. -/
def queuedBy (caller delay : Nat) (job : Job QueuedTask) : Bool :=
  match job.task with
  | .delayed (.sendMessage c _) d => c == caller && d == delay
  | _ => false

/-- The milliseconds a job sleeps first; `src/IPC/octopus_ipc_threadpool.cpp:131–134`. -/
def sleepOf (job : Job QueuedTask) : Nat :=
  match job.task with
  | .delayed _ d => d
  | .plain _ | .packaged _ => 0

/-- The message a job is to send. -/
def messageOf (job : Job QueuedTask) : Option DataMessage :=
  match job.task with
  | .delayed (.sendMessage _ m) _ | .plain (.sendMessage _ m) | .packaged (.sendMessage _ m) => some m
  | _ => none

/-- The bytes a job writes. -/
def frameOf (job : Job QueuedTask) : List UInt8 :=
  (messageOf job).elim [] DataMessage.serializeMessage

/-- On a live connection these are the bytes the task hands to the socket. -/
theorem delayedSend_eq_frameOf {socketClient : Nat → Int} (h : SendCall.Live socketClient)
    {job : Job QueuedTask} {m : DataMessage} (hm : messageOf job = some m) :
    delayedSend socketClient m = some (frameOf job) := by
  rw [h.delayedSend, frameOf, hm]
  rfl

/-- The pool, the time in milliseconds, when the task of each worker wakes from its sleep, and
the jobs in the order in which their frames were written. The connection is live. -/
structure SendQueue where
  pool : ThreadPool QueuedTask
  clock : Nat
  wakesAt : Nat → Nat
  written : List (Job QueuedTask)

/-- The steps of the pool's threads, of time and of the sending tasks. -/
inductive SendAction where
  | pool (a : Pool.Action QueuedTask)
  | elapse (milliseconds : Nat)
  /-- A worker's task writes its frame; `src/APP/octopus_ipc_app_client.cpp:813–815`. -/
  | write (w : Nat)

namespace SendQueue

/-- `g_threadPool`; `src/APP/octopus_ipc_app_client.cpp:40`. -/
def gThreadPool : Config := ⟨4, 100, .dropOldest⟩

/-- A task does not end before it has written its frame. -/
def Unfinished (s : SendQueue) : Pool.Action QueuedTask → Bool
  | .finish w _ =>
    match s.pool.workers[w]? with
    | some (.executing job) => (messageOf job).isSome && !s.written.contains job
    | _ => false
  | _ => false

/-- A task sleeps from its beginning. -/
def wakes (s : SendQueue) : Pool.Action QueuedTask → Nat → Nat
  | .begin w =>
    match s.pool.workers[w]? with
    | some (.holding job) => Function.update s.wakesAt w (s.clock + sleepOf job)
    | _ => s.wakesAt
  | _ => s.wakesAt

/-- What each step does in a state in which it can be taken. -/
def step (cfg : Config) (s : SendQueue) : SendAction → Option SendQueue
  | .pool a =>
    if s.Unfinished a then none
    else (ThreadPool.step cfg s.pool a).map fun pool ↦ { s with pool := pool, wakesAt := s.wakes a }
  | .elapse milliseconds => some { s with clock := s.clock + milliseconds }
  | .write w =>
    match s.pool.workers[w]? with
    | some (.executing job) =>
      if (messageOf job).isSome && !s.written.contains job && decide (s.wakesAt w ≤ s.clock) then
        some { s with written := s.written ++ [job] }
      else none
    | _ => none

/-- The pool and the socket as a transition system. -/
def system (cfg : Config) : StepSystem SendQueue SendAction where
  init := ⟨ThreadPool.init cfg, 0, fun _ ↦ 0, []⟩
  step := step cfg

/-- The frames that a thread queued with one delay have been written in the order in which it
submitted them, if none was dropped. -/
def FramesInOrder (cfg : Config) (caller delay : Nat) (s : SendQueue) : Prop :=
  s.pool.victims cfg = [] →
    (s.written.filter (queuedBy caller delay)).map frameOf <+:
      (s.pool.submissions.filter (queuedBy caller delay)).map frameOf

/-! ### What a step is -/

variable {cfg : Config} {caller delay : Nat} {s s' : SendQueue} {a : SendAction} {w : Nat}
  {job : Job QueuedTask}

/-- The steps by what they do, each with the condition under which it does it. -/
inductive Step (cfg : Config) (s : SendQueue) : SendAction → SendQueue → Prop
  | pool (a : Pool.Action QueuedTask) (pool : ThreadPool QueuedTask)
      (hwritten : s.Unfinished a = false) (hs : ThreadPool.Step cfg s.pool a pool) :
      Step cfg s (.pool a) { s with pool := pool, wakesAt := s.wakes a }
  | elapse (milliseconds : Nat) :
      Step cfg s (.elapse milliseconds) { s with clock := s.clock + milliseconds }
  | write (w : Nat) (job : Job QueuedTask) (hw : s.pool.workers[w]? = some (.executing job))
      (hm : (messageOf job).isSome = true) (hnew : job ∉ s.written) (hwakes : s.wakesAt w ≤ s.clock) :
      Step cfg s (.write w) { s with written := s.written ++ [job] }

/-- Every step is one of these. -/
theorem step_of_eq_some (h : (system cfg).step s a = some s') : Step cfg s a s' := by
  cases a with
  | pool a =>
    simp only [system, step] at h
    split at h
    · cases h
    · next hwritten =>
      obtain ⟨pool, hpool, rfl⟩ := Option.map_eq_some_iff.mp h
      exact .pool a pool (Bool.eq_false_iff.mpr hwritten) (ThreadPool.step_of_eq_some hpool)
  | elapse milliseconds =>
    cases h
    exact .elapse milliseconds
  | write w =>
    simp only [system, step] at h
    split at h
    · next job hw =>
      split at h <;> cases h
      next hcond =>
        simp only [Bool.and_eq_true, Bool.not_eq_true', List.contains_eq_mem, decide_eq_false_iff_not,
          decide_eq_true_eq] at hcond
        obtain ⟨⟨hm, hnew⟩, hwakes⟩ := hcond
        exact .write w job hw hm hnew hwakes
    · cases h

/-! ### In the hands of the workers -/

/-- A worker that ends a sending task has written its frame. -/
private theorem mem_written_of_finish {outcome : TaskOutcome}
    (hwritten : s.Unfinished (.finish w outcome) = false)
    (hw : s.pool.workers[w]? = some (.executing job)) (hm : (messageOf job).isSome = true) :
    job ∈ s.written := by
  simp only [Unfinished, hw, hm, Bool.true_and, Bool.not_eq_false', List.contains_eq_mem,
    decide_eq_true_eq] at hwritten
  exact hwritten

/-- The frames written are of jobs off the queue, and a sending job off the queue has been
written or is in the hands of a worker. -/
structure OffQueue (s : SendQueue) : Prop where
  taken : ∀ job ∈ s.written, job ∈ s.pool.dequeued
  pending : ∀ job ∈ s.pool.dequeued, (messageOf job).isSome = true →
    job ∈ s.written ∨ job ∈ s.pool.inHand

theorem offQueue_init (cfg : Config) : OffQueue (system cfg).init where
  taken _ h := absurd h List.not_mem_nil
  pending _ h := absurd h List.not_mem_nil

/-- A sending job off the queue stays in the hands of its worker until its frame is written. -/
private theorem OffQueue.pending_pool (h : OffQueue s) {a : Pool.Action QueuedTask}
    {pool : ThreadPool QueuedTask} (hwritten : s.Unfinished a = false)
    (hs : ThreadPool.Step cfg s.pool a pool) (hjob : job ∈ s.pool.dequeued)
    (hm : (messageOf job).isSome = true) : job ∈ s.written ∨ job ∈ pool.inHand := by
  rcases h.pending job hjob hm with hdone | hhand
  · exact .inl hdone
  · obtain ⟨w, hcarries⟩ := ThreadPool.mem_inHand.mp hhand
    by_cases ha : ∃ outcome, a = .finish w outcome
    · obtain ⟨outcome, rfl⟩ := ha
      obtain ⟨pc, hpc, hpcjob⟩ := hcarries
      cases hs with
      | finish w outcome job' hw =>
        cases hw.symm.trans hpc
        cases hpcjob
        exact .inl (mem_written_of_finish hwritten hw hm)
    · have hne : ∀ outcome, a ≠ .finish w outcome := fun outcome h ↦ ha ⟨outcome, h⟩
      exact .inr (ThreadPool.mem_inHand.mpr ⟨w, hcarries.step hs hne⟩)

theorem OffQueue.step (h : OffQueue s) (hpool : (ThreadPool.system cfg).Reachable s.pool)
    (hs : Step cfg s a s') : OffQueue s' := by
  cases hs with
  | elapse milliseconds => exact ⟨h.taken, h.pending⟩
  | write w job hw hm hnew hwakes =>
    refine ⟨fun job' hjob' ↦ ?_, fun job' hjob' hm' ↦ ?_⟩
    · rcases List.mem_append.mp hjob' with hjob' | hjob'
      · exact h.taken job' hjob'
      · rw [List.mem_singleton.mp hjob']
        exact ThreadPool.mem_dequeued_of_carries hpool ⟨_, hw, rfl⟩
    · exact (h.pending job' hjob' hm').imp_left (List.mem_append_left _)
  | pool a pool hwritten hs =>
    rcases ThreadPool.dequeued_of_step hs with hsame | ⟨w, job, hnew, hcarries⟩
    · refine ⟨fun job' hjob' ↦ hsame ▸ h.taken job' hjob', fun job' hjob' hm' ↦ ?_⟩
      exact h.pending_pool hwritten hs (hsame ▸ hjob') hm'
    · refine ⟨fun job' hjob' ↦ ?_, fun job' hjob' hm' ↦ ?_⟩
      · exact hnew ▸ List.mem_append_left _ (h.taken job' hjob')
      · rcases List.mem_append.mp (hnew ▸ hjob') with hjob' | hjob'
        · exact h.pending_pool hwritten hs hjob' hm'
        · rw [List.mem_singleton.mp hjob']
          exact .inr (ThreadPool.mem_inHand.mpr ⟨w, hcarries⟩)

/-- The pool of a reachable state is one that the pool by itself can reach. -/
theorem pool_reachable (h : (system cfg).Reachable s) :
    (ThreadPool.system cfg).Reachable s.pool := by
  refine h.invariant (I := fun t ↦ (ThreadPool.system cfg).Reachable t.pool) ?_ ?_
  · exact StepSystem.ReachableUnder.init
  · intro t a t' ht _ hs
    cases a with
    | pool a =>
      simp only [system, step] at hs
      split at hs
      · cases hs
      · obtain ⟨pool, hpool, rfl⟩ := Option.map_eq_some_iff.mp hs
        exact ht.step trivial hpool
    | elapse milliseconds =>
      cases hs
      exact ht
    | write w =>
      cases step_of_eq_some hs
      exact ht

/-- In every run what is off the queue is accounted for. -/
theorem offQueue_of_reachable (h : (system cfg).Reachable s) : OffQueue s :=
  h.invariant_of_reachable (offQueue_init cfg) fun _ _ _ hr hi _ hs ↦
    hi.step (pool_reachable hr) (step_of_eq_some hs)

/-! ### In turn -/

/-- The jobs in hand that this thread queued with this delay before the given job. -/
def ahead (caller delay : Nat) (s : SendQueue) (job : Job QueuedTask) : List (Job QueuedTask) :=
  s.pool.inHand.filter fun job' ↦ queuedBy caller delay job' && decide (job'.id < job.id)

/-- A worker writes a frame that the thread queued with this delay only when no worker has one in
hand that it queued earlier and that is not yet written. -/
def WritesInTurn (caller delay : Nat) (s : SendQueue) : SendAction → Prop
  | .write w =>
    ∀ job ∈ (s.pool.workers[w]?).bind WorkerPc.job, queuedBy caller delay job = true →
      ∀ job' ∈ s.ahead caller delay job, job' ∈ s.written
  | .pool _ | .elapse _ => True

instance (caller delay : Nat) (s : SendQueue) :
    (a : SendAction) → Decidable (s.WritesInTurn caller delay a)
  | .write _ => inferInstanceAs (Decidable (∀ job ∈ Option.bind _ _, _ → ∀ job' ∈ ahead _ _ _ _, _))
  | .pool _ | .elapse _ => inferInstanceAs (Decidable True)

/-- The jobs that the thread queued with this delay have been written as they left the queue. -/
def JobsInOrder (caller delay : Nat) (s : SendQueue) : Prop :=
  s.written.filter (queuedBy caller delay) <+: s.pool.dequeued.filter (queuedBy caller delay)

/-- A job queued by a thread is to send a message. -/
theorem messageOf_of_queuedBy (h : queuedBy caller delay job = true) :
    (messageOf job).isSome = true := by
  unfold queuedBy at h
  split at h
  · next htask => simp only [messageOf, htask, Option.isSome_some]
  · cases h

/-- A frame of the thread keeps them in order exactly when it is written in turn. -/
theorem jobsInOrder_write_iff (h : (system cfg).Reachable s) (horder : s.JobsInOrder caller delay)
    (hs : Step cfg s (.write w) s') :
    s'.JobsInOrder caller delay ↔ s.WritesInTurn caller delay (.write w) := by
  cases hs with
  | write w job hw hm hnew hwakes =>
    have hpool := pool_reachable h
    have hoff := offQueue_of_reachable h
    have hjob : job ∈ s.pool.dequeued := ThreadPool.mem_dequeued_of_carries hpool ⟨_, hw, rfl⟩
    simp only [JobsInOrder, WritesInTurn, hw, Option.bind_some, WorkerPc.job, Option.mem_some,
      forall_eq', List.filter_append]
    by_cases hq : queuedBy caller delay job = true
    · have hsorted := (ThreadPool.dequeued_sorted hpool).filter (queuedBy caller delay)
      have hmem : job ∈ s.pool.dequeued.filter (queuedBy caller delay) :=
        List.mem_filter.mpr ⟨hjob, hq⟩
      have hfresh : job ∉ s.written.filter (queuedBy caller delay) := fun hin ↦
        hnew (List.mem_of_mem_filter hin)
      have hprefix := @BoundedFifo.concat_prefix_iff _ Nat _ Job.id _ _ _ horder hsorted hmem hfresh
      rw [List.filter_cons_of_pos hq, List.filter_nil, hprefix]
      constructor
      · intro hall _ job' hjob'
        obtain ⟨hhand, hahead⟩ := List.mem_filter.mp hjob'
        rw [Bool.and_eq_true, decide_eq_true_eq] at hahead
        obtain ⟨v, hcarries⟩ := ThreadPool.mem_inHand.mp hhand
        have hdequeued := ThreadPool.mem_dequeued_of_carries hpool hcarries
        exact List.mem_of_mem_filter
          (hall job' (List.mem_filter.mpr ⟨hdequeued, hahead.1⟩) hahead.2)
      · intro hturn job' hjob' hlt
        obtain ⟨hdequeued, hq'⟩ := List.mem_filter.mp hjob'
        refine List.mem_filter.mpr ⟨?_, hq'⟩
        rcases hoff.pending job' hdequeued (messageOf_of_queuedBy hq') with hdone | hhand
        · exact hdone
        · refine hturn hq job' (List.mem_filter.mpr ⟨hhand, ?_⟩)
          rw [Bool.and_eq_true, decide_eq_true_eq]
          exact ⟨hq', hlt⟩
    · rw [List.filter_cons_of_neg hq, List.filter_nil, List.append_nil]
      exact iff_of_true horder fun hq' ↦ absurd hq' hq

/-- Jobs that leave the queue do so behind those that left it before. -/
private theorem JobsInOrder.pool (h : s.JobsInOrder caller delay) {a : Pool.Action QueuedTask}
    {pool : ThreadPool QueuedTask} (hs : ThreadPool.Step cfg s.pool a pool) (wakesAt : Nat → Nat) :
    JobsInOrder caller delay { s with pool := pool, wakesAt := wakesAt } := by
  rcases ThreadPool.dequeued_of_step hs with hsame | ⟨w, job, hnew, -⟩
  · rw [JobsInOrder, hsame]
    exact h
  · rw [JobsInOrder, hnew, List.filter_append]
    exact h.trans (List.prefix_append _ _)

/-- Where the frames are written in turn the jobs are written as they left the queue. -/
theorem jobsInOrder_of_writesInTurn
    (h : (system cfg).ReachableUnder (WritesInTurn caller delay) s) : s.JobsInOrder caller delay := by
  refine h.invariant_of_reachable ?_ ?_
  · exact List.prefix_refl []
  · intro t a t' hr ht hg hs
    have hstep := step_of_eq_some hs
    cases a with
    | pool a =>
      cases hstep with
      | pool a pool hwritten hpool => exact ht.pool hpool _
    | elapse milliseconds =>
      cases hstep
      exact ht
    | write w => exact (jobsInOrder_write_iff hr.reachable ht hstep).mpr hg

/-- In every run in which no worker writes a frame that a thread queued with a delay while another
has one in hand that the thread queued with it earlier, and no task is dropped, the frames are
written in the order of submission. -/
theorem framesInOrder_of_writesInTurn
    (h : (system cfg).ReachableUnder (WritesInTurn caller delay) s) :
    s.FramesInOrder cfg caller delay := by
  intro hnone
  have hqueue : s.pool.dequeued <+: s.pool.submissions := by
    rw [← ThreadPool.survivors_of_victims_nil hnone]
    exact ThreadPool.dequeued_prefix_survivors (pool_reachable h.reachable)
  have horder := jobsInOrder_of_writesInTurn h
  exact (horder.trans (hqueue.filter (queuedBy caller delay))).map frameOf

/-- A thread queues a message with a delay of 20 milliseconds. -/
private def queue (copiedMsg : DataMessage) : List SendAction :=
  [.pool (.call 0 (.delayed (.sendMessage 0 copiedMsg) 20)), .pool (.submit 0),
    .pool (.notifyOne 0 0)]

/-- A worker takes a task and begins it. -/
private def takeAndBegin (w : Nat) : List SendAction :=
  [.pool (.loopTest w), .pool (.lock w), .pool (.test w), .pool (.take w), .pool (.begin w)]

/-- Two workers asleep with two messages until both may write. -/
private def twoAsleep : List SendAction :=
  queue (.ofPayload 2 1 [7]) ++ queue (.ofPayload 2 2 [7]) ++ takeAndBegin 0 ++ takeAndBegin 1 ++
    [.elapse 20]

/-- The task of the first message. -/
def firstJob : Job QueuedTask := ⟨0, .delayed (.sendMessage 0 (.ofPayload 2 1 [7])) 20⟩

/-- The task of the second message. -/
def secondJob : Job QueuedTask := ⟨1, .delayed (.sendMessage 0 (.ofPayload 2 2 [7])) 20⟩

/-- The worker with the first message writes first. -/
theorem framesInOrder_inTurn :
    ∃ s, (system gThreadPool).ReachableUnder (WritesInTurn 0 20) s ∧
      s.pool.victims gThreadPool = [] ∧ s.written = [firstJob, secondJob] ∧
      s.FramesInOrder gThreadPool 0 20 := by
  have hrun : ∃ s, (system gThreadPool).run (WritesInTurn 0 20) (system gThreadPool).init
      (twoAsleep ++ [.write 0, .write 1]) = some s ∧ s.pool.victims gThreadPool = [] ∧
      s.written = [firstJob, secondJob] := ⟨_, rfl, rfl, rfl⟩
  obtain ⟨s, hs, hnone, hwritten⟩ := hrun
  have hreach := StepSystem.reachableUnder_of_run hs
  exact ⟨s, hreach, hnone, hwritten, framesInOrder_of_writesInTurn hreach⟩

/-- The worker with the second message writes first. -/
theorem not_framesInOrder_overtaken :
    ∃ s, (system gThreadPool).Reachable s ∧ s.pool.victims gThreadPool = [] ∧
      s.written = [secondJob, firstJob] ∧ ¬ s.FramesInOrder gThreadPool 0 20 := by
  have hrun : ∃ s, (system gThreadPool).run (fun _ _ ↦ True) (system gThreadPool).init
      (twoAsleep ++ [.write 1, .write 0]) = some s ∧ s.pool.victims gThreadPool = [] ∧
      s.written = [secondJob, firstJob] ∧ s.pool.submissions = [firstJob, secondJob] :=
    ⟨_, rfl, rfl, rfl, rfl⟩
  obtain ⟨s, hs, hnone, hwritten, hsubmitted⟩ := hrun
  have hreach : (system gThreadPool).Reachable s := StepSystem.reachableUnder_of_run hs
  refine ⟨s, hreach, hnone, hwritten, fun h ↦ ?_⟩
  have hprefix := h hnone
  rw [hwritten, hsubmitted] at hprefix
  exact absurd hprefix (by decide)

end SendQueue

end OctopusIpc.Client

import OctopusIpc.Base.BoundedFifo
import OctopusIpc.Pool.ThreadPool

/-!
# The order of the queue

Whatever the threads of the pool do, its queue goes through the history of a bounded
first-in first-out queue.
-/

namespace OctopusIpc.Pool.ThreadPool

variable {τ : Type} {cfg : Config} {s s' : ThreadPool τ} {a : Action τ}

/-- The submissions in the order of their critical sections. -/
def submissions (s : ThreadPool τ) : List (Job τ) := s.log.map Prod.fst

/-- The places in that order of what the overflow strategy discarded. -/
def victims (cfg : Config) (s : ThreadPool τ) : List Nat :=
  s.log.filterMap fun entry ↦ (cfg.victim entry.2 entry.1).map Job.id

/-- The submissions that were not discarded. -/
def survivors (cfg : Config) (s : ThreadPool τ) : List (Job τ) :=
  s.submissions.filter fun job ↦ job.id ∉ s.victims cfg

/-- The history of the queue. -/
def fifo (cfg : Config) (s : ThreadPool τ) : BoundedFifo (Job τ) Nat :=
  ⟨s.submissions, s.victims cfg, s.taskQueue, s.dequeued⟩

/-- Each submission carries its place in the order. -/
def Numbered (s : ThreadPool τ) : Prop :=
  s.submissions.map Job.id = List.range s.log.length

theorem numbered_init : Numbered (init cfg : ThreadPool τ) := rfl

private theorem Numbered.congr (h : Numbered s) (hlog : s'.log = s.log) : Numbered s' := by
  unfold Numbered submissions at h ⊢
  rw [hlog]
  exact h

private theorem victims_congr (hlog : s'.log = s.log) : s'.victims cfg = s.victims cfg := by
  unfold victims
  rw [hlog]

private theorem fifo_congr (hlog : s'.log = s.log) (hqueue : s'.taskQueue = s.taskQueue)
    (hdequeued : s'.dequeued = s.dequeued) : s'.fifo cfg = s.fifo cfg := by
  unfold fifo submissions
  rw [victims_congr hlog, hlog, hqueue, hdequeued]

/-- The steps keep the submissions numbered. -/
theorem Numbered.step (h : Numbered s) (hs : Step cfg s a s') : Numbered s' := by
  cases hs with
  | submitted p task queue notify hm hp hq =>
    unfold Numbered submissions at h ⊢
    simp only [List.map_append, List.map_cons, List.map_nil, List.length_append,
      List.length_singleton, List.range_succ]
    rw [h]
  | _ => exact h.congr rfl

/-- In every run the submissions are numbered. -/
theorem numbered_of_reachable (h : (system cfg).Reachable s) : Numbered s :=
  h.invariant numbered_init fun _ _ _ hi _ hs ↦ hi.step (step_of_eq_some hs)

/-- A new submission has a number of its own. -/
theorem Numbered.id_ne (h : Numbered s) : ∀ job ∈ s.submissions, job.id ≠ s.log.length := by
  intro job hjob
  have hmem : job.id ∈ List.range s.log.length := h ▸ List.mem_map_of_mem hjob
  exact Nat.ne_of_lt (List.mem_range.mp hmem)

/-- The victims after a submission. -/
private theorem victims_submitted {task : Task τ} {queue : List (Job τ)} {pc : CallerPc τ}
    {p : Nat} {victim : Option (Job τ)}
    (hv : cfg.victim s.taskQueue ⟨s.log.length, task⟩ = victim) :
    victims cfg
      { s.setCaller p pc with
        taskQueue := queue
        log := s.log ++ [(⟨s.log.length, task⟩, s.taskQueue)] } =
    s.victims cfg ++ (victim.map Job.id).toList := by
  subst hv
  simp only [victims, List.filterMap_append]
  rw [List.filterMap_cons]
  cases cfg.victim s.taskQueue ⟨s.log.length, task⟩ <;> rfl

/-- The history after a submission. -/
private theorem fifo_submitted {task : Task τ} {queue : List (Job τ)} {pc : CallerPc τ} {p : Nat}
    {victim : Option (Job τ)} (hv : cfg.victim s.taskQueue ⟨s.log.length, task⟩ = victim) :
    fifo cfg
      { s.setCaller p pc with
        taskQueue := queue
        log := s.log ++ [(⟨s.log.length, task⟩, s.taskQueue)] } =
    ⟨s.submissions ++ [⟨s.log.length, task⟩], s.victims cfg ++ (victim.map Job.id).toList, queue,
      s.dequeued⟩ := by
  rw [fifo, victims_submitted hv]
  simp only [submissions, setCaller, List.map_append, List.map_cons, List.map_nil]

/-- Each step of the pool is one of the queue, or does not touch it. -/
theorem Numbered.fifo_step (h : Numbered s) (hs : Step cfg s a s') :
    s'.fifo cfg = s.fifo cfg ∨ BoundedFifo.Step Job.id (s.fifo cfg) (s'.fifo cfg) := by
  cases hs with
  | submitted p task queue notify hm hp hq =>
    refine .inr ?_
    cases hq with
    | appended hroom =>
      rw [fifo_submitted (Config.victim_of_room hroom), Option.map_none, Option.toList_none,
        List.append_nil]
      exact .push _ h.id_ne
    | refused hfull hvictim =>
      rw [fifo_submitted hvictim]
      exact .refuse _ h.id_ne
    | displaced hfull hvictim =>
      rw [fifo_submitted hvictim]
      cases hqueue : s.taskQueue with
      | nil =>
        -- A queue for no task at all has no oldest one to give up.
        rw [List.head?_nil, Option.map_none, Option.toList_none, List.append_nil]
        have hpush := BoundedFifo.Step.push (f := s.fifo cfg) ⟨s.log.length, task⟩ h.id_ne
        rw [show (s.fifo cfg).queue = [] from hqueue] at hpush
        exact hpush
      | cons y q => exact .displace _ y q h.id_ne hqueue
  | take w job queue hw hq => exact .inr (.take job queue hq)
  | _ => exact .inl (fifo_congr rfl rfl rfl)

/-- No step takes the queue beyond a bound that leaves room for a task. -/
theorem Step.length_le (hs : Step cfg s a s') (hmax : 1 ≤ cfg.maxQueueSize)
    (hlen : s.taskQueue.length ≤ cfg.maxQueueSize) : s'.taskQueue.length ≤ cfg.maxQueueSize := by
  cases hs with
  | submitted p task queue notify hm hp hq =>
    cases hq with
    | appended hroom =>
      simp only [List.length_append, List.length_singleton]
      omega
    | refused hfull hvictim => exact hlen
    | displaced hfull hvictim =>
      simp only [List.length_append, List.length_tail, List.length_singleton]
      omega
  | take w job queue hw hq =>
    rw [hq, List.length_cons] at hlen
    exact Nat.le_of_succ_le hlen
  | _ => exact hlen

/-- A step that discards a task found the queue full. -/
theorem Step.full_of_victims_ne (hs : Step cfg s a s') (h : s'.victims cfg ≠ s.victims cfg) :
    cfg.maxQueueSize ≤ s.taskQueue.length := by
  cases hs with
  | submitted p task queue notify hm hp hq =>
    cases hq with
    | appended hroom =>
      rw [victims_submitted (Config.victim_of_room hroom)] at h
      exact absurd (List.append_nil _) h
    | refused hfull hvictim => exact hfull
    | displaced hfull hvictim => exact hfull
  | _ => exact (h (victims_congr rfl)).elim

/-- A step of a pool whose queue has room for a task keeps within the bound, and discards a
task only from a full queue. -/
theorem Numbered.fifo_boundedStep (h : Numbered s) (hmax : 1 ≤ cfg.maxQueueSize)
    (hlen : s.taskQueue.length ≤ cfg.maxQueueSize) (hs : Step cfg s a s') :
    s'.fifo cfg = s.fifo cfg ∨
      BoundedFifo.BoundedStep Job.id cfg.maxQueueSize (s.fifo cfg) (s'.fifo cfg) := by
  rcases h.fifo_step hs with heq | hstep
  · exact .inl heq
  · exact .inr ⟨hstep, hs.length_le hmax hlen, hs.full_of_victims_ne⟩

/-- In every run the history of the queue is that of a queue. -/
theorem fifo_reachable (h : (system cfg).Reachable s) :
    BoundedFifo.Reachable Job.id (s.fifo cfg) := by
  refine h.invariant_of_reachable (I := fun t ↦ BoundedFifo.Reachable Job.id (t.fifo cfg))
    BoundedFifo.reachable_empty fun t a t' hr hi _ hs ↦ ?_
  rcases (numbered_of_reachable hr).fifo_step (step_of_eq_some hs) with heq | hfifo
  · rw [heq]
    exact hi
  · exact hi.step hfifo

/-- With room for a task it is that of a bounded queue. -/
theorem fifo_boundedReachable (hmax : 1 ≤ cfg.maxQueueSize) (h : (system cfg).Reachable s) :
    BoundedFifo.BoundedReachable Job.id cfg.maxQueueSize (s.fifo cfg) := by
  refine h.invariant_of_reachable
    (I := fun t ↦ BoundedFifo.BoundedReachable Job.id cfg.maxQueueSize (t.fifo cfg))
    BoundedFifo.boundedReachable_empty fun t a t' hr hi _ hs ↦ ?_
  rcases (numbered_of_reachable hr).fifo_boundedStep hmax hi.length_le (step_of_eq_some hs) with
    heq | hfifo
  · rw [heq]
    exact hi
  · exact hi.step hfifo

/-- The queue is a bounded first-in first-out queue: in every reachable state it is within
its bound, what was dequeued and what is queued are the submissions less the victims, in
order, and nothing is dequeued twice. -/
theorem taskQueue_refines_boundedFifo (hmax : 1 ≤ cfg.maxQueueSize)
    (h : (system cfg).Reachable s) :
    BoundedFifo.BoundedReachable Job.id cfg.maxQueueSize (s.fifo cfg) ∧
      s.submissions.map Job.id = List.range s.log.length ∧
      s.taskQueue.length ≤ cfg.maxQueueSize ∧
      s.dequeued ++ s.taskQueue = s.survivors cfg ∧
      (s.dequeued.map Job.id).Nodup := by
  have hfifo := fifo_boundedReachable hmax h
  have hwf := (fifo_reachable h).wf
  exact ⟨hfifo, numbered_of_reachable h, hfifo.length_le, hwf.order, hwf.nodup_taken⟩

/-- A queue of one task that gives up its oldest. -/
def dropOldestRun : List (Action Nat) :=
  [.call 0 (.plain 7), .submit 0, .notifyOne 0 0, .call 0 (.delayed 8 50), .submit 0,
    .loopTest 0, .lock 0, .test 0, .take 0]

theorem taskQueue_refines_boundedFifo_dropOldestRun :
    ∃ s : ThreadPool Nat, (system ⟨1, 1, .dropOldest⟩).Reachable s ∧
      s.dequeued ++ s.taskQueue = [⟨1, .delayed 8 50⟩] ∧
      s.dequeued ++ s.taskQueue = s.survivors ⟨1, 1, .dropOldest⟩ := by
  have hrun : ∃ s, (system ⟨1, 1, .dropOldest⟩).run (fun _ _ ↦ True) (init ⟨1, 1, .dropOldest⟩)
      dropOldestRun = some s ∧ s.dequeued ++ s.taskQueue = [⟨1, .delayed 8 50⟩] :=
    ⟨_, rfl, rfl⟩
  obtain ⟨s, hs, hqueue⟩ := hrun
  have hreach : (system ⟨1, 1, .dropOldest⟩).Reachable s := StepSystem.reachableUnder_of_run hs
  obtain ⟨-, -, -, horder, -⟩ := taskQueue_refines_boundedFifo (by decide) hreach
  exact ⟨s, hreach, hqueue, horder⟩

end OctopusIpc.Pool.ThreadPool

import OctopusIpc.Pool.TaskQueue

/-!
# The three ways to submit compared

`enqueue` and `enqueue_delayed` each have their own switch over the overflow strategy, and
`enqueue_with_result` has a test instead of one. Here the two switches stand as the source
writes them, and the three submissions are compared by the places of the queue they keep.
-/

namespace OctopusIpc.Pool

namespace Config

variable {τ : Type} (cfg : Config)

/-- The switch of `enqueue`: nothing is a round of the blocked submission that finds no space,
and the flag tells whether the function goes on to `notify_one`;
`src/IPC/octopus_ipc_threadpool.cpp:75–109`. -/
def enqueueSwitch (taskQueue : List τ) (task : τ) : Option (List τ × Bool) :=
  match cfg.strategy with
  | .dropOldest =>
    if cfg.maxQueueSize ≤ taskQueue.length then some (taskQueue.tail ++ [task], true)
    else some (taskQueue ++ [task], true)
  | .dropNewest =>
    if cfg.maxQueueSize ≤ taskQueue.length then some (taskQueue, false)
    else some (taskQueue ++ [task], true)
  | .block =>
    if cfg.maxQueueSize ≤ taskQueue.length then none
    else some (taskQueue ++ [task], true)

/-- The switch of `enqueue_delayed`, whose task is the closure that sleeps first;
`src/IPC/octopus_ipc_threadpool.cpp:137–170`. -/
def enqueueDelayedSwitch (taskQueue : List τ) (delayedTask : τ) : Option (List τ × Bool) :=
  match cfg.strategy with
  | .dropOldest =>
    if cfg.maxQueueSize ≤ taskQueue.length then some (taskQueue.tail ++ [delayedTask], true)
    else some (taskQueue ++ [delayedTask], true)
  | .dropNewest =>
    if cfg.maxQueueSize ≤ taskQueue.length then some (taskQueue, false)
    else some (taskQueue ++ [delayedTask], true)
  | .block =>
    if cfg.maxQueueSize ≤ taskQueue.length then none
    else some (taskQueue ++ [delayedTask], true)

/-- The function that submits a closure of this kind, with its own switch or test. -/
def submitSwitch (taskQueue : List (Job τ)) (job : Job τ) : Option (List (Job τ) × Bool) :=
  match job.task with
  | .plain _ => cfg.enqueueSwitch taskQueue job
  | .delayed _ _ => cfg.enqueueDelayedSwitch taskQueue job
  | .packaged _ => cfg.enqueueWithResult taskQueue job

/-- The places of the queue that are kept by a submission that finds these tasks, the new task
having the place after the last; nothing while the submission waits. -/
def keptPlaces (taskQueue : List (Task τ)) (task : Task τ) : Option (List Nat) :=
  (cfg.submitSwitch (taskQueue.mapIdx Job.mk) ⟨taskQueue.length, task⟩).map fun r ↦ r.1.map Job.id

variable {cfg} {task : Task τ} {taskQueue : List (Task τ)}

/-- The switch of `enqueue` is its critical section. -/
theorem enqueueSwitch_eq (taskQueue : List τ) (task : τ) :
    cfg.enqueueSwitch taskQueue task = cfg.enqueue taskQueue task := by
  rcases Nat.lt_or_ge taskQueue.length cfg.maxQueueSize with hroom | hfull
  · rw [enqueue, enqueue_of_room task hroom, decide_eq_true hroom, Bool.or_true, enqueueSwitch]
    cases cfg.strategy <;> exact if_neg (Nat.not_le.mpr hroom)
  · rw [enqueue, enqueue_of_full task hfull, decide_eq_false (Nat.not_lt.mpr hfull), enqueueSwitch]
    cases cfg.strategy <;> exact if_pos hfull

/-- The second switch decides as the first. -/
theorem enqueueDelayedSwitch_eq (taskQueue : List τ) (task : τ) :
    cfg.enqueueDelayedSwitch taskQueue task = cfg.enqueueSwitch taskQueue task := by
  rw [enqueueDelayedSwitch, enqueueSwitch]

/-- The submissions of the pool are the switches of the source. -/
theorem submitSwitch_eq_submit (taskQueue : List (Job τ)) (job : Job τ) :
    cfg.submitSwitch taskQueue job = cfg.submit taskQueue job := by
  cases hj : job.task with
  | plain task =>
    simp only [submitSwitch, submit, hj]
    exact enqueueSwitch_eq taskQueue job
  | delayed task delay =>
    simp only [submitSwitch, submit, hj, enqueueDelayed]
    rw [enqueueDelayedSwitch_eq, enqueueSwitch_eq]
  | packaged task => simp only [submitSwitch, submit, hj]

private theorem id_mapIdx (taskQueue : List (Task τ)) :
    (taskQueue.mapIdx Job.mk).map Job.id = List.range taskQueue.length := by
  refine List.ext_getElem ?_ fun i hi hj ↦ ?_
  · rw [List.length_map, List.length_mapIdx, List.length_range]
  · rw [List.getElem_map, List.getElem_mapIdx, List.getElem_range]

/-- While there is room every way to submit keeps all places. -/
theorem keptPlaces_of_room (task : Task τ) (h : taskQueue.length < cfg.maxQueueSize) :
    cfg.keptPlaces taskQueue task = some (List.range (taskQueue.length + 1)) := by
  have hroom : (taskQueue.mapIdx Job.mk).length < cfg.maxQueueSize := by
    rwa [List.length_mapIdx]
  have happend : cfg.submit (taskQueue.mapIdx Job.mk) ⟨taskQueue.length, task⟩ =
      some (taskQueue.mapIdx Job.mk ++ [⟨taskQueue.length, task⟩], true) := by
    cases task with
    | plain task | delayed task delay =>
      simp only [submit, enqueueDelayed, enqueue, enqueue_of_room _ hroom, decide_eq_true hroom,
        Bool.or_true, Option.map_some]
    | packaged task => exact if_pos hroom
  rw [keptPlaces, submitSwitch_eq_submit, happend, Option.map_some, List.map_append, id_mapIdx,
    List.range_succ]
  rfl

/-- What `enqueue` keeps of a full queue is up to the strategy. -/
theorem keptPlaces_plain_of_full (task : τ) (h : cfg.maxQueueSize ≤ taskQueue.length) :
    cfg.keptPlaces taskQueue (.plain task) =
      match cfg.strategy with
      | .dropOldest => some ((List.range taskQueue.length).tail ++ [taskQueue.length])
      | .dropNewest => some (List.range taskQueue.length)
      | .block => none := by
  have hfull : cfg.maxQueueSize ≤ (taskQueue.mapIdx Job.mk).length := by
    rwa [List.length_mapIdx]
  simp only [keptPlaces, submitSwitch, enqueueSwitch, if_pos hfull]
  cases cfg.strategy with
  | dropOldest =>
    rw [Option.map_some, List.map_append, List.map_tail, id_mapIdx]
    rfl
  | dropNewest => exact congrArg some (id_mapIdx taskQueue)
  | block => rfl

/-- `enqueue_with_result` refuses its task when the queue is full. -/
theorem keptPlaces_packaged_of_full (task : τ) (h : cfg.maxQueueSize ≤ taskQueue.length) :
    cfg.keptPlaces taskQueue (.packaged task) = some (List.range taskQueue.length) := by
  have hfull : ¬ (taskQueue.mapIdx Job.mk).length < cfg.maxQueueSize := by
    rw [List.length_mapIdx]
    exact Nat.not_lt.mpr h
  simp only [keptPlaces, submitSwitch, enqueueWithResult, if_neg hfull, Option.map_some, id_mapIdx]

/-- A delayed task is accepted, and displaces others, as a plain one. -/
theorem keptPlaces_delayed (taskQueue : List (Task τ)) (task : τ) (delay : Nat) :
    cfg.keptPlaces taskQueue (.delayed task delay) = cfg.keptPlaces taskQueue (.plain task) := by
  rcases Nat.lt_or_ge taskQueue.length cfg.maxQueueSize with hroom | hfull
  · rw [keptPlaces_of_room _ hroom, keptPlaces_of_room _ hroom]
  · have hfull' : cfg.maxQueueSize ≤ (taskQueue.mapIdx Job.mk).length := by
      rwa [List.length_mapIdx]
    rw [keptPlaces_plain_of_full task hfull]
    simp only [keptPlaces, submitSwitch, enqueueDelayedSwitch, if_pos hfull']
    cases cfg.strategy with
    | dropOldest =>
      rw [Option.map_some, List.map_append, List.map_tail, id_mapIdx]
      rfl
    | dropNewest => exact congrArg some (id_mapIdx taskQueue)
    | block => rfl

/-- On a full queue only one strategy does what `enqueue_with_result` does. -/
theorem keptPlaces_plain_eq_range_iff (task : τ) (h : cfg.maxQueueSize ≤ taskQueue.length) :
    cfg.keptPlaces taskQueue (.plain task) = some (List.range taskQueue.length) ↔
      cfg.strategy = .dropNewest := by
  rw [keptPlaces_plain_of_full task h]
  cases cfg.strategy with
  | dropNewest => exact iff_of_true rfl rfl
  | block => exact iff_of_false nofun nofun
  | dropOldest =>
    refine iff_of_false (fun heq ↦ ?_) nofun
    have hnew : taskQueue.length ∈ List.range taskQueue.length := by
      rw [← Option.some.inj heq]
      exact List.mem_append_right _ (List.mem_singleton_self _)
    exact Nat.lt_irrefl _ (List.mem_range.mp hnew)

/-- The first two ways to submit keep the same places of every queue under every strategy. The
third keeps them too exactly while there is room or if the strategy drops the newest task,
because of a full queue it keeps all and refuses its task. -/
theorem keptPlaces_agree (cfg : Config) (taskQueue : List (Task τ)) (task : τ) (delay : Nat) :
    cfg.keptPlaces taskQueue (.delayed task delay) = cfg.keptPlaces taskQueue (.plain task) ∧
      (cfg.keptPlaces taskQueue (.packaged task) = cfg.keptPlaces taskQueue (.plain task) ↔
        taskQueue.length < cfg.maxQueueSize ∨ cfg.strategy = .dropNewest) ∧
      (cfg.maxQueueSize ≤ taskQueue.length →
        cfg.keptPlaces taskQueue (.packaged task) = some (List.range taskQueue.length)) := by
  refine ⟨keptPlaces_delayed taskQueue task delay, ?_, keptPlaces_packaged_of_full task⟩
  rcases Nat.lt_or_ge taskQueue.length cfg.maxQueueSize with hroom | hfull
  · rw [keptPlaces_of_room _ hroom, keptPlaces_of_room _ hroom]
    exact iff_of_true rfl (.inl hroom)
  · rw [keptPlaces_packaged_of_full task hfull, eq_comm, keptPlaces_plain_eq_range_iff task hfull]
    exact ⟨.inr, fun h ↦ h.resolve_left (Nat.not_lt.mpr hfull)⟩

/-- A full queue of two under the strategy that waits. -/
theorem keptPlaces_agree_full :
    (⟨1, 2, .block⟩ : Config).keptPlaces [.plain 5, .delayed 6 40] (.packaged 7) = some [0, 1] :=
  (keptPlaces_agree ⟨1, 2, .block⟩ [.plain 5, .delayed 6 40] 7 0).2.2 (by decide)

/-- A full queue of two under the strategy that makes room: the plain task goes in and the
oldest goes out, the packaged task stays out. -/
theorem keptPlaces_packaged_ne_plain :
    ¬ ∀ (cfg : Config) (taskQueue : List (Task Nat)) (task : Nat), 1 ≤ cfg.maxQueueSize →
      cfg.keptPlaces taskQueue (.packaged task) = cfg.keptPlaces taskQueue (.plain task) := by
  intro h
  have hfull : (⟨1, 2, .dropOldest⟩ : Config).keptPlaces [.plain 5, .plain 6] (.packaged 7) ≠
      (⟨1, 2, .dropOldest⟩ : Config).keptPlaces [.plain 5, .plain 6] (.plain 7) := by decide
  exact hfull (h ⟨1, 2, .dropOldest⟩ [.plain 5, .plain 6] 7 (by decide))

end Config

end OctopusIpc.Pool

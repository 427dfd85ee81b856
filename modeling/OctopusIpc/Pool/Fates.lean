import Mathlib.Data.List.Count
import OctopusIpc.Base.Lifecycle
import OctopusIpc.Pool.Carried
import OctopusIpc.Pool.Shutdown

/-!
# What becomes of a submission

The life of a submission is that of an item of the queue, and once it is off the queue it is
in the hands of one worker until it has been executed.
-/

namespace OctopusIpc.Pool

variable {τ : Type}

/-- What has become of a submission. -/
inductive Fate where
  | unsubmitted
  | queued
  | inHand
  | executed
  | discarded
  deriving DecidableEq, Repr

/-- The ways a submission may go, or stay where it is. -/
inductive Fate.Next : Fate → Fate → Prop
  | stay (fate : Fate) : Next fate fate
  | accept : Next unsubmitted queued
  | refuse : Next unsubmitted discarded
  | displace : Next queued discarded
  | take : Next queued inHand
  | finish : Next inHand executed

/-- The stage of an item of the queue. -/
def Fate.stage : Fate → BoundedFifo.Stage
  | unsubmitted => .absent
  | queued => .queued
  | inHand | executed => .taken
  | discarded => .discarded

namespace ThreadPool

variable {cfg : Config} {s s' : ThreadPool τ} {a : Action τ} {id : Nat} {fate fate' : Fate}

/-- What has become of the submission with this place in the order of submissions. -/
def HasFate (cfg : Config) (s : ThreadPool τ) (id : Nat) : Fate → Prop
  | .unsubmitted => s.log.length ≤ id
  | .queued => id ∈ s.taskQueue.map Job.id
  | .inHand => id ∈ s.inHand.map Job.id
  | .executed => id ∈ s.executed.map Job.id
  | .discarded => id ∈ s.victims cfg

instance (id : Nat) : (fate : Fate) → Decidable (s.HasFate cfg id fate)
  | .unsubmitted => Nat.decLe ..
  | .queued | .inHand | .executed | .discarded => inferInstanceAs (Decidable (_ ∈ _))

/-! ### Off the queue -/

/-- How many workers have a submission in hand. -/
private theorem count_inHand (s : ThreadPool τ) (id : Nat) :
    (s.inHand.map Job.id).count id = s.workers.countP (WorkerPc.carries id) := by
  rw [inHand, List.count_eq_countP, List.countP_map, List.countP_filterMap]
  refine List.countP_congr fun pc _ ↦ ?_
  cases pc <;> simp [WorkerPc.job, WorkerPc.carries]

/-- What left the queue is in hand or executed, nothing of it twice. -/
theorem perm_dequeued (h : (system cfg).Reachable s) :
    (s.executed.map Job.id ++ s.inHand.map Job.id).Perm (s.dequeued.map Job.id) := by
  refine List.perm_iff_count.mpr fun id ↦ ?_
  have hcarried := carriedOk_of_reachable h id
  simp only [List.count_append, count_inHand]
  simp only [List.count_eq_countP, List.countP_map, Function.comp_def]
  exact hcarried.symm

/-- Whoever has a submission in hand, nobody else has and it has not been executed. -/
theorem nodup_executed_inHand (h : (system cfg).Reachable s) :
    (s.executed.map Job.id ++ s.inHand.map Job.id).Nodup := by
  rw [(perm_dequeued h).nodup_iff]
  exact (fifo_reachable h).wf.nodup_taken

/-! ### One fate -/

/-- A fate is a stage of the queue, that of a taken item being one of two. -/
private theorem at_iff (h : (system cfg).Reachable s) (stage : BoundedFifo.Stage) :
    BoundedFifo.At Job.id (s.fifo cfg) id stage ↔
      ∃ fate, s.HasFate cfg id fate ∧ fate.stage = stage := by
  have hnumbered : s.submissions.map Job.id = List.range s.log.length := numbered_of_reachable h
  have htaken : id ∈ s.dequeued.map Job.id ↔
      id ∈ s.executed.map Job.id ∨ id ∈ s.inHand.map Job.id := by
    rw [← (perm_dequeued h).mem_iff, List.mem_append]
  cases stage with
  | absent =>
    have habsent : id ∉ s.submissions.map Job.id ↔ s.log.length ≤ id := by
      rw [hnumbered, List.mem_range, Nat.not_lt]
    constructor
    · intro hat
      exact ⟨.unsubmitted, habsent.mp hat, rfl⟩
    · rintro ⟨fate, hfate, hstage⟩
      cases fate <;> cases hstage
      exact habsent.mpr hfate
  | queued =>
    constructor
    · intro hat
      exact ⟨.queued, hat, rfl⟩
    · rintro ⟨fate, hfate, hstage⟩
      cases fate <;> cases hstage
      exact hfate
  | taken =>
    constructor
    · intro hat
      rcases htaken.mp hat with hexecuted | hhand
      · exact ⟨.executed, hexecuted, rfl⟩
      · exact ⟨.inHand, hhand, rfl⟩
    · rintro ⟨fate, hfate, hstage⟩
      cases fate <;> cases hstage
      · exact htaken.mpr (.inr hfate)
      · exact htaken.mpr (.inl hfate)
  | discarded =>
    constructor
    · intro hat
      exact ⟨.discarded, hat, rfl⟩
    · rintro ⟨fate, hfate, hstage⟩
      cases fate <;> cases hstage
      exact hfate

/-- In every run each submission has one fate. -/
theorem existsUnique_hasFate (h : (system cfg).Reachable s) (id : Nat) :
    ∃! fate, s.HasFate cfg id fate := by
  obtain ⟨stage, hat, hunique⟩ := (fifo_reachable h).wf.existsUnique_at id
  obtain ⟨fate, hfate, rfl⟩ := (at_iff h stage).mp hat
  refine ⟨fate, hfate, fun fate' hfate' ↦ ?_⟩
  have hstage : fate'.stage = fate.stage :=
    hunique _ ((at_iff h _).mpr ⟨fate', hfate', rfl⟩)
  have hdisjoint := (List.nodup_append.mp (nodup_executed_inHand h)).2.2
  cases fate <;> cases fate' <;> first
    | rfl
    | exact absurd rfl (hdisjoint id hfate id hfate')
    | exact absurd rfl (hdisjoint id hfate' id hfate)
    | cases hstage

/-! ### All of them -/

/-- The submissions that were discarded. -/
def discarded (cfg : Config) (s : ThreadPool τ) : List (Job τ) :=
  s.submissions.filter fun job ↦ job.id ∈ s.victims cfg

/-- What has been executed has left the queue. -/
private theorem mem_dequeued_of_executed (h : (system cfg).Reachable s) {job : Job τ}
    (hjob : job ∈ s.executed) : job ∈ s.dequeued := by
  refine h.invariant_of_reachable (I := fun t ↦ ∀ job ∈ t.executed, job ∈ t.dequeued)
    (fun _ hmem ↦ absurd hmem List.not_mem_nil) (fun t a t' ht hi _ hs job hmem ↦ ?_) job hjob
  cases step_of_eq_some hs with
  | take w job' queue hw hq => exact List.mem_append_left _ (hi job hmem)
  | finish w outcome job' hw =>
    rcases List.mem_append.mp hmem with hmem | hmem
    · exact hi job hmem
    · cases List.mem_singleton.mp hmem
      have hcarries : Carries t w job := ⟨_, hw, rfl⟩
      exact show job ∈ t.dequeued from mem_dequeued_of_carries ht hcarries
  | _ => exact hi job hmem

/-- The jobs that left the queue are those executed and in hand. -/
private theorem perm_dequeued_jobs (h : (system cfg).Reachable s) :
    (s.executed ++ s.inHand).Perm s.dequeued := by
  have hnodup : (s.dequeued.map Job.id).Nodup := (fifo_reachable h).wf.nodup_taken
  have hmem {job : Job τ} (hjob : job ∈ s.executed ++ s.inHand) : job ∈ s.dequeued := by
    rcases List.mem_append.mp hjob with hjob | hjob
    · exact mem_dequeued_of_executed h hjob
    · obtain ⟨w, hcarries⟩ := mem_inHand.mp hjob
      exact mem_dequeued_of_carries h hcarries
  have hsplit : ((s.executed ++ s.inHand).map Job.id).Nodup := by
    rw [List.map_append]
    exact nodup_executed_inHand h
  refine (List.perm_ext_iff_of_nodup hsplit.of_map hnodup.of_map).mpr fun job ↦
    ⟨hmem, fun hjob ↦ ?_⟩
  have hid : job.id ∈ (s.executed ++ s.inHand).map Job.id := by
    rw [List.map_append, (perm_dequeued h).mem_iff]
    exact List.mem_map_of_mem hjob
  obtain ⟨job', hjob', heq⟩ := List.mem_map.mp hid
  exact List.inj_on_of_nodup_map hnodup (hmem hjob') hjob heq ▸ hjob'

/-- In every run the submissions are those of each fate together, nothing of them twice. -/
theorem perm_submissions (h : (system cfg).Reachable s) :
    (s.taskQueue ++ s.inHand ++ s.executed ++ s.discarded cfg).Perm s.submissions := by
  have horder : s.dequeued ++ s.taskQueue = s.survivors cfg := (fifo_reachable h).wf.order
  have hsurvivors : (s.survivors cfg ++ s.discarded cfg).Perm s.submissions := by
    have hfilter := List.filter_append_perm (fun job ↦ decide (job.id ∈ s.victims cfg))
      s.submissions
    simp only [← decide_not] at hfilter
    exact List.perm_append_comm.trans hfilter
  refine List.Perm.trans ?_ hsurvivors
  rw [← horder, List.append_assoc s.taskQueue]
  refine List.Perm.append_right _ (List.perm_append_comm.trans ?_)
  exact (List.perm_append_comm.trans (perm_dequeued_jobs h)).append_right _

/-! ### One step -/

/-- A worker takes from the queue. -/
private theorem mem_taskQueue_of_dequeued (hs : Step cfg s a s') {job : Job τ}
    (h : s'.dequeued = s.dequeued ++ [job]) : job ∈ s.taskQueue := by
  have hne : s.dequeued ≠ s.dequeued ++ [job] := fun heq ↦ by simp at heq
  cases hs with
  | take w job' queue hw hq =>
    have hjob : job' = job := by simpa using h
    rw [hq, hjob]
    exact List.mem_cons_self
  | _ => exact absurd h hne

/-- What is in hand after a step was so before or was queued. -/
private theorem inHand_of_step (hs : Step cfg s a s') (h : s'.HasFate cfg id .inHand) :
    s.HasFate cfg id .inHand ∨ s.HasFate cfg id .queued := by
  obtain ⟨job, hjob, rfl⟩ := List.mem_map.mp h
  obtain ⟨w, hcarries⟩ := mem_inHand.mp hjob
  rcases carries_of_step hcarries hs with hcarries | hdequeued
  · exact .inl (List.mem_map_of_mem (mem_inHand.mpr ⟨w, hcarries⟩))
  · exact .inr (List.mem_map_of_mem (mem_taskQueue_of_dequeued hs hdequeued))

/-- What has been executed after a step was so before or was in hand. -/
private theorem executed_of_step (hs : Step cfg s a s') (h : s'.HasFate cfg id .executed) :
    s.HasFate cfg id .executed ∨ s.HasFate cfg id .inHand := by
  cases hs with
  | finish w outcome job hw =>
    obtain ⟨job', hjob, rfl⟩ := List.mem_map.mp h
    rcases List.mem_append.mp hjob with hjob | hjob
    · exact .inl (List.mem_map_of_mem hjob)
    · cases List.mem_singleton.mp hjob
      exact .inr (List.mem_map_of_mem (mem_inHand.mpr ⟨w, _, hw, rfl⟩))
  | _ => exact .inl h

/-- After a step the stage of a submission is one the queue could have led it to. -/
private theorem exists_stage_of_step (h : (system cfg).Reachable s) (hs : Step cfg s a s')
    {stage' : BoundedFifo.Stage} (hat : BoundedFifo.At Job.id (s'.fifo cfg) id stage') :
    ∃ stage, BoundedFifo.At Job.id (s.fifo cfg) id stage ∧ stage.Next stage' := by
  rcases (numbered_of_reachable h).fifo_step hs with heq | hstep
  · rw [heq] at hat
    exact ⟨stage', hat, .stay stage'⟩
  · exact hstep.exists_at hat

/-- After a step a submission has a fate it could go to from the one it had. -/
private theorem exists_hasFate_of_step (h : (system cfg).Reachable s)
    (hs : (system cfg).step s a = some s') (hfate' : s'.HasFate cfg id fate') :
    ∃ fate, s.HasFate cfg id fate ∧ fate.Next fate' := by
  have hstep := step_of_eq_some hs
  have hat := (at_iff (h.step trivial hs) _).mpr ⟨fate', hfate', rfl⟩
  obtain ⟨stage, hat, hnext⟩ := exists_stage_of_step h hstep hat
  obtain ⟨fate, hfate, rfl⟩ := (at_iff h stage).mp hat
  cases fate' with
  | inHand =>
    rcases inHand_of_step hstep hfate' with hhand | hqueued
    · exact ⟨.inHand, hhand, .stay _⟩
    · exact ⟨.queued, hqueued, .take⟩
  | executed =>
    rcases executed_of_step hstep hfate' with hexecuted | hhand
    · exact ⟨.executed, hexecuted, .stay _⟩
    · exact ⟨.inHand, hhand, .finish⟩
  | unsubmitted =>
    refine ⟨fate, hfate, ?_⟩
    cases fate <;> cases hnext
    exact .stay _
  | queued =>
    refine ⟨fate, hfate, ?_⟩
    cases fate <;> cases hnext <;> constructor
  | discarded =>
    refine ⟨fate, hfate, ?_⟩
    cases fate <;> cases hnext <;> constructor

/-- In every run each submission has one fate, which a step of any thread changes to the next
one at most: what has been accepted is executed once or given up for a newer submission while
it is still queued, and what is executed or discarded stays so. -/
theorem fate_of_reachable (h : (system cfg).Reachable s) (id : Nat) :
    (∃! fate, s.HasFate cfg id fate) ∧
      ∀ a s' fate fate', (system cfg).step s a = some s' → s.HasFate cfg id fate →
        s'.HasFate cfg id fate' → fate.Next fate' := by
  have hunique := existsUnique_hasFate h id
  refine ⟨hunique, fun a s' fate fate' hs hfate hfate' ↦ ?_⟩
  obtain ⟨before, hbefore, hnext⟩ := exists_hasFate_of_step h hs hfate'
  rw [hunique.unique hfate hbefore]
  exact hnext

/-- A packaged task in a queue of one is given up for a plain one. -/
theorem fate_dropOldestRun :
    ∃ s s' : ThreadPool Nat, (system ⟨1, 1, .dropOldest⟩).Reachable s ∧
      (system ⟨1, 1, .dropOldest⟩).step s (.submit 0) = some s' ∧
      s.HasFate ⟨1, 1, .dropOldest⟩ 0 .queued ∧ s'.HasFate ⟨1, 1, .dropOldest⟩ 0 .discarded ∧
      Fate.Next .queued .discarded ∧ ¬ s'.HasFate ⟨1, 1, .dropOldest⟩ 0 .executed := by
  have hrun : ∃ s, (system ⟨1, 1, .dropOldest⟩).run (fun _ _ ↦ True) (init ⟨1, 1, .dropOldest⟩)
      [.call 0 (.packaged 7), .submit 0, .notifyOne 0 0, .call 0 (.plain 8)] = some s ∧
      s.HasFate ⟨1, 1, .dropOldest⟩ 0 .queued ∧
      ∃ s', (system ⟨1, 1, .dropOldest⟩).step s (.submit 0) = some s' ∧
        s'.HasFate ⟨1, 1, .dropOldest⟩ 0 .discarded :=
    ⟨_, rfl, by decide, _, rfl, by decide⟩
  obtain ⟨s, hs, hqueued, s', hstep, hdiscarded⟩ := hrun
  have hreach : (system ⟨1, 1, .dropOldest⟩).Reachable s := StepSystem.reachableUnder_of_run hs
  obtain ⟨-, hnext⟩ := fate_of_reachable hreach 0
  obtain ⟨hunique, -⟩ := fate_of_reachable (hreach.step trivial hstep) 0
  refine ⟨s, s', hreach, hstep, hqueued, hdiscarded, hnext _ _ _ _ hstep hqueued hdiscarded, ?_⟩
  exact fun hexecuted ↦ absurd (hunique.unique hexecuted hdiscarded) (by decide)

end ThreadPool

end OctopusIpc.Pool

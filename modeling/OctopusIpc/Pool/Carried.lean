import OctopusIpc.Pool.Fifo

/-!
# Tasks off the queue

A task that has left the queue is in the hands of a worker until its call ends, and the tasks
have left the queue in the order of their submission.
-/

namespace OctopusIpc.Pool

variable {τ : Type}

/-- The job a worker has off the queue. -/
def WorkerPc.job : WorkerPc τ → Option (Job τ)
  | holding job | executing job => some job
  | _ => none

namespace ThreadPool

variable {cfg : Config} {s s' : ThreadPool τ} {a : Action τ} {w v : Nat} {job : Job τ}
  {pc pc' : WorkerPc τ}

/-- A worker has this job off the queue. -/
def Carries (s : ThreadPool τ) (w : Nat) (job : Job τ) : Prop :=
  ∃ pc, s.workers[w]? = some pc ∧ pc.job = some job

/-- The jobs the workers have off the queue. -/
def inHand (s : ThreadPool τ) : List (Job τ) := s.workers.filterMap WorkerPc.job

theorem mem_inHand : job ∈ s.inHand ↔ ∃ w, Carries s w job := by
  rw [inHand, List.mem_filterMap]
  constructor
  · rintro ⟨pc, hpc, hjob⟩
    obtain ⟨w, hw⟩ := List.mem_iff_getElem?.mp hpc
    exact ⟨w, pc, hw, hjob⟩
  · rintro ⟨w, pc, hw, hjob⟩
    exact ⟨pc, List.mem_of_getElem? hw, hjob⟩

/-- A worker that goes on keeps what it carries if it carried nothing or carries the same. -/
private theorem Carries.setWorker (h : Carries s v job) (hw : s.workers[w]? = some pc)
    (hpc : pc.job = none ∨ pc'.job = pc.job) : Carries (s.setWorker w pc') v job := by
  obtain ⟨x, hx, hjob⟩ := h
  by_cases hv : v = w
  · subst hv
    cases hw.symm.trans hx
    refine ⟨pc', List.getElem?_set_self (List.getElem?_eq_some_iff.mp hw).1, ?_⟩
    rcases hpc with hnone | hsame
    · cases hnone.symm.trans hjob
    · rw [hsame, hjob]
  · exact ⟨x, (List.getElem?_set_ne (Ne.symm hv)).trans hx, hjob⟩

/-- What a worker carries stays in its hands until it ends the call. -/
theorem Carries.step (h : Carries s v job) (hs : Step cfg s a s')
    (ha : ∀ outcome, a ≠ .finish v outcome) : Carries s' v job := by
  cases hs with
  | call | submitWaits | submitted | lost | removeThreads | clear | join => exact h
  | woken p w pc hp hw => exact Carries.setWorker (s := s.setCaller p pc) h hw (.inl rfl)
  | addThreads count hm =>
    obtain ⟨x, hx, hjob⟩ := h
    exact ⟨x, List.getElem?_append_left (List.getElem?_eq_some_iff.mp hx).1 ▸ hx, hjob⟩
  | enter w hw | leave w hw | pass w hw | fail w hw | wake w hw => exact h.setWorker hw (.inl rfl)
  | lock w hm hw => exact hw.elim (h.setWorker · (.inl rfl)) (h.setWorker · (.inl rfl))
  | block w hw | stop w hw | shrink w hw | take w job queue hw => exact h.setWorker hw (.inl rfl)
  | begin w job hw => exact h.setWorker hw (.inr rfl)
  | finish w outcome job' hw =>
    obtain ⟨x, hx, hjob⟩ := h
    have hne : v ≠ w := fun hv ↦ ha outcome (congrArg (Action.finish · outcome) hv.symm)
    exact ⟨x, (List.getElem?_set_ne hne.symm).trans hx, hjob⟩
  | notifyAll hd =>
    obtain ⟨x, hx, hjob⟩ := h
    refine ⟨x.notify, ?_, ?_⟩
    · rw [List.getElem?_map, hx]
      rfl
    · cases x <;> exact hjob

/-- A worker that goes on to a place without a job carries nothing new. -/
private theorem carries_of_setWorker (h : Carries (s.setWorker w pc) v job)
    (hpc : pc.job = none) : Carries s v job := by
  obtain ⟨x, hx, hjob⟩ := h
  rcases of_setWorker hx with ⟨-, rfl⟩ | ⟨-, hx⟩
  · cases hpc.symm.trans hjob
  · exact ⟨x, hx, hjob⟩

/-- What a worker carries after a step it carried before, unless it has just taken it. -/
theorem carries_of_step (h : Carries s' v job) (hs : Step cfg s a s') :
    Carries s v job ∨ s'.dequeued = s.dequeued ++ [job] := by
  cases hs with
  | call | submitWaits | submitted | lost | removeThreads | clear | join => exact .inl h
  | woken p w pc hp hw => exact .inl (carries_of_setWorker (s := s.setCaller p pc) h rfl)
  | addThreads count hm =>
    obtain ⟨x, hx, hjob⟩ := h
    rcases of_addThreads hx with rfl | hx
    · cases hjob
    · exact .inl ⟨x, hx, hjob⟩
  | enter | leave | lock | pass | fail | block | wake | stop | shrink | finish =>
    exact .inl (carries_of_setWorker h rfl)
  | take w job' queue hw hq =>
    obtain ⟨x, hx, hjob⟩ := h
    rcases of_setWorker hx with ⟨-, rfl⟩ | ⟨-, hx⟩
    · cases hjob
      exact .inr rfl
    · exact .inl ⟨x, hx, hjob⟩
  | begin w job' hw =>
    obtain ⟨x, hx, hjob⟩ := h
    rcases of_setWorker hx with ⟨rfl, rfl⟩ | ⟨-, hx⟩
    · exact .inl ⟨_, hw, hjob⟩
    · exact .inl ⟨x, hx, hjob⟩
  | notifyAll hd =>
    obtain ⟨x, hx, hjob⟩ := h
    rw [List.getElem?_map, Option.map_eq_some_iff] at hx
    obtain ⟨y, hy, rfl⟩ := hx
    refine .inl ⟨y, hy, ?_⟩
    cases y <;> exact hjob

/-- A job that leaves the queue goes into the hands of a worker. -/
theorem dequeued_of_step (hs : Step cfg s a s') :
    s'.dequeued = s.dequeued ∨
      ∃ w job, s'.dequeued = s.dequeued ++ [job] ∧ Carries s' w job := by
  cases hs with
  | take w job queue hw hq =>
    have hset := List.getElem?_set_self (a := WorkerPc.holding job)
      (List.getElem?_eq_some_iff.mp hw).1
    exact .inr ⟨w, job, rfl, _, hset, rfl⟩
  | _ => exact .inl rfl

/-- What is carried has left the queue. -/
theorem mem_dequeued_of_carries (h : (system cfg).Reachable s) (hc : Carries s v job) :
    job ∈ s.dequeued := by
  refine h.invariant (I := fun t ↦ ∀ v job, Carries t v job → job ∈ t.dequeued) ?_ ?_ v job hc
  · rintro v job ⟨x, hx, hjob⟩
    have houter := List.eq_of_mem_replicate (List.mem_of_getElem? hx)
    subst houter
    cases hjob
  · intro t a t' hi _ hs v job hc
    have hstep := step_of_eq_some hs
    rcases carries_of_step hc hstep with hc | hdequeued
    · rcases dequeued_of_step hstep with heq | ⟨w, job', heq, -⟩
      · rw [heq]
        exact hi v job hc
      · rw [heq]
        exact List.mem_append_left _ (hi v job hc)
    · rw [hdequeued]
      exact List.mem_append_right _ (List.mem_singleton_self _)

/-- The jobs have left the queue in the order of submission. -/
theorem dequeued_prefix_survivors (h : (system cfg).Reachable s) :
    s.dequeued <+: s.survivors cfg := by
  have horder : s.dequeued ++ s.taskQueue = s.survivors cfg := (fifo_reachable h).wf.order
  exact ⟨s.taskQueue, horder⟩

/-- Where nothing was discarded the submissions all survive. -/
theorem survivors_of_victims_nil (h : s.victims cfg = []) : s.survivors cfg = s.submissions := by
  refine List.filter_eq_self.mpr fun job _ ↦ decide_eq_true ?_
  rw [h]
  exact List.not_mem_nil

/-- The jobs have left the queue in the order of their numbers. -/
theorem dequeued_sorted (h : (system cfg).Reachable s) :
    s.dequeued.Pairwise fun job job' ↦ job.id < job'.id := by
  have hsubmissions : s.submissions.Pairwise fun job job' ↦ job.id < job'.id := by
    refine List.pairwise_map.mp ?_
    rw [numbered_of_reachable h]
    exact List.pairwise_lt_range
  refine hsubmissions.sublist ?_
  exact (dequeued_prefix_survivors h).sublist.trans List.filter_sublist

end ThreadPool

end OctopusIpc.Pool

import OctopusIpc.Pool.Fifo

/-!
# Shutting the pool down

A worker that returns from a task tests `is_running_` before it looks at the queue again, so
after the destructor cleared the flag each worker takes at most one more task, and only if
it was past that test. The queue is drained exactly when there are enough of these.
-/

namespace OctopusIpc.Pool

variable {τ : Type}

namespace WorkerPc

/-- Past the test of the loop and without a task: the worker looks at the queue once more. -/
def inBody : WorkerPc τ → Bool
  | acquire | testing | parking | blocked | notified | checking => true
  | _ => false

/-- The worker has the task with this place in the order of submissions. -/
def carries (id : Nat) : WorkerPc τ → Bool
  | holding job | executing job => job.id == id
  | _ => false

/-- Outside the body of the loop. -/
def isOutside : WorkerPc τ → Bool
  | outer | exited => true
  | _ => false

end WorkerPc

namespace ThreadPool

variable {cfg : Config} {s s' : ThreadPool τ} {a : Action τ} {w : Nat} {pc pc' : WorkerPc τ}

/-- How many workers look at the queue once more. -/
def takers (s : ThreadPool τ) : Nat := s.workers.countP WorkerPc.inBody

/-- There is a worker for each queued task. -/
def Balanced (s : ThreadPool τ) : Prop := s.taskQueue.length ≤ s.takers

instance (s : ThreadPool τ) : Decidable s.Balanced := Nat.decLe ..

/-- How often the task of a submission was executed. -/
def timesExecuted (s : ThreadPool τ) (job : Job τ) : Nat :=
  s.executed.countP fun x ↦ x.id == job.id

/-- Each submission that was not discarded has been executed exactly once. -/
def Drained (cfg : Config) (s : ThreadPool τ) : Prop :=
  ∀ job ∈ s.survivors cfg, s.timesExecuted job = 1

/-- Nothing is submitted once the destructor began, and it begins in a state in which `P`
holds. -/
def QuietFrom (P : ThreadPool τ → Prop) (s : ThreadPool τ) : Action τ → Prop
  | .submit _ => s.destructor = .alive
  | .clear => P s
  | _ => True

instance (P : ThreadPool τ → Prop) [DecidablePred P] (s : ThreadPool τ) :
    (a : Action τ) → Decidable (QuietFrom P s a)
  | .submit _ => inferInstanceAs (Decidable (s.destructor = .alive))
  | .clear => inferInstanceAs (Decidable (P s))
  | .call _ _ | .notifyOne _ _ | .addThreads _ | .removeThreads _ _ | .loopTest _ | .lock _
  | .test _ | .block _ | .wake _ | .take _ | .begin _ | .finish _ _ | .notifyAll | .join =>
    inferInstanceAs (Decidable True)

/-! ### Counting workers -/

/-- A worker that goes on counts at its new place and no more at its old one. -/
theorem countP_setWorker (hw : s.workers[w]? = some pc) (p : WorkerPc τ → Bool) :
    (s.setWorker w pc').workers.countP p + (p pc).toNat = s.workers.countP p + (p pc').toNat := by
  obtain ⟨hlt, rfl⟩ := List.getElem?_eq_some_iff.mp hw
  have hpos : (p s.workers[w]).toNat ≤ s.workers.countP p := by
    cases hp : p s.workers[w] with
    | false => exact Nat.zero_le _
    | true => exact List.countP_pos_iff.mpr ⟨_, List.getElem_mem hlt, hp⟩
  have hset : (s.setWorker w pc').workers.countP p =
      s.workers.countP p - (p s.workers[w]).toNat + (p pc').toNat := by
    rw [setWorker, List.countP_set hlt]
    cases p s.workers[w] <;> cases p pc' <;> rfl
  omega

/-- A worker that counts as before leaves the number as it is. -/
theorem countP_setWorker_of_eq (hw : s.workers[w]? = some pc) {p : WorkerPc τ → Bool}
    (hp : p pc' = p pc) : (s.setWorker w pc').workers.countP p = s.workers.countP p := by
  have h : (s.setWorker w pc').workers.countP p + (p pc).toNat =
      s.workers.countP p + (p pc').toNat := countP_setWorker hw p
  rw [hp] at h
  exact Nat.add_right_cancel h

/-- Added threads count where a worker before its loop does. -/
theorem countP_addThreads {p : WorkerPc τ → Bool} (hp : p .outer = false) (count : Nat) :
    (s.addThreads count).workers.countP p = s.workers.countP p := by
  rw [addThreads, List.countP_append, List.countP_replicate, hp]
  rfl

/-- A notification changes neither what a worker has nor whether it is in the loop. -/
theorem countP_notifyAll {p : WorkerPc τ → Bool} (hp : ∀ x : WorkerPc τ, p x.notify = p x) :
    (s.workers.map WorkerPc.notify).countP p = s.workers.countP p := by
  rw [List.countP_map]
  exact List.countP_congr fun x _ ↦ by rw [Function.comp_apply, hp]

/-! ### What the workers carry -/

/-- A dequeued task has been executed or is in the hands of a worker. -/
def CarriedOk (s : ThreadPool τ) : Prop :=
  ∀ id, s.dequeued.countP (fun x ↦ x.id == id) =
    s.executed.countP (fun x ↦ x.id == id) + s.workers.countP (WorkerPc.carries id)

theorem carriedOk_init : CarriedOk (init cfg : ThreadPool τ) := by
  intro id
  have hnone : (init cfg : ThreadPool τ).workers.countP (WorkerPc.carries id) = 0 := by
    rw [init, List.countP_replicate]
    rfl
  rw [hnone]
  rfl

private theorem countP_id_singleton (job : Job τ) (id : Nat) :
    [job].countP (fun x ↦ x.id == id) = (job.id == id).toNat := by
  rw [List.countP_singleton]
  cases job.id == id <;> rfl

/-- No step loses a dequeued task. -/
theorem CarriedOk.step (h : CarriedOk s) (hs : Step cfg s a s') : CarriedOk s' := by
  intro id
  have hid := h id
  have hset {w : Nat} {pc pc' : WorkerPc τ} (hw : s.workers[w]? = some pc)
      (hp : pc'.carries id = pc.carries id) :
      s.dequeued.countP (fun x ↦ x.id == id) = s.executed.countP (fun x ↦ x.id == id) +
        (s.setWorker w pc').workers.countP (WorkerPc.carries id) := by
    rw [countP_setWorker_of_eq hw hp]
    exact hid
  cases hs with
  | call | submitWaits | submitted | lost | removeThreads | clear | join => exact hid
  | addThreads count =>
    rw [countP_addThreads rfl]
    exact hid
  | woken p w pc hp hw | enter w hw | leave w hw | pass w hw | fail w hw | block w hw | wake w hw
  | stop w hw | shrink w hw | begin w job hw => exact hset hw rfl
  | lock w hm hw => exact hw.elim (hset · rfl) (hset · rfl)
  | take w job queue hw hq =>
    have hcount : (s.setWorker w (.holding job)).workers.countP (WorkerPc.carries id) =
        s.workers.countP (WorkerPc.carries id) + (job.id == id).toNat :=
      countP_setWorker hw (WorkerPc.carries id)
    show (s.dequeued ++ [job]).countP _ =
      s.executed.countP _ + (s.setWorker w (.holding job)).workers.countP _
    rw [List.countP_append, countP_id_singleton, hcount, hid]
    omega
  | finish w outcome job hw =>
    have hcount : (s.setWorker w .outer).workers.countP (WorkerPc.carries id) +
        (job.id == id).toNat = s.workers.countP (WorkerPc.carries id) :=
      countP_setWorker hw (WorkerPc.carries id)
    show s.dequeued.countP _ =
      (s.executed ++ [job]).countP _ + (s.setWorker w .outer).workers.countP _
    rw [List.countP_append, countP_id_singleton, hid]
    omega
  | notifyAll hd =>
    have hnotify := countP_notifyAll (s := s) (p := WorkerPc.carries id) (by rintro ⟨⟩ <;> rfl)
    simp only [hnotify]
    exact hid

/-! ### Who is left to take -/

/-- Once the destructor began and nothing is submitted, the balance of tasks and workers
stays as it is. -/
theorem Step.balanced_iff (hs : Step cfg s a s') (hc : ClearedOk s) (hd : s.destructor ≠ .alive)
    (hquiet : ∀ p, a ≠ .submit p) : s'.Balanced ↔ s.Balanced := by
  have hr := hc hd
  have hset {w : Nat} {pc pc' : WorkerPc τ} (hw : s.workers[w]? = some pc)
      (hp : pc'.inBody = pc.inBody) : (s.setWorker w pc').Balanced ↔ s.Balanced := by
    unfold Balanced takers
    rw [countP_setWorker_of_eq hw hp]
    rfl
  cases hs with
  | call | submitWaits | lost | removeThreads | clear | join => exact Iff.rfl
  | submitted p => exact absurd rfl (hquiet p)
  | addThreads count =>
    unfold Balanced takers
    rw [countP_addThreads rfl]
    rfl
  | woken p w pc hp hw | leave w hw | pass w hw | fail w hw | block w hw | wake w hw
  | begin w job hw | finish w outcome job hw => exact hset hw rfl
  | lock w hm hw => exact hw.elim (hset · rfl) (hset · rfl)
  | enter w hw hr' => cases hr.symm.trans hr'
  | stop w hw hq =>
    show s.taskQueue.length ≤ _ ↔ s.taskQueue.length ≤ _
    rw [hq]
    exact iff_of_true (Nat.zero_le _) (Nat.zero_le _)
  | shrink w hw hq hr' => cases hr.symm.trans hr'
  | take w job queue hw hq =>
    have hcount : (s.setWorker w (.holding job)).workers.countP WorkerPc.inBody + 1 =
        s.workers.countP WorkerPc.inBody := countP_setWorker hw WorkerPc.inBody
    show queue.length ≤ (s.setWorker w (.holding job)).workers.countP _ ↔
      s.taskQueue.length ≤ s.workers.countP _
    rw [hq, List.length_cons]
    omega
  | notifyAll hd =>
    have hnotify := countP_notifyAll (s := s) (p := WorkerPc.inBody) (by rintro ⟨⟩ <;> rfl)
    simp only [Balanced, takers, hnotify]

/-- Once the destructor has returned, every worker is outside its loop. -/
def OutsideOk (s : ThreadPool τ) : Prop :=
  s.destructor = .returned → ∀ x ∈ s.workers, x.isOutside = true

theorem outsideOk_init : OutsideOk (init cfg : ThreadPool τ) := fun h ↦ nomatch h

/-- The joins end when every worker has returned, and nobody enters the loop after that. -/
theorem OutsideOk.step (h : OutsideOk s) (hc : ClearedOk s) (hs : Step cfg s a s') :
    OutsideOk s' := by
  have hno {w : Nat} {pc : WorkerPc τ} (hd : s.destructor = .returned)
      (hw : s.workers[w]? = some pc) : pc.isOutside = true :=
    h hd pc (List.mem_of_getElem? hw)
  intro hd
  cases hs with
  | call | submitWaits | submitted | lost | removeThreads => exact h hd
  | addThreads => exact forall_addThreads (h hd) rfl
  | leave => exact forall_setWorker (h hd) rfl
  | enter w hw hr => cases hr.symm.trans (hc fun halive ↦ nomatch halive.symm.trans hd)
  | woken p w pc hp hw | pass w hw | fail w hw | block w hw | wake w hw | stop w hw
  | shrink w hw | take w job queue hw | begin w job hw | finish w outcome job hw =>
    cases hno hd hw
  | lock w hm hw => exact hw.elim (fun hw ↦ nomatch hno hd hw) (fun hw ↦ nomatch hno hd hw)
  | clear | notifyAll => cases hd
  | join hjoin hexited =>
    intro x hx
    obtain ⟨w, hw⟩ := List.mem_iff_getElem?.mp hx
    rw [hexited w x hw]
    rfl

/-! ### What is executed -/

/-- The destructor begins by clearing the flag. -/
theorem Step.eq_clear (hs : Step cfg s a s') (hd : s.destructor = .alive)
    (hd' : s'.destructor ≠ .alive) :
    a = .clear ∧ s' = { s with isRunning := false, destructor := .cleared } := by
  cases hs with
  | clear => exact ⟨rfl, rfl⟩
  | notifyAll h => cases hd.symm.trans h
  | join h => cases hd.symm.trans h
  | _ => exact absurd hd hd'

/-- Without submissions after it began, the destructor sees the balance it began with. -/
theorem balanced_iff_of_quietFrom {b : Prop}
    (h : (system cfg).ReachableUnder (QuietFrom fun t ↦ (t.Balanced ↔ b)) s)
    (hd : s.destructor ≠ .alive) : s.Balanced ↔ b := by
  refine h.invariant_of_reachable (I := fun t ↦ t.destructor ≠ .alive → (t.Balanced ↔ b))
    (fun hd ↦ absurd rfl hd) (fun t a t' hr hi hg hs ↦ ?_) hd
  have hstep := step_of_eq_some hs
  intro hd'
  by_cases halive : t.destructor = .alive
  · obtain ⟨rfl, rfl⟩ := hstep.eq_clear halive hd'
    exact hg
  · refine (hstep.balanced_iff (clearedOk_of_reachable hr.reachable) halive ?_).trans (hi halive)
    rintro p rfl
    exact halive hg

/-- A worker outside its loop takes nothing and has nothing. -/
private theorem countP_eq_zero_of_outside (h : ∀ x ∈ s.workers, x.isOutside = true)
    {p : WorkerPc τ → Bool} (hp : ∀ x : WorkerPc τ, x.isOutside = true → p x = false) :
    s.workers.countP p = 0 :=
  List.countP_eq_zero.mpr fun x hx ↦ Bool.eq_false_iff.mp (hp x (h x hx))

theorem outsideOk_of_reachable (h : (system cfg).Reachable s) : OutsideOk s :=
  h.invariant_of_reachable outsideOk_init fun _ _ _ hr hi _ hs ↦
    hi.step (clearedOk_of_reachable hr) (step_of_eq_some hs)

theorem carriedOk_of_reachable (h : (system cfg).Reachable s) : CarriedOk s :=
  h.invariant carriedOk_init fun _ _ _ hi _ hs ↦ hi.step (step_of_eq_some hs)

/-- When the destructor has returned, each task that left the queue has been executed as
often as it left it. -/
theorem timesExecuted_of_returned (h : (system cfg).Reachable s) (hd : s.destructor = .returned)
    (job : Job τ) : s.timesExecuted job = s.dequeued.countP fun x ↦ x.id == job.id := by
  have hzero : s.workers.countP (WorkerPc.carries job.id) = 0 :=
    countP_eq_zero_of_outside (outsideOk_of_reachable h hd) (by rintro ⟨⟩ hx <;> first | rfl | cases hx)
  have hcarried := carriedOk_of_reachable h job.id
  rw [hzero, Nat.add_zero] at hcarried
  exact hcarried.symm

/-- When the destructor has returned, the tasks have all been executed if none is left. -/
theorem drained_iff_of_returned (h : (system cfg).Reachable s) (hd : s.destructor = .returned) :
    Drained cfg s ↔ s.taskQueue = [] := by
  have hwf := (fifo_reachable h).wf
  have horder : s.dequeued ++ s.taskQueue = s.survivors cfg := hwf.order
  have hcount (job : Job τ) : s.timesExecuted job = (s.dequeued.map Job.id).count job.id := by
    rw [timesExecuted_of_returned h hd, List.count_eq_countP, List.countP_map]
    rfl
  constructor
  · intro hdrained
    by_contra hne
    obtain ⟨job, hjob⟩ := List.exists_mem_of_ne_nil _ hne
    have hmem : job ∈ s.survivors cfg := horder ▸ List.mem_append_right _ hjob
    have hone : 0 < (s.dequeued.map Job.id).count job.id := by
      rw [← hcount, hdrained job hmem]
      exact Nat.one_pos
    have hnodup : ((s.dequeued ++ s.taskQueue).map Job.id).Nodup :=
      horder ▸ hwf.nodup_survivors
    rw [List.map_append, List.nodup_append] at hnodup
    exact hnodup.2.2 _ (List.count_pos_iff.mp hone) _ (List.mem_map_of_mem hjob) rfl
  · intro hempty job hjob
    rw [← horder, hempty, List.append_nil] at hjob
    rw [hcount]
    exact List.count_eq_one_of_mem hwf.nodup_taken (List.mem_map_of_mem hjob)

/-- When the destructor has returned, no worker is left for a queued task. -/
theorem balanced_iff_of_returned (h : (system cfg).Reachable s) (hd : s.destructor = .returned) :
    s.Balanced ↔ s.taskQueue = [] := by
  have hzero : s.takers = 0 :=
    countP_eq_zero_of_outside (outsideOk_of_reachable h hd) (by rintro ⟨⟩ hx <;> first | rfl | cases hx)
  rw [Balanced, hzero, Nat.le_zero, List.length_eq_zero_iff]

/-- A destructor after whose start nothing is submitted returns with every accepted task
executed exactly once if, when it clears the flag, there is a worker inside the loop for
each queued task, and otherwise leaves a task behind. -/
theorem drained_iff_balanced_at_clear :
    (∀ s : ThreadPool τ, (system cfg).ReachableUnder (QuietFrom fun t ↦ t.Balanced) s →
      s.destructor = .returned → Drained cfg s) ∧
    (∀ s : ThreadPool τ, (system cfg).ReachableUnder (QuietFrom fun t ↦ ¬ t.Balanced) s →
      s.destructor = .returned → ¬ Drained cfg s) := by
  have hmono {P : ThreadPool τ → Prop} {b : Prop} (hP : ∀ t, P t → (t.Balanced ↔ b))
      {s : ThreadPool τ} (h : (system cfg).ReachableUnder (QuietFrom P) s)
      (hd : s.destructor = .returned) : Drained cfg s ↔ b := by
    have hquiet : (system cfg).ReachableUnder (QuietFrom fun t ↦ (t.Balanced ↔ b)) s := by
      refine h.mono fun t a hg ↦ ?_
      cases a <;> first | exact hg | exact hP t hg
    rw [drained_iff_of_returned h.reachable hd, ← balanced_iff_of_returned h.reachable hd]
    exact balanced_iff_of_quietFrom hquiet (hd ▸ nofun)
  constructor
  · intro s h hd
    exact (hmono (fun t ht ↦ iff_true_intro ht) h hd).mpr trivial
  · intro s h hd hdrained
    exact (hmono (fun t ht ↦ iff_false_intro ht) h hd).mp hdrained

/-- Both workers are inside the loop when the destructor comes. -/
def twoTakers : List (Action Nat) :=
  [.call 0 (.plain 7), .submit 0, .notifyOne 0 0, .call 0 (.plain 8), .submit 0, .notifyOne 0 0,
    .loopTest 0, .loopTest 1, .clear, .notifyAll,
    .lock 0, .test 0, .take 0, .begin 0, .finish 0 .returned, .loopTest 0,
    .lock 1, .test 1, .take 1, .begin 1, .finish 1 .returned, .loopTest 1, .join]

/-- The only worker is inside a task when the destructor comes. -/
def leftBehind : List (Action Nat) :=
  [.call 0 (.plain 7), .submit 0, .notifyOne 0 0, .call 0 (.plain 8), .submit 0, .notifyOne 0 0,
    .loopTest 0, .lock 0, .test 0, .take 0, .begin 0, .clear, .notifyAll,
    .finish 0 .returned, .loopTest 0, .join]

theorem drained_iff_balanced_at_clear_runs :
    (∃ s : ThreadPool Nat, (system ⟨2, 4, .block⟩).run (QuietFrom fun t ↦ t.Balanced)
      (init ⟨2, 4, .block⟩) twoTakers = some s ∧ Drained ⟨2, 4, .block⟩ s) ∧
    ∃ s : ThreadPool Nat, (system ⟨1, 4, .block⟩).run (QuietFrom fun t ↦ ¬ t.Balanced)
      (init ⟨1, 4, .block⟩) leftBehind = some s ∧ ¬ Drained ⟨1, 4, .block⟩ s := by
  have htwo : ∃ s, (system ⟨2, 4, .block⟩).run (QuietFrom fun t ↦ t.Balanced)
      (init ⟨2, 4, .block⟩) twoTakers = some s ∧ s.destructor = .returned := ⟨_, rfl, rfl⟩
  have hleft : ∃ s, (system ⟨1, 4, .block⟩).run (QuietFrom fun t ↦ ¬ t.Balanced)
      (init ⟨1, 4, .block⟩) leftBehind = some s ∧ s.destructor = .returned := ⟨_, rfl, rfl⟩
  obtain ⟨s, hs, hd⟩ := htwo
  obtain ⟨t, ht, hd'⟩ := hleft
  exact ⟨⟨s, hs, drained_iff_balanced_at_clear.1 s (StepSystem.reachableUnder_of_run hs) hd⟩,
    t, ht, drained_iff_balanced_at_clear.2 t (StepSystem.reachableUnder_of_run ht) hd'⟩

theorem not_drained_leftBehind :
    ¬ ∀ (cfg : Config) (s : ThreadPool Nat),
      (system cfg).ReachableUnder (QuietFrom fun t ↦ ∃ x ∈ t.workers, x ≠ .exited) s →
        s.destructor = .returned → Drained cfg s := by
  intro h
  have hrun : ∃ s, (system ⟨1, 4, .block⟩).run
      (QuietFrom fun t ↦ ∃ x ∈ t.workers, x ≠ WorkerPc.exited) (init ⟨1, 4, .block⟩) leftBehind =
        some s ∧ s.destructor = .returned ∧
      s.survivors ⟨1, 4, .block⟩ = [⟨0, .plain 7⟩, ⟨1, .plain 8⟩] ∧
      s.executed = [⟨0, .plain 7⟩] := ⟨_, rfl, rfl, rfl, rfl⟩
  obtain ⟨s, hs, hd, hsurvivors, hexecuted⟩ := hrun
  have hmem : ⟨1, .plain 8⟩ ∈ s.survivors ⟨1, 4, .block⟩ := by
    rw [hsurvivors]
    exact List.mem_cons_of_mem _ List.mem_cons_self
  have hone := h _ s (StepSystem.reachableUnder_of_run hs) hd _ hmem
  rw [timesExecuted, hexecuted] at hone
  cases hone

end ThreadPool

end OctopusIpc.Pool

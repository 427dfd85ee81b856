import OctopusIpc.Pool.ThreadPool

/-!
# Waiting for tasks

What the condition variable does for the workers: while the pool runs a queued task never
leaves them all asleep, and when the destructor notifies them all none stays asleep, unless
it does so between a worker's test of the predicate and its block.
-/

namespace OctopusIpc.Pool

variable {τ : Type}

/-- Executing a task, notified, or between tasks. -/
def WorkerPc.isAwake : WorkerPc τ → Bool
  | parking | blocked | exited => false
  | _ => true

/-- In the wait, the predicate having failed. -/
def WorkerPc.waits : WorkerPc τ → Bool
  | parking | blocked => true
  | _ => false

namespace ThreadPool

variable {cfg : Config} {s s' : ThreadPool τ} {a : Action τ} {w : Nat} {pc pc' : WorkerPc τ}

/-! ### A queued task -/

/-- A worker about to block found the queue empty, and it still is. -/
def ParkingOk (s : ThreadPool τ) : Prop :=
  ∀ w : Nat, s.workers[w]? = some .parking → s.taskQueue = []

/-- The queue changes under the mutex only, which a worker about to block has. -/
theorem ParkingOk.step (h : ParkingOk s) (hm : MutexOk s) (hs : Step cfg s a s') :
    ParkingOk s' := by
  have hset {w : Nat} {pc : WorkerPc τ} (hpc : pc ≠ .parking) :
      ∀ v : Nat, (s.setWorker w pc).workers[v]? = some .parking → s.taskQueue = [] := by
    intro v hv
    rcases of_setWorker hv with ⟨-, hv⟩ | ⟨-, hv⟩
    · exact absurd hv.symm hpc
    · exact h v hv
  cases hs with
  | call | submitWaits | lost | removeThreads | clear | join => exact h
  | submitted p task queue notify hfree hp hq =>
    intro v hv
    cases hm.not_holds hfree hv
  | addThreads count hfree =>
    intro v hv
    rcases of_addThreads hv with hv | hv
    · cases hv
    · exact h v hv
  | woken | enter | leave | lock | pass | wake | begin | finish | block => exact hset nofun
  | stop | shrink => exact hset nofun
  | fail w hw hp =>
    intro v hv
    simp only [waitPredicate, Bool.or_eq_false_iff, Bool.not_eq_false', List.isEmpty_iff] at hp
    exact hp.1.1
  | take w job queue hw hq =>
    intro v hv
    rcases of_setWorker hv with ⟨-, hv⟩ | ⟨hne, hv⟩
    · cases hv
    · exact absurd (hm.unique hw rfl hv rfl) hne
  | notifyAll hd =>
    intro v hv
    rw [List.getElem?_map, Option.map_eq_some_iff] at hv
    obtain ⟨pc, hv, hpc⟩ := hv
    cases pc <;> first | exact h v hv | cases hpc

theorem parkingOk_init : ParkingOk (init cfg : ThreadPool τ) := fun _ _ ↦ rfl

/-- Nobody is about to block while a task is queued. -/
theorem parkingOk_of_reachable (h : (system cfg).Reachable s) : ParkingOk s :=
  h.invariant_of_reachable parkingOk_init fun _ _ _ hr hi _ hs ↦
    hi.step (mutexOk_of_reachable hr) (step_of_eq_some hs)

/-- While a task is queued, a worker is awake, or a submitter is about to notify one, or all
have returned. -/
def TaskAttended (s : ThreadPool τ) : Prop :=
  s.isRunning = true → s.taskQueue ≠ [] →
    (∃ x ∈ s.workers, x.isAwake = true) ∨ (∃ p, s.callers p = .notifySubmitted) ∨
      ∀ x ∈ s.workers, x = .exited

private theorem TaskAttended.setCaller (h : TaskAttended s) {p : Nat} (place : CallerPc τ)
    (hp : s.callers p ≠ .notifySubmitted) : TaskAttended (s.setCaller p place) := by
  intro hr hq
  rcases h hr hq with hawake | ⟨q, hcaller⟩ | hexited
  · exact .inl hawake
  · have hqp : q ≠ p := fun hqp ↦ hp (hqp ▸ hcaller)
    refine .inr (.inl ⟨q, ?_⟩)
    simp only [ThreadPool.setCaller, Function.update_of_ne hqp]
    exact hcaller
  · exact .inr (.inr hexited)

private theorem TaskAttended.of_awake (hw : s.workers[w]? = some pc') (hpc : pc.isAwake = true) :
    TaskAttended (s.setWorker w pc) :=
  fun _ _ ↦ .inl ⟨pc, mem_setWorker hw, hpc⟩

/-- A notification is lost only when nobody sleeps. -/
private theorem TaskAttended.lost (hp : ParkingOk s)
    (hnone : ∀ v : Nat, s.workers[v]? ≠ some .blocked) {p : Nat} {pc : CallerPc τ} :
    TaskAttended (s.setCaller p pc) := by
  intro _ hq
  by_cases hawake : ∃ x ∈ s.workers, x.isAwake = true
  · exact .inl hawake
  · refine .inr (.inr fun x hx ↦ ?_)
    obtain ⟨v, hv⟩ := List.mem_iff_getElem?.mp hx
    have hasleep : x.isAwake ≠ true := fun h ↦ hawake ⟨x, hx, h⟩
    cases x with
    | exited => rfl
    | parking => exact absurd (hp v hv) hq
    | blocked => exact absurd hv (hnone v)
    | _ => exact absurd rfl hasleep

private theorem TaskAttended.addThreads (h : TaskAttended s) (count : Nat) :
    TaskAttended (s.addThreads count) := by
  intro hr hq
  cases count with
  | zero =>
    rw [ThreadPool.addThreads, List.replicate_zero, List.append_nil]
    exact h hr hq
  | succ n =>
    refine .inl ⟨.outer, List.mem_append_right _ ?_, rfl⟩
    exact List.mem_replicate.mpr ⟨Nat.succ_ne_zero n, rfl⟩

private theorem TaskAttended.notifyAll (h : TaskAttended s) (d : DestructorPc) :
    TaskAttended { s with workers := s.workers.map WorkerPc.notify, destructor := d } := by
  intro hr hq
  rcases h hr hq with ⟨x, hx, hawake⟩ | hcaller | hexited
  · refine .inl ⟨x.notify, List.mem_map_of_mem hx, ?_⟩
    cases x <;> first | rfl | cases hawake
  · exact .inr (.inl hcaller)
  · refine .inr (.inr fun x hx ↦ ?_)
    obtain ⟨y, hy, rfl⟩ := List.mem_map.mp hx
    rw [hexited y hy]
    rfl

/-- Each step leaves the queued tasks attended. -/
theorem TaskAttended.step (h : TaskAttended s) (hp : ParkingOk s) (hs : Step cfg s a s') :
    TaskAttended s' := by
  cases hs with
  | submitWaits | join => exact h
  | call p task hidle => exact h.setCaller _ (hidle ▸ nofun)
  | submitted p task queue notify hm hcaller hq =>
    cases hq with
    | appended | displaced => exact fun _ _ ↦ .inr (.inl ⟨p, Function.update_self ..⟩)
    | refused hfull hvictim =>
      have hset : TaskAttended (s.setCaller p .idle) := h.setCaller _ (hcaller ▸ nofun)
      exact hset
  | woken p w pc hcaller hw => exact .of_awake (s := s.setCaller p pc) hw rfl
  | lost p w pc hcaller hnone => exact .lost hp hnone
  | addThreads count hm => exact h.addThreads count
  | removeThreads p count hm hidle =>
    have hset := h.setCaller (p := p) (CallerPc.afterRemove
      (if s.activeThreadCount < count then s.activeThreadCount else count)) (hidle ▸ nofun)
    exact hset
  | enter w hw | pass w hw | wake w hw | begin w job hw | finish w outcome job hw =>
    exact .of_awake hw rfl
  | lock w hm hw => exact hw.elim (.of_awake · rfl) (.of_awake · rfl)
  | take w job queue hw => exact fun _ _ ↦ .inl ⟨_, mem_setWorker hw, rfl⟩
  | leave w hw hr => exact fun hr' ↦ absurd hr' (hr ▸ nofun)
  | clear => exact fun hr' ↦ absurd hr' nofun
  | fail w hw hpred =>
    simp only [waitPredicate, Bool.or_eq_false_iff, Bool.not_eq_false', List.isEmpty_iff] at hpred
    exact fun _ hq' ↦ absurd hpred.1.1 hq'
  | block w hw => exact fun _ hq' ↦ absurd (hp w hw) hq'
  | stop w hw hq | shrink w hw hq => exact fun _ hq' ↦ absurd hq hq'
  | notifyAll => exact h.notifyAll _

theorem taskAttended_init : TaskAttended (init cfg : ThreadPool τ) := fun _ h ↦ absurd rfl h

/-- In every run the queued tasks are attended. -/
theorem taskAttended_of_reachable (h : (system cfg).Reachable s) : TaskAttended s :=
  h.invariant_of_reachable taskAttended_init fun _ _ _ hr hi _ hs ↦
    hi.step (parkingOk_of_reachable hr) (step_of_eq_some hs)

/-- While the pool runs, has a queued task and a live worker, and no submitter is before its
notification, a live worker is awake. -/
theorem exists_isAwake_of_taskQueue_ne_nil (h : (system cfg).Reachable s)
    (hr : s.isRunning = true) (hq : s.taskQueue ≠ []) (hlive : ∃ x ∈ s.workers, x ≠ .exited)
    (hcallers : ∀ p, s.callers p ≠ .notifySubmitted) : ∃ x ∈ s.workers, x.isAwake = true := by
  rcases taskAttended_of_reachable h hr hq with hawake | ⟨p, hp⟩ | hexited
  · exact hawake
  · exact absurd hp (hcallers p)
  · obtain ⟨x, hx, hne⟩ := hlive
    exact absurd (hexited x hx) hne

/-- A worker sleeps until a task comes. -/
def sleepAndWake : List (Action Nat) :=
  [.loopTest 0, .lock 0, .test 0, .block 0, .call 0 (.packaged 7), .submit 0, .notifyOne 0 0]

theorem exists_isAwake_sleepAndWake :
    ∃ s : ThreadPool Nat, (system ⟨1, 4, .block⟩).Reachable s ∧
      s.taskQueue = [⟨0, .packaged 7⟩] ∧ ∃ x ∈ s.workers, x.isAwake = true := by
  have hrun : ∃ s, (system ⟨1, 4, .block⟩).run (fun _ _ ↦ True) (init ⟨1, 4, .block⟩)
      sleepAndWake = some s ∧ s.isRunning = true ∧ s.taskQueue = [⟨0, .packaged 7⟩] ∧
      s.workers = [.notified] ∧ ∀ p, s.callers p = .idle := by
    refine ⟨_, rfl, rfl, rfl, rfl, fun p ↦ ?_⟩
    cases p <;> rfl
  obtain ⟨s, hs, hr, hq, hw, hp⟩ := hrun
  have hreach : (system ⟨1, 4, .block⟩).Reachable s := StepSystem.reachableUnder_of_run hs
  refine ⟨s, hreach, hq, exists_isAwake_of_taskQueue_ne_nil hreach hr (hq ▸ nofun) ?_ ?_⟩
  · exact ⟨.notified, hw ▸ List.mem_singleton_self _, nofun⟩
  · exact fun p ↦ hp p ▸ nofun

/-! ### The end of the pool -/

/-- The destructor has notified all workers and waits for them, and one is blocked that no
notification has reached. -/
def WakeUpLost (s : ThreadPool τ) : Prop :=
  s.destructor = .joining ∧ ∃ w : Nat, s.workers[w]? = some .blocked

/-- The destructor does not notify while a worker is between its test of the predicate and
its block. -/
def NotifiesNoneParking (s : ThreadPool τ) : Action τ → Prop
  | .notifyAll => ∀ x ∈ s.workers, x ≠ .parking
  | _ => True

instance [DecidableEq τ] (s : ThreadPool τ) : (a : Action τ) → Decidable (s.NotifiesNoneParking a)
  | .notifyAll => inferInstanceAs (Decidable (∀ x ∈ s.workers, x ≠ .parking))
  | .call _ _ | .submit _ | .notifyOne _ _ | .addThreads _ | .removeThreads _ _ | .loopTest _
  | .lock _ | .test _ | .block _ | .wake _ | .take _ | .begin _ | .finish _ _ | .clear | .join =>
    inferInstanceAs (Decidable True)

/-- Once the destructor notified, no worker is blocked or about to block. -/
def SettledOk (s : ThreadPool τ) : Prop :=
  s.destructor = .joining ∨ s.destructor = .returned → ∀ x ∈ s.workers, x.waits = false

theorem settledOk_init : SettledOk (init cfg : ThreadPool τ) := by
  rintro (h | h) <;> cases h

/-- A step under the guard leaves no worker asleep after the notification. -/
theorem SettledOk.step (h : SettledOk s) (hc : ClearedOk s) (hg : s.NotifiesNoneParking a)
    (hs : Step cfg s a s') : SettledOk s' := by
  cases hs with
  | call | submitWaits | submitted | lost | removeThreads => exact h
  | addThreads => exact fun hd ↦ forall_addThreads (h hd) rfl
  | woken | enter | leave | lock | pass | wake | stop | shrink | take | begin | finish =>
    exact fun hd ↦ forall_setWorker (h hd) rfl
  | fail w hw hp =>
    intro hd
    have hr : s.isRunning = false := hc fun halive ↦ by
      rcases hd with hd | hd <;> cases halive.symm.trans hd
    simp only [waitPredicate, hr, Bool.not_false, Bool.or_true, Bool.true_or,
      Bool.true_eq_false] at hp
  | block w hw =>
    intro hd
    cases h hd _ (List.mem_of_getElem? hw)
  | clear => rintro (hd | hd) <;> cases hd
  | notifyAll hd =>
    intro _ x hx
    obtain ⟨y, hy, rfl⟩ := List.mem_map.mp hx
    have hne : y ≠ .parking := hg y hy
    cases y <;> first | rfl | exact absurd rfl hne
  | join hd => exact fun _ ↦ h (.inl hd)

/-- Where the guard is kept no worker is blocked once the destructor notified. -/
theorem settledOk_of_reachable (h : (system cfg).ReachableUnder NotifiesNoneParking s) :
    SettledOk s :=
  h.invariant_of_reachable settledOk_init fun _ _ _ hr hi hg hs ↦
    hi.step (clearedOk_of_reachable hr.reachable) hg (step_of_eq_some hs)

/-- A notification for all that finds a worker about to block is lost on it, whatever other
notification is or is not to come. -/
theorem wakeUpLost_of_notifyAll_of_parking (hd : s.destructor = .cleared) {w : Nat}
    (hw : s.workers[w]? = some .parking) :
    ∃ s', (system cfg).run (fun _ _ ↦ True) s [.notifyAll, .block w] = some s' ∧
      WakeUpLost s' ∧ s'.callers = s.callers := by
  have hparking : (s.workers.map WorkerPc.notify)[w]? = some .parking := by
    rw [List.getElem?_map, hw]
    rfl
  let t : ThreadPool τ :=
    { s with workers := s.workers.map WorkerPc.notify, destructor := .joining }
  have hnotify : (system cfg).step s .notifyAll = some t := by
    simp only [system, step, hd]
    rfl
  have hblock : (system cfg).step t (.block w) =
      some { t.setWorker w .blocked with queueMutex := none } := by
    simp only [system, step, t, hparking]
  have hasleep := List.getElem?_set_self (a := WorkerPc.blocked)
    (List.getElem?_eq_some_iff.mp hparking).1
  refine ⟨{ t.setWorker w .blocked with queueMutex := none }, ?_, ⟨rfl, w, hasleep⟩, rfl⟩
  rw [StepSystem.run_cons trivial hnotify, StepSystem.run_cons trivial hblock]
  rfl

/-- Shutdown loses no wake-up in a run in which `notify_all` never comes between a worker's
test of the predicate and its block. -/
theorem not_wakeUpLost (h : (system cfg).ReachableUnder NotifiesNoneParking s) :
    ¬ WakeUpLost s := by
  rintro ⟨hd, w, hw⟩
  cases settledOk_of_reachable h (.inl hd) _ (List.mem_of_getElem? hw)

/-- A worker is asleep when the destructor notifies. -/
def notifiedAsleep : List (Action Nat) :=
  [.loopTest 0, .lock 0, .test 0, .block 0, .clear, .notifyAll]

theorem not_wakeUpLost_notifiedAsleep :
    ∃ s : ThreadPool Nat, (system ⟨1, 1, .block⟩).ReachableUnder NotifiesNoneParking s ∧
      s.destructor = .joining ∧ s.workers = [.notified] ∧ ¬ WakeUpLost s := by
  have hrun : ∃ s, (system ⟨1, 1, .block⟩).run NotifiesNoneParking (init ⟨1, 1, .block⟩)
      notifiedAsleep = some s ∧ s.destructor = .joining ∧ s.workers = [.notified] :=
    ⟨_, rfl, rfl, rfl⟩
  obtain ⟨s, hs, hd, hw⟩ := hrun
  have hreach := StepSystem.reachableUnder_of_run hs
  exact ⟨s, hreach, hd, hw, not_wakeUpLost hreach⟩

/-- The destructor notifies before a worker that has tested the predicate is asleep. -/
def notifiedTooEarly : List (Action Nat) :=
  [.loopTest 0, .lock 0, .test 0, .clear, .notifyAll, .block 0]

theorem wakeUpLost_notifiedTooEarly :
    ∃ s : ThreadPool Nat, (system ⟨1, 1, .block⟩).Reachable s ∧ WakeUpLost s ∧
      ∀ p, s.callers p = .idle := by
  have hrun : ∃ s, (system ⟨1, 1, .block⟩).run (fun _ _ ↦ True) (init ⟨1, 1, .block⟩)
      notifiedTooEarly = some s ∧ WakeUpLost s ∧ ∀ p, s.callers p = .idle :=
    ⟨_, rfl, ⟨rfl, 0, rfl⟩, fun _ ↦ rfl⟩
  obtain ⟨s, hs, hlost, hcallers⟩ := hrun
  exact ⟨s, StepSystem.reachableUnder_of_run hs, hlost, hcallers⟩

end ThreadPool

end OctopusIpc.Pool

import OctopusIpc.Client.Callbacks
import OctopusIpc.Client.SendQueue
import OctopusIpc.Pool.Fates

/-!
# What becomes of a received message

The receiver thread, which submits a task to `g_threadPool` for each callback registered when
a message comes in, next to the threads of the pool and to others that register, unregister
and submit tasks that send. A delivery is made by the step that submits it, waits in the queue
among all tasks, and is then one of the pool's.
-/

namespace OctopusIpc.Client
open OctopusIpc.Protocol OctopusIpc.Pool

variable {κ : Type}

/-- A task of `g_threadPool`, of `ipc_invoke_notify_response` or of a sending function. -/
inductive ClientTask (κ : Type) where
  | deliver (delivery : Delivery κ)
  | send (task : QueuedTask)

/-- The delivery that a submitted closure makes. -/
def deliveryOf : Pool.Task (ClientTask κ) → Option (Delivery κ)
  | .plain (.deliver delivery) => some delivery
  | _ => none

/-- The delivery that a caller of the pool is submitting. -/
def submitting : CallerPc (ClientTask κ) → Option (Delivery κ)
  | .submitting task => deliveryOf task
  | _ => none

/-- The callback list, the entries that the receiver has copied and not submitted, and the
pool. -/
structure Receiving (κ : Type) where
  namedCallbacks : List (CallbackEntry κ)
  activeCallbacks : List (Delivery κ)
  receptions : Nat
  pool : ThreadPool (ClientTask κ)

/-- The steps of the threads. -/
inductive ReceivingAction (κ : Type) where
  /-- `src/APP/octopus_ipc_app_client.cpp:249–250`. -/
  | register (funcName : String) (callback : κ)
  /-- `src/APP/octopus_ipc_app_client.cpp:267–288`. -/
  | unregister (callback : κ)
  /-- The list is copied under its lock; `src/APP/octopus_ipc_app_client.cpp:305–311`. -/
  | receive (queryMsg : DataMessage) (size : Nat)
  /-- `enqueue` is called for the next copied entry;
  `src/APP/octopus_ipc_app_client.cpp:315–319`. -/
  | submitNext
  /-- A step of the pool. -/
  | pool (a : Pool.Action (ClientTask κ))

namespace Receiving

/-- The receiver thread among the callers of the pool. -/
def receiver : Nat := 0

/-- Nothing registered, nothing received. -/
def init : Receiving κ := ⟨[], [], 0, ThreadPool.init SendQueue.gThreadPool⟩

/-- The step is not a call of the receiver, and other threads call with tasks that send. -/
def ByOthers : Pool.Action (ClientTask κ) → Bool
  | .call p task => p != receiver && (deliveryOf task).isNone
  | _ => true

/-- The list after a step of the pool, the outcome of a delivery being that of the callback;
`src/APP/octopus_ipc_app_client.cpp:327–358`. -/
def callbacksAfter (s : Receiving κ) : Pool.Action (ClientTask κ) → List (CallbackEntry κ)
  | .finish w outcome =>
    match s.pool.workers[w]? with
    | some (.executing job) =>
      match deliveryOf job.task with
      | some d =>
        if outcome ≠ TaskOutcome.returned ∧
            Dispatcher.failureThreshold ≤ d.entry.failureCount + 1 then
          s.namedCallbacks.filter fun entry ↦ entry.funcName ≠ d.entry.funcName
        else s.namedCallbacks
      | none => s.namedCallbacks
    | _ => s.namedCallbacks
  | _ => s.namedCallbacks

/-- The entries of the list as a reception copies them;
`src/APP/octopus_ipc_app_client.cpp:303–311`. -/
def copies (s : Receiving κ) (queryMsg : DataMessage) (size : Nat) : List (Delivery κ) :=
  s.namedCallbacks.map fun entry ↦ ⟨entry, queryMsg, size, s.receptions⟩

variable [DecidableEq κ]

/-- What each step does in a state in which it can be taken. -/
def step (s : Receiving κ) : ReceivingAction κ → Option (Receiving κ)
  | .register funcName callback =>
    some { s with namedCallbacks := s.namedCallbacks ++ [⟨funcName, callback, 0⟩] }
  | .unregister callback =>
    some { s with namedCallbacks := s.namedCallbacks.filter fun entry ↦ entry.cb ≠ callback }
  | .receive queryMsg size =>
    match s.activeCallbacks, s.pool.callers receiver with
    | [], .idle =>
      some { s with
        activeCallbacks := s.copies queryMsg size
        receptions := s.receptions + 1 }
    | _, _ => none
  | .submitNext =>
    match s.activeCallbacks with
    | d :: ds =>
      (s.pool.step SendQueue.gThreadPool (.call receiver (.plain (.deliver d)))).map fun pool ↦
        { s with activeCallbacks := ds, pool := pool }
    | [] => none
  | .pool a =>
    if ByOthers a then
      (s.pool.step SendQueue.gThreadPool a).map fun pool ↦
        { s with namedCallbacks := s.callbacksAfter a, pool := pool }
    else none

/-- The receiver, the callback list and the pool as a transition system. -/
def system : StepSystem (Receiving κ) (ReceivingAction κ) := ⟨init, step⟩

/-! ### What a step is -/

/-- The steps by what they do, each with the condition under which it does it. -/
inductive Step (s : Receiving κ) : ReceivingAction κ → Receiving κ → Prop
  | register (funcName : String) (callback : κ) :
      Step s (.register funcName callback)
        { s with namedCallbacks := s.namedCallbacks ++ [⟨funcName, callback, 0⟩] }
  | unregister (callback : κ) :
      Step s (.unregister callback)
        { s with namedCallbacks := s.namedCallbacks.filter fun entry ↦ entry.cb ≠ callback }
  | receive (queryMsg : DataMessage) (size : Nat) (hactive : s.activeCallbacks = [])
      (hidle : s.pool.callers receiver = .idle) :
      Step s (.receive queryMsg size)
        { s with
          activeCallbacks := s.copies queryMsg size
          receptions := s.receptions + 1 }
  | submitNext (d : Delivery κ) (ds : List (Delivery κ)) (pool : ThreadPool (ClientTask κ))
      (hactive : s.activeCallbacks = d :: ds)
      (hpool : (ThreadPool.system SendQueue.gThreadPool).step s.pool
        (.call receiver (.plain (.deliver d))) = some pool) :
      Step s .submitNext { s with activeCallbacks := ds, pool := pool }
  | pool (b : Pool.Action (ClientTask κ)) (pool : ThreadPool (ClientTask κ))
      (hothers : ByOthers b = true)
      (hpool : (ThreadPool.system SendQueue.gThreadPool).step s.pool b = some pool) :
      Step s (.pool b) { s with namedCallbacks := s.callbacksAfter b, pool := pool }

/-- Every step that can be taken is one of these. -/
theorem step_of_eq_some {s s' : Receiving κ} {a : ReceivingAction κ} (h : s.step a = some s') :
    Step s a s' := by
  cases a with
  | register funcName callback =>
    cases h
    exact .register funcName callback
  | unregister callback =>
    cases h
    exact .unregister callback
  | receive queryMsg size =>
    simp only [step] at h
    split at h
    · next hactive hidle =>
      cases h
      exact .receive queryMsg size hactive hidle
    · cases h
  | submitNext =>
    simp only [step] at h
    split at h
    · next d ds hactive =>
      obtain ⟨pool, hpool, rfl⟩ := Option.map_eq_some_iff.mp h
      exact .submitNext d ds pool hactive hpool
    · cases h
  | pool b =>
    simp only [step] at h
    split at h
    · next hothers =>
      obtain ⟨pool, hpool, rfl⟩ := Option.map_eq_some_iff.mp h
      exact .pool b pool hothers hpool
    · cases h

/-! ### The deliveries -/

/-- The deliveries among the tasks of the pool. -/
def delivering (jobs : List (Job (ClientTask κ))) : List (Delivery κ) :=
  jobs.filterMap fun job ↦ deliveryOf job.task

/-- The deliveries that the receiver has not submitted yet. -/
def unsubmitted (s : Receiving κ) : List (Delivery κ) :=
  (submitting (s.pool.callers receiver)).toList ++ s.activeCallbacks

/-- All deliveries there have been. -/
def deliveries (s : Receiving κ) : List (Delivery κ) :=
  delivering s.pool.submissions ++ s.unsubmitted

/-- The deliveries that a step brings. -/
def arriving (s : Receiving κ) : ReceivingAction κ → List (Delivery κ)
  | .receive queryMsg size => s.copies queryMsg size
  | _ => []

variable {s s' t : Receiving κ} {a : ReceivingAction κ}

/-! ### What the pool does with the deliveries -/

omit [DecidableEq κ] in
/-- A caller of the pool that does not come with a delivery or give one up. -/
private theorem submitting_setCaller {pool : ThreadPool (ClientTask κ)} {p : Nat}
    {pc : CallerPc (ClientTask κ)} (h : submitting pc = submitting (pool.callers p)) (q : Nat) :
    submitting ((pool.setCaller p pc).callers q) = submitting (pool.callers q) := by
  unfold ThreadPool.setCaller
  dsimp only
  by_cases hq : q = p
  · subst hq
    rw [Function.update_self, h]
  · rw [Function.update_of_ne hq]

omit [DecidableEq κ] in
/-- A caller of the pool that has given up what it was submitting. -/
private theorem submitting_setCaller_of_none {pool : ThreadPool (ClientTask κ)} {p : Nat}
    {pc : CallerPc (ClientTask κ)} (h : submitting pc = none) (q : Nat) :
    submitting ((pool.setCaller p pc).callers q) =
      if q = p then none else submitting (pool.callers q) := by
  unfold ThreadPool.setCaller
  dsimp only
  rw [Function.update_apply]
  split
  · exact h
  · rfl

omit [DecidableEq κ] in
/-- A task more. -/
private theorem delivering_concat (jobs : List (Job (ClientTask κ))) (job : Job (ClientTask κ)) :
    delivering (jobs ++ [job]) = delivering jobs ++ (deliveryOf job.task).toList := by
  rw [delivering, List.filterMap_append]
  cases h : deliveryOf job.task <;> simp [delivering, h]

omit [DecidableEq κ] in
/-- A caller that notifies is not submitting, before and after. -/
private theorem submitting_afterNotify {pc pc' : CallerPc (ClientTask κ)}
    (h : pc.afterNotify = some pc') : submitting pc' = submitting pc := by
  unfold CallerPc.afterNotify at h
  split at h <;> cases h <;> rfl

/-- Only the receiver submits deliveries. -/
def OnlyReceiver (pool : ThreadPool (ClientTask κ)) : Prop :=
  ∀ p, p ≠ receiver → submitting (pool.callers p) = none

/-- The deliveries that were submitted and the one that is being submitted. -/
def handedOver (pool : ThreadPool (ClientTask κ)) : List (Delivery κ) :=
  delivering pool.submissions ++ (submitting (pool.callers receiver)).toList

omit [DecidableEq κ] in
/-- A step of the pool that the receiver does not make keeps them. -/
private theorem handedOver_of_step {cfg : Config} {pool pool' : ThreadPool (ClientTask κ)}
    {b : Pool.Action (ClientTask κ)} (hs : ThreadPool.Step cfg pool b pool')
    (hb : ByOthers b = true) (honly : OnlyReceiver pool) :
    handedOver pool' = handedOver pool ∧ OnlyReceiver pool' := by
  have hkeeps (p : Nat) (pc : CallerPc (ClientTask κ))
      (hpc : submitting pc = submitting (pool.callers p)) (hlog : pool'.log = pool.log)
      (hcallers : pool'.callers = (pool.setCaller p pc).callers) :
      handedOver pool' = handedOver pool ∧ OnlyReceiver pool' := by
    have hsame (q : Nat) : submitting (pool'.callers q) = submitting (pool.callers q) := by
      rw [hcallers]
      exact submitting_setCaller hpc q
    refine ⟨?_, fun q hq ↦ (hsame q).trans (honly q hq)⟩
    simp only [handedOver, ThreadPool.submissions, hlog, hsame]
  cases hs with
  | call p task hp =>
    simp only [ByOthers, Bool.and_eq_true, bne_iff_ne, Option.isNone_iff_eq_none] at hb
    refine hkeeps p (.submitting task) ?_ rfl rfl
    rw [hp]
    exact hb.2
  | submitWaits => exact ⟨rfl, honly⟩
  | submitted p task queue notify hm hp hq =>
    have hafter : submitting (if notify then CallerPc.notifySubmitted else .idle :
        CallerPc (ClientTask κ)) = none := by
      cases notify <;> rfl
    have hsubmitted : delivering ((pool.log ++ [((⟨pool.log.length, task⟩ : Job (ClientTask κ)),
        pool.taskQueue)]).map Prod.fst) =
        delivering pool.submissions ++ (deliveryOf task).toList := by
      rw [List.map_append]
      exact delivering_concat pool.submissions _
    have hpast : submitting (pool.callers p) = deliveryOf task := by
      rw [hp]
      rfl
    refine ⟨?_, fun q hq ↦ ?_⟩
    · unfold handedOver ThreadPool.submissions
      dsimp only
      rw [hsubmitted, submitting_setCaller_of_none hafter, List.append_assoc]
      congr 1
      split
      · next heq =>
        rw [← hpast, heq, Option.toList_none, List.append_nil]
      · next hne =>
        rw [← hpast, honly p (Ne.symm hne), Option.toList_none, List.nil_append]
    · dsimp only
      rw [submitting_setCaller_of_none hafter]
      split
      · rfl
      · exact honly q hq
  | woken p w pc hp hw => exact hkeeps p pc (submitting_afterNotify hp) rfl rfl
  | lost p w pc hp => exact hkeeps p pc (submitting_afterNotify hp) rfl rfl
  | removeThreads p count hm hp =>
    refine hkeeps p (CallerPc.afterRemove _) ?_ rfl rfl
    rw [hp]
    generalize (if pool.activeThreadCount < count then pool.activeThreadCount else count) = n
    cases n <;> rfl
  | _ => exact ⟨rfl, honly⟩

/-! ### What a step does with the deliveries -/

omit [DecidableEq κ] in
/-- All deliveries are those handed over and the copied entries. -/
private theorem deliveries_eq (s : Receiving κ) :
    s.deliveries = handedOver s.pool ++ s.activeCallbacks := by
  rw [deliveries, handedOver, unsubmitted, List.append_assoc]

/-- The pool is one that its threads can reach, only the receiver submits deliveries, and they
are of the receptions there have been. -/
structure Inv (s : Receiving κ) : Prop where
  reachable : (ThreadPool.system SendQueue.gThreadPool).Reachable s.pool
  onlyReceiver : OnlyReceiver s.pool
  received : ∀ d ∈ s.deliveries, d.reception < s.receptions

omit [DecidableEq κ] in
theorem inv_init : Inv (init : Receiving κ) where
  reachable := .init
  onlyReceiver _ _ := rfl
  received _ h := absurd h List.not_mem_nil

omit [DecidableEq κ] in
/-- The receiver calls the pool with the next copied entry. -/
private theorem handedOver_call {cfg : Config} {pool pool' : ThreadPool (ClientTask κ)}
    {d : Delivery κ}
    (hs : ThreadPool.Step cfg pool (.call receiver (.plain (.deliver d))) pool')
    (honly : OnlyReceiver pool) :
    handedOver pool' = handedOver pool ++ [d] ∧ OnlyReceiver pool' := by
  cases hs with
  | call _ _ hidle =>
    unfold ThreadPool.setCaller
    constructor
    · unfold handedOver ThreadPool.submissions
      dsimp only
      rw [Function.update_self, hidle]
      simp [submitting, deliveryOf]
    · intro p hp
      dsimp only
      rw [Function.update_of_ne hp]
      exact honly p hp

/-- Deliveries come with receptions only, and none goes. -/
private theorem deliveries_of_step (h : Inv s) (hs : Step s a s') :
    s'.deliveries = s.deliveries ++ s.arriving a ∧ OnlyReceiver s'.pool := by
  simp only [deliveries_eq]
  cases hs with
  | register | unregister => exact ⟨(List.append_nil _).symm, h.onlyReceiver⟩
  | receive queryMsg size hactive hidle =>
    refine ⟨?_, h.onlyReceiver⟩
    rw [hactive, List.append_nil]
    rfl
  | submitNext d ds pool hactive hpool =>
    have hcall := handedOver_call (ThreadPool.step_of_eq_some hpool) h.onlyReceiver
    refine ⟨?_, hcall.2⟩
    dsimp only
    rw [hcall.1, hactive, List.append_assoc]
    exact (List.append_nil _).symm
  | pool b pool hothers hpool =>
    have hkept := handedOver_of_step (ThreadPool.step_of_eq_some hpool) hothers h.onlyReceiver
    refine ⟨?_, hkept.2⟩
    dsimp only
    rw [hkept.1]
    exact (List.append_nil _).symm

/-- What a step brings is of the present reception, which is then over. -/
private theorem receptions_of_step (hs : Step s a s') :
    s.receptions ≤ s'.receptions ∧
      ∀ d ∈ s.arriving a, d.reception = s.receptions ∧ s.receptions < s'.receptions := by
  cases hs with
  | receive queryMsg size hactive hidle =>
    refine ⟨Nat.le_succ _, fun d hd ↦ ⟨?_, Nat.lt_succ_self _⟩⟩
    obtain ⟨entry, -, rfl⟩ := List.mem_map.mp hd
    rfl
  | _ => exact ⟨Nat.le_refl _, fun _ h ↦ absurd h List.not_mem_nil⟩

/-- Each step keeps the invariant. -/
theorem Inv.step (h : Inv s) (hs : Step s a s') : Inv s' := by
  obtain ⟨hdeliveries, honly⟩ := deliveries_of_step h hs
  obtain ⟨hle, harriving⟩ := receptions_of_step hs
  refine ⟨?_, honly, fun d hd ↦ ?_⟩
  · cases hs with
    | register | unregister | receive => exact h.reachable
    | submitNext d ds pool hactive hpool => exact h.reachable.step trivial hpool
    | pool b pool hothers hpool => exact h.reachable.step trivial hpool
  · rw [hdeliveries] at hd
    rcases List.mem_append.mp hd with hd | hd
    · exact Nat.lt_of_lt_of_le (h.received d hd) hle
    · obtain ⟨hreception, hlt⟩ := harriving d hd
      exact hreception ▸ hlt

/-- In every run the invariant holds. -/
theorem inv_of_reachable (h : system.Reachable s) : Inv s :=
  h.invariant inv_init fun _ _ _ ht _ hs ↦ ht.step (step_of_eq_some hs)

/-! ### The deliveries of one reception -/

/-- The deliveries of a reception. -/
def ofReception (reception : Nat) (ds : List (Delivery κ)) : List (Delivery κ) :=
  ds.filter fun d ↦ d.reception = reception

/-- A step after a reception brings no delivery of it. -/
private theorem ofReception_of_step (h : Inv s) {r : Nat} (hr : r < s.receptions)
    (hs : Step s a s') : ofReception r s'.deliveries = ofReception r s.deliveries := by
  have hnone : ofReception r (s.arriving a) = [] := by
    refine List.filter_eq_nil_iff.mpr fun d hd ↦ ?_
    have hreception := ((receptions_of_step hs).2 d hd).1
    simp only [decide_eq_true_eq]
    omega
  rw [(deliveries_of_step h hs).1, ofReception, List.filter_append]
  exact (congrArg _ hnone).trans (List.append_nil _)

/-- A reception brings one delivery for each callback in the list. -/
private theorem ofReception_of_receive (h : Inv s) {queryMsg : DataMessage} {size : Nat}
    (hs : Step s (.receive queryMsg size) t) :
    ofReception s.receptions t.deliveries = s.copies queryMsg size := by
  have hold : ofReception s.receptions s.deliveries = [] := by
    refine List.filter_eq_nil_iff.mpr fun d hd ↦ ?_
    have hlt := h.received d hd
    simp only [decide_eq_true_eq]
    omega
  have hnew : ofReception s.receptions (s.copies queryMsg size) = s.copies queryMsg size := by
    refine List.filter_eq_self.mpr fun d hd ↦ ?_
    obtain ⟨entry, -, rfl⟩ := List.mem_map.mp hd
    exact decide_eq_true rfl
  rw [(deliveries_of_step h hs).1, ofReception, List.filter_append]
  exact (congrArg₂ _ hold hnew).trans (List.nil_append _)

/-- In every run after it a reception has the deliveries it brought. -/
private theorem ofReception_of_run {queryMsg : DataMessage} {size : Nat}
    {as : List (ReceivingAction κ)} (h : Inv s) (hs : Step s (.receive queryMsg size) t)
    (hrun : system.run (fun _ _ ↦ True) t as = some s') :
    Inv s' ∧ ofReception s.receptions s'.deliveries = s.copies queryMsg size := by
  have hbegun : Inv t ∧ s.receptions < t.receptions ∧
      ofReception s.receptions t.deliveries = s.copies queryMsg size := by
    refine ⟨h.step hs, ?_, ofReception_of_receive h hs⟩
    cases hs
    exact Nat.lt_succ_self _
  have hkept := StepSystem.invariant_of_run (I := fun u : Receiving κ ↦ Inv u ∧
    s.receptions < u.receptions ∧
      ofReception s.receptions u.deliveries = s.copies queryMsg size)
    (fun u a u' hu _ hstep ↦ ?_) hbegun hrun
  · exact ⟨hkept.1, hkept.2.2⟩
  · have hstep := step_of_eq_some hstep
    refine ⟨hu.1.step hstep, Nat.lt_of_lt_of_le hu.2.1 (receptions_of_step hstep).1, ?_⟩
    rw [ofReception_of_step hu.1 hu.2.1 hstep]
    exact hu.2.2

/-- Where the deliveries are: not submitted, queued, in the hands of a worker, executed or
given up by the pool. -/
def whereabouts (s : Receiving κ) : List (Delivery κ) :=
  s.unsubmitted ++ delivering s.pool.taskQueue ++ delivering s.pool.inHand ++
    delivering s.pool.executed ++ delivering (s.pool.discarded SendQueue.gThreadPool)

omit [DecidableEq κ] in
/-- Every delivery is in one place. -/
private theorem perm_whereabouts (h : Inv s) : s.whereabouts.Perm s.deliveries := by
  have hpool : (delivering (s.pool.taskQueue ++ s.pool.inHand ++ s.pool.executed ++
      s.pool.discarded SendQueue.gThreadPool)).Perm (delivering s.pool.submissions) :=
    (ThreadPool.perm_submissions h.reachable).filterMap _
  unfold whereabouts deliveries
  refine List.Perm.trans ?_ List.perm_append_comm
  simp only [delivering, List.filterMap_append, List.append_assoc] at hpool ⊢
  exact hpool.append_left _

/-- A received message is delivered to the callbacks registered when it came, to each once at
most: whatever is registered, unregistered, received, sent or thrown later, each of these
deliveries is not yet submitted, queued, in the hands of a worker, executed or given up by the
pool, one of these and once, and the reception has no others. -/
theorem perm_whereabouts_of_run {queryMsg : DataMessage} {size : Nat}
    {as : List (ReceivingAction κ)} (h : system.Reachable s)
    (hreceive : system.step s (.receive queryMsg size) = some t)
    (hrun : system.run (fun _ _ ↦ True) t as = some s') :
    (ofReception s.receptions s'.whereabouts).Perm (s.copies queryMsg size) := by
  obtain ⟨hinv, hcopies⟩ :=
    ofReception_of_run (inv_of_reachable h) (step_of_eq_some hreceive) hrun
  rw [← hcopies]
  exact (perm_whereabouts hinv).filter _

/-- Two callbacks are registered, a message is received, the callback of one returns, and that of
the other is unregistered while its task is in the queue. -/
def secondWaits : List (ReceivingAction Nat) :=
  [.submitNext, .pool (.submit 0), .pool (.notifyOne 0 0), .submitNext, .pool (.submit 0),
    .pool (.notifyOne 0 0), .unregister 8, .pool (.loopTest 0), .pool (.lock 0), .pool (.test 0),
    .pool (.take 0), .pool (.begin 0), .pool (.finish 0 .returned)]

/-- Its two deliveries are then executed and queued. -/
theorem perm_whereabouts_secondWaits :
    ∃ s t s' : Receiving Nat, system.Reachable s ∧
      system.step s (.receive DataMessage.new 6) = some t ∧
      system.run (fun _ _ ↦ True) t secondWaits = some s' ∧
      delivering s'.pool.taskQueue = [⟨⟨"g", 8, 0⟩, DataMessage.new, 6, 0⟩] ∧
      delivering s'.pool.executed = [⟨⟨"f", 7, 0⟩, DataMessage.new, 6, 0⟩] ∧
      (ofReception s.receptions s'.whereabouts).Perm (s.copies DataMessage.new 6) := by
  have hrun : ∃ s t s' : Receiving Nat,
      system.run (fun _ _ ↦ True) init [.register "f" 7, .register "g" 8] = some s ∧
      system.step s (.receive DataMessage.new 6) = some t ∧
      system.run (fun _ _ ↦ True) t secondWaits = some s' ∧
      delivering s'.pool.taskQueue = [⟨⟨"g", 8, 0⟩, DataMessage.new, 6, 0⟩] ∧
      delivering s'.pool.executed = [⟨⟨"f", 7, 0⟩, DataMessage.new, 6, 0⟩] :=
    ⟨_, _, _, rfl, rfl, rfl, rfl, rfl⟩
  obtain ⟨s, t, s', hs, ht, hs', hqueued, hexecuted⟩ := hrun
  have hreach : system.Reachable s := StepSystem.reachableUnder_of_run hs
  exact ⟨s, t, s', hreach, ht, hs', hqueued, hexecuted, perm_whereabouts_of_run hreach ht hs'⟩

end Receiving

end OctopusIpc.Client

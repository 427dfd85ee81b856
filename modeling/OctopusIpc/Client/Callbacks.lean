import Mathlib.Logic.Function.Basic
import OctopusIpc.Base.StepSystem
import OctopusIpc.Pool.TaskQueue
import OctopusIpc.Protocol.DataMessage

/-!
# Registered callbacks and their deliveries

Threads that register and unregister callbacks, the receiver thread, and the pool's workers.
A received message is delivered to a copy of the callback list taken under the lock: the
receiver thread submits one task for each copied entry, and a worker calls the entry's
function whenever it gets to the task. Unregistering changes the list only, so it takes
effect for the messages received afterwards. Receptions are numbered, and each task carries
the number of its own; for the specification, an unregistered function carries how many
receptions there had been.
-/

namespace OctopusIpc.Client
open OctopusIpc.Protocol

variable {κ : Type}

/-- Fields of an entry, functions being compared by address;
`src/APP/octopus_ipc_app_client.cpp:44–49`. -/
structure CallbackEntry (κ : Type) where
  funcName : String
  cb : κ
  failureCount : Nat

/-- A task of `ipc_invoke_notify_response` with what it captured, and the number of the
reception. -/
structure Delivery (κ : Type) where
  entry : CallbackEntry κ
  queryMsg : DataMessage
  size : Nat
  reception : Nat

/-- A begun call: the function, the reception it delivers, and how many receptions there had
been when the function was unregistered, if it was and has not been registered since. -/
structure Call (κ : Type) where
  cb : κ
  reception : Nat
  unregistered : Option Nat

/-- The callback list, the deliveries on their way, and the calls begun so far. -/
structure Dispatcher (κ : Type) where
  namedCallbacks : List (CallbackEntry κ)
  /-- The copied entries the receiver thread has not submitted yet. -/
  activeCallbacks : List (Delivery κ)
  taskQueue : List (Delivery κ)
  /-- The task a worker has taken and not begun. -/
  taken : Nat → Option (Delivery κ)
  /-- The task a worker is executing. -/
  executing : Nat → Option (Delivery κ)
  receptions : Nat
  unregisteredAt : κ → Option Nat
  calls : List (Call κ)

/-- The steps of the threads. -/
inductive DispatchAction (κ : Type) where
  /-- `src/APP/octopus_ipc_app_client.cpp:249–250`. -/
  | register (funcName : String) (callback : κ)
  /-- `src/APP/octopus_ipc_app_client.cpp:267–288`. -/
  | unregister (callback : κ)
  /-- A reception copies the list under its lock; `src/APP/octopus_ipc_app_client.cpp:305–311`. -/
  | receive (queryMsg : DataMessage) (size : Nat)
  /-- It submits the next copied entry; `src/APP/octopus_ipc_app_client.cpp:315–319`. -/
  | submit
  /-- A worker takes the first task; `src/IPC/octopus_ipc_threadpool.cpp:203–204`. -/
  | take (w : Nat)
  /-- It calls the function; `src/APP/octopus_ipc_app_client.cpp:325`. -/
  | begin (w : Nat)
  /-- The call returns or throws, both `catch` blocks doing the same;
  `src/APP/octopus_ipc_app_client.cpp:327–358`. -/
  | finish (w : Nat) (threw : Bool)

namespace Dispatcher

/-- Nothing registered, nothing received. -/
def init : Dispatcher κ where
  namedCallbacks := []
  activeCallbacks := []
  taskQueue := []
  taken _ := none
  executing _ := none
  receptions := 0
  unregisteredAt _ := none
  calls := []

/-- `FAILURE_THRESHOLD`; `src/APP/octopus_ipc_app_client.cpp:313`. -/
def failureThreshold : Nat := 3

/-- The bound of `g_threadPool`; `src/APP/octopus_ipc_app_client.cpp:40`. -/
def maxQueueSize : Nat := 100

/-- When a step can be taken. -/
def Enabled (s : Dispatcher κ) : DispatchAction κ → Prop
  | .register _ _ | .unregister _ => True
  | .receive _ _ => s.activeCallbacks.isEmpty = true
  | .submit => s.activeCallbacks.isEmpty = false
  | .take w =>
    s.taskQueue.isEmpty = false ∧ (s.taken w).isNone = true ∧ (s.executing w).isNone = true
  | .begin w => (s.taken w).isSome = true
  | .finish w _ => (s.executing w).isSome = true

instance (s : Dispatcher κ) : (a : DispatchAction κ) → Decidable (s.Enabled a)
  | .register _ _ | .unregister _ => inferInstanceAs (Decidable True)
  | .receive _ _ => inferInstanceAs (Decidable (_ = _))
  | .submit => inferInstanceAs (Decidable (_ = _))
  | .take _ => inferInstanceAs (Decidable (_ ∧ _ ∧ _))
  | .begin _ => inferInstanceAs (Decidable (_ = _))
  | .finish _ _ => inferInstanceAs (Decidable (_ = _))

/-- What a step does. -/
def apply [DecidableEq κ] (s : Dispatcher κ) : DispatchAction κ → Dispatcher κ
  | .register funcName callback =>
    { s with
      namedCallbacks := s.namedCallbacks ++ [⟨funcName, callback, 0⟩]
      unregisteredAt := Function.update s.unregisteredAt callback none }
  | .unregister callback =>
    { s with
      namedCallbacks := s.namedCallbacks.filter fun entry ↦ entry.cb ≠ callback
      unregisteredAt := Function.update s.unregisteredAt callback (some s.receptions) }
  | .receive queryMsg size =>
    { s with
      activeCallbacks := s.namedCallbacks.map fun entry ↦ ⟨entry, queryMsg, size, s.receptions⟩
      receptions := s.receptions + 1 }
  | .submit =>
    match s.activeCallbacks with
    | d :: ds =>
      { s with
        activeCallbacks := ds
        taskQueue :=
          (Pool.enqueue .dropOldest maxQueueSize s.taskQueue d).getD s.taskQueue }
    | [] => s
  | .take w =>
    match s.taskQueue with
    | d :: ds => { s with taskQueue := ds, taken := Function.update s.taken w (some d) }
    | [] => s
  | .begin w =>
    match s.taken w with
    | some d =>
      { s with
        taken := Function.update s.taken w none
        executing := Function.update s.executing w (some d)
        calls := ⟨d.entry.cb, d.reception, s.unregisteredAt d.entry.cb⟩ :: s.calls }
    | none => s
  | .finish w threw =>
    match s.executing w with
    | some d =>
      { s with
        executing := Function.update s.executing w none
        namedCallbacks :=
          if threw = true ∧ failureThreshold ≤ d.entry.failureCount + 1 then
            s.namedCallbacks.filter fun entry ↦ entry.funcName ≠ d.entry.funcName
          else s.namedCallbacks }
    | none => s

/-- The callbacks and their deliveries as a transition system. -/
def system [DecidableEq κ] : StepSystem (Dispatcher κ) (DispatchAction κ) :=
  StepSystem.ofCommands init Enabled apply

/-! ### What a step is -/

/-- The steps by what they do, each with the condition under which it does it. -/
inductive Step [DecidableEq κ] (s : Dispatcher κ) : DispatchAction κ → Dispatcher κ → Prop
  | register (funcName : String) (callback : κ) :
      Step s (.register funcName callback) (s.apply (.register funcName callback))
  | unregister (callback : κ) : Step s (.unregister callback) (s.apply (.unregister callback))
  | receive (queryMsg : DataMessage) (size : Nat) (ha : s.activeCallbacks = []) :
      Step s (.receive queryMsg size) (s.apply (.receive queryMsg size))
  | submit (d : Delivery κ) (ds : List (Delivery κ)) (ha : s.activeCallbacks = d :: ds) :
      Step s .submit
        { s with
          activeCallbacks := ds
          taskQueue := (Pool.enqueue .dropOldest maxQueueSize s.taskQueue d).getD s.taskQueue }
  | take (w : Nat) (d : Delivery κ) (ds : List (Delivery κ)) (hq : s.taskQueue = d :: ds) :
      Step s (.take w) { s with taskQueue := ds, taken := Function.update s.taken w (some d) }
  | begin (w : Nat) (d : Delivery κ) (ht : s.taken w = some d) :
      Step s (.begin w)
        { s with
          taken := Function.update s.taken w none
          executing := Function.update s.executing w (some d)
          calls := ⟨d.entry.cb, d.reception, s.unregisteredAt d.entry.cb⟩ :: s.calls }
  | finish (w : Nat) (threw : Bool) (d : Delivery κ) (he : s.executing w = some d) :
      Step s (.finish w threw)
        { s with
          executing := Function.update s.executing w none
          namedCallbacks :=
            if threw = true ∧ failureThreshold ≤ d.entry.failureCount + 1 then
              s.namedCallbacks.filter fun entry ↦ entry.funcName ≠ d.entry.funcName
            else s.namedCallbacks }

/-- Every step that can be taken is one of these. -/
theorem step_of_enabled [DecidableEq κ] {s : Dispatcher κ} {a : DispatchAction κ}
    (h : s.Enabled a) : Step s a (s.apply a) := by
  cases a with
  | register funcName callback => exact .register funcName callback
  | unregister callback => exact .unregister callback
  | receive queryMsg size => exact .receive queryMsg size (List.isEmpty_iff.mp h)
  | submit =>
    cases ha : s.activeCallbacks with
    | nil => cases (List.isEmpty_iff.mpr ha).symm.trans h
    | cons d ds =>
      simp only [apply, ha]
      exact .submit d ds ha
  | take w =>
    cases hq : s.taskQueue with
    | nil => cases (List.isEmpty_iff.mpr hq).symm.trans h.1
    | cons d ds =>
      simp only [apply, hq]
      exact .take w d ds hq
  | begin w =>
    obtain ⟨d, ht⟩ := Option.isSome_iff_exists.mp h
    simp only [apply, ht]
    exact .begin w d ht
  | finish w threw =>
    obtain ⟨d, he⟩ := Option.isSome_iff_exists.mp h
    simp only [apply, he]
    exact .finish w threw d he

/-- What a worker has after one entry of the table of all workers has changed. -/
theorem of_update_eq_some {f : Nat → Option (Delivery κ)} {w v : Nat} {o : Option (Delivery κ)}
    {d : Delivery κ} (h : Function.update f w o v = some d) : o = some d ∨ f v = some d := by
  rw [Function.update_apply] at h
  split at h
  · exact .inl h
  · exact .inr h

/-- A submission brings no delivery into the queue but its own. -/
theorem mem_of_mem_submitted {taskQueue : List (Delivery κ)} {d x : Delivery κ}
    (h : x ∈ (Pool.enqueue .dropOldest maxQueueSize taskQueue d).getD taskQueue) :
    x ∈ taskQueue ∨ x = d := by
  cases hq : Pool.enqueue .dropOldest maxQueueSize taskQueue d with
  | none =>
    rw [hq] at h
    exact .inl h
  | some queue =>
    rw [hq] at h
    exact Pool.mem_of_mem_enqueue hq h

/-! ### Unregistered functions -/

/-- No call begins of a function that is unregistered. -/
def NoCallUnregistered (s : Dispatcher κ) : Prop := ∀ c ∈ s.calls, c.unregistered = none

/-- A call of a function that is unregistered delivers a message received, and copied for,
before it was unregistered. -/
def NoLaterDelivery (s : Dispatcher κ) : Prop :=
  ∀ c ∈ s.calls, ∀ n, c.unregistered = some n → c.reception < n

/-- The delivery is of an earlier reception than the present one, and than an unregistration
of its function. -/
def Timely (s : Dispatcher κ) (d : Delivery κ) : Prop :=
  d.reception < s.receptions ∧ ∀ n, s.unregisteredAt d.entry.cb = some n → d.reception < n

/-- Listed functions are not unregistered, and every delivery on its way is timely. -/
structure Inv (s : Dispatcher κ) : Prop where
  listed : ∀ entry ∈ s.namedCallbacks, s.unregisteredAt entry.cb = none
  active : ∀ d ∈ s.activeCallbacks, s.Timely d
  queued : ∀ d ∈ s.taskQueue, s.Timely d
  taken : ∀ w d, s.taken w = some d → s.Timely d
  calls : s.NoLaterDelivery

theorem inv_init : Inv (init : Dispatcher κ) where
  listed _ h := absurd h List.not_mem_nil
  active _ h := absurd h List.not_mem_nil
  queued _ h := absurd h List.not_mem_nil
  taken _ _ h := nomatch h
  calls _ h := absurd h List.not_mem_nil

variable [DecidableEq κ] {s s' : Dispatcher κ}

omit [DecidableEq κ] in
/-- A delivery stays timely if no unregistration is recorded but at the present reception. -/
private theorem Timely.mono {d : Delivery κ} (h : s.Timely d)
    (hr : s.receptions ≤ s'.receptions)
    (hu : ∀ n, s'.unregisteredAt d.entry.cb = some n →
      s.unregisteredAt d.entry.cb = some n ∨ n = s.receptions) : s'.Timely d := by
  refine ⟨Nat.lt_of_lt_of_le h.1 hr, fun n hn ↦ ?_⟩
  rcases hu n hn with hn | rfl
  · exact h.2 n hn
  · exact h.1

private theorem Inv.register (h : Inv s) (funcName : String) (callback : κ) :
    Inv (s.apply (.register funcName callback)) := by
  have hu (k : κ) : (s.apply (.register funcName callback)).unregisteredAt k =
      if k = callback then none else s.unregisteredAt k := Function.update_apply ..
  have hmono (d : Delivery κ) (hd : s.Timely d) :
      (s.apply (.register funcName callback)).Timely d := by
    refine hd.mono (Nat.le_refl _) fun n hn ↦ ?_
    rw [hu] at hn
    split at hn
    · cases hn
    · exact Or.inl hn
  refine ⟨fun entry he ↦ ?_, fun d hd ↦ hmono d (h.active d hd),
    fun d hd ↦ hmono d (h.queued d hd), fun w d hd ↦ hmono d (h.taken w d hd), h.calls⟩
  rw [hu]
  split
  · rfl
  · next hne =>
    rcases List.mem_append.mp he with he | he
    · exact h.listed entry he
    · exact absurd (List.mem_singleton.mp he ▸ rfl) hne

private theorem Inv.unregister (h : Inv s) (callback : κ) :
    Inv (s.apply (.unregister callback)) := by
  have hu (k : κ) : (s.apply (.unregister callback)).unregisteredAt k =
      if k = callback then some s.receptions else s.unregisteredAt k := Function.update_apply ..
  have hmono (d : Delivery κ) (hd : s.Timely d) : (s.apply (.unregister callback)).Timely d := by
    refine hd.mono (Nat.le_refl _) fun n hn ↦ ?_
    rw [hu] at hn
    split at hn
    · exact Or.inr (Option.some.inj hn).symm
    · exact Or.inl hn
  refine ⟨fun entry he ↦ ?_, fun d hd ↦ hmono d (h.active d hd),
    fun d hd ↦ hmono d (h.queued d hd), fun w d hd ↦ hmono d (h.taken w d hd), h.calls⟩
  obtain ⟨he, hne⟩ := List.mem_filter.mp he
  rw [hu, if_neg (by simpa using hne)]
  exact h.listed entry he

private theorem Inv.receive (h : Inv s) (queryMsg : DataMessage) (size : Nat) :
    Inv (s.apply (.receive queryMsg size)) := by
  have hmono (d : Delivery κ) (hd : s.Timely d) :
      (s.apply (.receive queryMsg size)).Timely d :=
    hd.mono (Nat.le_succ _) fun n hn ↦ Or.inl hn
  refine ⟨h.listed, fun d hd ↦ ?_, fun d hd ↦ hmono d (h.queued d hd),
    fun w d hd ↦ hmono d (h.taken w d hd), h.calls⟩
  obtain ⟨entry, he, rfl⟩ := List.mem_map.mp hd
  refine ⟨Nat.lt_succ_self _, fun n hn ↦ ?_⟩
  have hnone := h.listed entry he
  exact absurd (hnone.symm.trans hn) (by simp)

/-- Each step keeps the invariant. -/
theorem Inv.step {a : DispatchAction κ} (h : Inv s) (hs : Step s a s') : Inv s' := by
  cases hs with
  | register funcName callback => exact h.register funcName callback
  | unregister callback => exact h.unregister callback
  | receive queryMsg size => exact h.receive queryMsg size
  | submit d ds ha =>
    refine ⟨h.listed, fun x hx ↦ h.active x (ha ▸ List.mem_cons_of_mem d hx), fun x hx ↦ ?_,
      h.taken, h.calls⟩
    rcases mem_of_mem_submitted hx with hx | rfl
    · exact h.queued x hx
    · exact h.active x (ha ▸ List.mem_cons_self)
  | take w d ds hq =>
    refine ⟨h.listed, h.active, fun x hx ↦ h.queued x (hq ▸ List.mem_cons_of_mem d hx),
      fun v x hx ↦ ?_, h.calls⟩
    rcases of_update_eq_some hx with hx | hx
    · cases hx
      exact h.queued d (hq ▸ List.mem_cons_self)
    · exact h.taken v x hx
  | begin w d ht =>
    refine ⟨h.listed, h.active, h.queued, fun v x hx ↦ ?_, fun c hc ↦ ?_⟩
    · rcases of_update_eq_some hx with hx | hx
      · cases hx
      · exact h.taken v x hx
    · rcases List.mem_cons.mp hc with rfl | hc
      · exact (h.taken w d ht).2
      · exact h.calls c hc
  | finish w threw d he =>
    refine ⟨fun entry hentry ↦ h.listed entry ?_, h.active, h.queued, h.taken, h.calls⟩
    split at hentry
    · exact (List.mem_filter.mp hentry).1
    · exact hentry

/-- In every run the invariant holds. -/
theorem inv_of_reachable (h : system.Reachable s) : Inv s :=
  StepSystem.ReachableUnder.invariant_of_commands inv_init
    (fun _ _ ht _ he ↦ ht.step (step_of_enabled he)) h

/-- Whatever the interleaving, a function that is unregistered and not registered again is
called only for messages received before it was unregistered. -/
theorem noLaterDelivery_of_reachable (h : system.Reachable s) : s.NoLaterDelivery :=
  (inv_of_reachable h).calls

/-- The function 7 is registered, a message is received for it, and it is unregistered
before a worker gets to the task. -/
def unregisteredWhileQueued : List (DispatchAction Nat) :=
  [.register "f" 7, .receive DataMessage.new 6, .submit, .unregister 7, .take 0, .begin 0]

/-- A worker begins a call of a function that is unregistered. -/
theorem not_noCallUnregistered_queued :
    ∃ t : Dispatcher Nat, system.Reachable t ∧ ¬ t.NoCallUnregistered := by
  have hrun : ∃ t, system.run (fun _ _ ↦ True) init unregisteredWhileQueued = some t ∧
      t.calls = [⟨7, 0, some 1⟩] := ⟨_, rfl, rfl⟩
  obtain ⟨t, ht, hcalls⟩ := hrun
  refine ⟨t, StepSystem.reachableUnder_of_run ht, fun h ↦ ?_⟩
  have hnone := h ⟨7, 0, some 1⟩ (by rw [hcalls]; exact List.mem_singleton_self _)
  cases hnone

/-- In that run the call is of the earlier reception. -/
theorem noLaterDelivery_queued :
    ∃ t : Dispatcher Nat, t.calls = [⟨7, 0, some 1⟩] ∧ t.NoLaterDelivery := by
  have hrun : ∃ t, system.run (fun _ _ ↦ True) init unregisteredWhileQueued = some t ∧
      t.calls = [⟨7, 0, some 1⟩] := ⟨_, rfl, rfl⟩
  obtain ⟨t, ht, hcalls⟩ := hrun
  exact ⟨t, hcalls, noLaterDelivery_of_reachable (StepSystem.reachableUnder_of_run ht)⟩

end Dispatcher
end OctopusIpc.Client

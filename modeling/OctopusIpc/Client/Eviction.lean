import OctopusIpc.Client.Callbacks

/-!
# Eviction of failing callbacks

`ipc_invoke_notify_response` counts the failures of an entry in the copy of the entry that it
made for the delivery, and the next delivery copies the entry of the list again, whose count
is still 0. So no copy ever counts to the threshold, and nothing is ever removed.
-/

namespace OctopusIpc.Client

variable {κ : Type}

/-! ### Under every interleaving -/

namespace Dispatcher

/-- Every entry, in the list or captured by a task, has a count of 0. -/
structure Uncounted (s : Dispatcher κ) : Prop where
  listed : ∀ entry ∈ s.namedCallbacks, entry.failureCount = 0
  active : ∀ d ∈ s.activeCallbacks, d.entry.failureCount = 0
  queued : ∀ d ∈ s.taskQueue, d.entry.failureCount = 0
  taken : ∀ w d, s.taken w = some d → d.entry.failureCount = 0
  executing : ∀ w d, s.executing w = some d → d.entry.failureCount = 0

theorem uncounted_init : Uncounted (init : Dispatcher κ) := ⟨nofun, nofun, nofun, nofun, nofun⟩

variable [DecidableEq κ] {s s' : Dispatcher κ}

/-- No step changes a count that is kept. -/
theorem Uncounted.step {a : DispatchAction κ} (h : Uncounted s) (hs : Step s a s') :
    Uncounted s' := by
  cases hs with
  | register funcName callback =>
    refine ⟨fun entry he ↦ ?_, h.active, h.queued, h.taken, h.executing⟩
    rcases List.mem_append.mp he with he | he
    · exact h.listed entry he
    · rw [List.mem_singleton.mp he]
  | unregister callback =>
    exact ⟨fun entry he ↦ h.listed entry (List.mem_filter.mp he).1, h.active, h.queued, h.taken,
      h.executing⟩
  | receive queryMsg size =>
    refine ⟨h.listed, fun d hd ↦ ?_, h.queued, h.taken, h.executing⟩
    obtain ⟨entry, he, rfl⟩ := List.mem_map.mp hd
    exact h.listed entry he
  | submit d ds ha =>
    refine ⟨h.listed, fun x hx ↦ h.active x (ha ▸ List.mem_cons_of_mem d hx), fun x hx ↦ ?_,
      h.taken, h.executing⟩
    rcases mem_of_mem_submitted hx with hx | rfl
    · exact h.queued x hx
    · exact h.active x (ha ▸ List.mem_cons_self)
  | take w d ds hq =>
    refine ⟨h.listed, h.active, fun x hx ↦ h.queued x (hq ▸ List.mem_cons_of_mem d hx),
      fun v x hx ↦ ?_, h.executing⟩
    rcases of_update_eq_some hx with hx | hx
    · cases hx
      exact h.queued d (hq ▸ List.mem_cons_self)
    · exact h.taken v x hx
  | begin w d ht =>
    refine ⟨h.listed, h.active, h.queued, fun v x hx ↦ ?_, fun v x hx ↦ ?_⟩
    · rcases of_update_eq_some hx with hx | hx
      · cases hx
      · exact h.taken v x hx
    · rcases of_update_eq_some hx with hx | hx
      · cases hx
        exact h.taken w d ht
      · exact h.executing v x hx
  | finish w threw d he =>
    refine ⟨fun entry hentry ↦ h.listed entry ?_, h.active, h.queued, h.taken, fun v x hx ↦ ?_⟩
    · split at hentry
      · exact (List.mem_filter.mp hentry).1
      · exact hentry
    · rcases of_update_eq_some hx with hx | hx
      · cases hx
      · exact h.executing v x hx

/-- In every run all counts that are kept are 0. -/
theorem uncounted_of_reachable (h : system.Reachable s) : Uncounted s :=
  StepSystem.ReachableUnder.invariant_of_commands uncounted_init
    (fun _ _ ht _ he ↦ ht.step (step_of_enabled he)) h

/-- Whatever the interleaving and the outcome, the end of a call removes nothing. -/
theorem namedCallbacks_finish (h : system.Reachable s) (w : Nat) (threw : Bool) :
    (s.apply (.finish w threw)).namedCallbacks = s.namedCallbacks := by
  cases he : s.executing w with
  | none => simp only [apply, he]
  | some d =>
    have hzero := (uncounted_of_reachable h).executing w d he
    simp only [apply, he, hzero]
    exact if_neg fun hthreshold ↦ absurd hthreshold.2 (by decide)

end Dispatcher

/-! ### Deliveries processed in order -/

/-- How a call of a callback ends. -/
inductive CallOutcome where
  | returned
  /-- With a `std::exception`. -/
  | threwException
  /-- With anything else. -/
  | threwUnknown
  deriving DecidableEq, Repr

/-- One of the `catch` blocks is entered. -/
def CallOutcome.threw : CallOutcome → Bool
  | returned => false
  | threwException | threwUnknown => true

/-- An entry of the list with its place in the order of registrations, for the specification. -/
structure Registered (κ : Type) where
  number : Nat
  entry : CallbackEntry κ

/-- `g_named_callbacks`, and for the specification the number of registrations and how many
deliveries to each registered entry have thrown. -/
structure CallbackList (κ : Type) where
  namedCallbacks : List (Registered κ)
  registrations : Nat
  thrown : Nat → Nat

/-- A registration, or a received message with the outcome of each entry's call. -/
inductive CallbackEvent (κ : Type) where
  | register (funcName : String) (callback : Option κ)
  | receive (outcome : Nat → CallOutcome)

namespace CallbackList
open Dispatcher

/-- Nothing registered. -/
def init : CallbackList κ := ⟨[], 0, fun _ ↦ 0⟩

/-- `src/APP/octopus_ipc_app_client.cpp:245–253`; a null pointer is not registered. -/
def register (s : CallbackList κ) (funcName : String) : Option κ → CallbackList κ
  | none => s
  | some callback =>
    { s with
      namedCallbacks := s.namedCallbacks ++ [⟨s.registrations, ⟨funcName, callback, 0⟩⟩]
      registrations := s.registrations + 1 }

/-- The body of the `catch` blocks, which counts in the copy;
`src/APP/octopus_ipc_app_client.cpp:329–341`. -/
def countFailure (s : CallbackList κ) (copy : Registered κ) : CallbackList κ :=
  let failureCount := copy.entry.failureCount + 1
  { s with
    namedCallbacks :=
      if failureThreshold ≤ failureCount then
        s.namedCallbacks.filter fun r ↦ r.entry.funcName ≠ copy.entry.funcName
      else s.namedCallbacks
    thrown := Function.update s.thrown copy.number (s.thrown copy.number + 1) }

/-- The task of one delivery; `src/APP/octopus_ipc_app_client.cpp:319–359`. -/
def runTask (s : CallbackList κ) (copy : Registered κ) : CallOutcome → CallbackList κ
  | .returned => s
  | .threwException => s.countFailure copy
  | .threwUnknown => s.countFailure copy

/-- A reception copies the list and delivers to each copy;
`src/APP/octopus_ipc_app_client.cpp:300–361`. -/
def ipcInvokeNotifyResponse (s : CallbackList κ) (outcome : Nat → CallOutcome) : CallbackList κ :=
  s.namedCallbacks.foldl (fun t copy ↦ t.runTask copy (outcome copy.number)) s

/-- What an event does. -/
def handle (s : CallbackList κ) : CallbackEvent κ → CallbackList κ
  | .register funcName callback => s.register funcName callback
  | .receive outcome => s.ipcInvokeNotifyResponse outcome

/-- The list after a sequence of events. -/
def after (events : List (CallbackEvent κ)) : CallbackList κ := events.foldl handle init

/-- An entry is in the list exactly while fewer of its own deliveries than the threshold have
thrown. -/
def EvictsAtThreshold (s : CallbackList κ) : Prop :=
  ∀ n < s.registrations, n ∈ s.namedCallbacks.map Registered.number ↔ s.thrown n < failureThreshold

/-- How often the delivery to the `n`-th registered entry throws over a sequence of events, of
which it gets those behind its registration. -/
def throws (n : Nat) : (registrations : Nat) → List (CallbackEvent κ) → Nat
  | _, [] => 0
  | registrations, .register _ none :: events => throws n registrations events
  | registrations, .register _ (some _) :: events => throws n (registrations + 1) events
  | registrations, .receive outcome :: events =>
    (if n < registrations ∧ (outcome n).threw = true then 1 else 0) + throws n registrations events

/-- Every entry that was ever registered is in the list, with a count of 0. -/
structure Kept (s : CallbackList κ) : Prop where
  numbers : s.namedCallbacks.map Registered.number = List.range s.registrations
  counts : ∀ r ∈ s.namedCallbacks, r.entry.failureCount = 0
  unregistered : ∀ n, s.registrations ≤ n → s.thrown n = 0

theorem kept_init : Kept (init : CallbackList κ) := ⟨rfl, nofun, fun _ _ ↦ rfl⟩

variable {s : CallbackList κ}

/-- A delivery to a copy with a count of 0 removes nothing. -/
theorem runTask_of_count_zero (s : CallbackList κ) {copy : Registered κ}
    (h : copy.entry.failureCount = 0) (outcome : CallOutcome) :
    s.runTask copy outcome =
      { s with
        thrown := Function.update s.thrown copy.number
          (s.thrown copy.number + if outcome.threw = true then 1 else 0) } := by
  have hcount : s.countFailure copy =
      { s with thrown := Function.update s.thrown copy.number (s.thrown copy.number + 1) } := by
    have hbelow : ¬ failureThreshold ≤ 0 + 1 := by decide
    rw [countFailure, h]
    simp only [if_neg hbelow]
  cases outcome with
  | returned =>
    simp only [runTask, CallOutcome.threw, Bool.false_eq_true, if_false, Nat.add_zero,
      Function.update_eq_self]
  | threwException => exact hcount
  | threwUnknown => exact hcount

/-- Deliveries to copies with a count of 0 remove nothing and are counted by their number. -/
private theorem foldl_runTask {copies : List (Registered κ)}
    (hcounts : ∀ r ∈ copies, r.entry.failureCount = 0)
    (hnodup : (copies.map Registered.number).Nodup) (outcome : Nat → CallOutcome) :
    let t := copies.foldl (fun t copy ↦ t.runTask copy (outcome copy.number)) s
    t.namedCallbacks = s.namedCallbacks ∧ t.registrations = s.registrations ∧
      ∀ n, t.thrown n = s.thrown n +
        if n ∈ copies.map Registered.number ∧ (outcome n).threw = true then 1 else 0 := by
  induction copies generalizing s with
  | nil => exact ⟨rfl, rfl, fun n ↦ by simp⟩
  | cons copy copies ih =>
    rw [List.map_cons, List.nodup_cons] at hnodup
    obtain ⟨hnot, hnodup⟩ := hnodup
    have hstep := runTask_of_count_zero s (hcounts copy List.mem_cons_self) (outcome copy.number)
    obtain ⟨hnamed, hregistrations, hthrown⟩ :=
      ih (s := s.runTask copy (outcome copy.number))
        (fun r hr ↦ hcounts r (List.mem_cons_of_mem copy hr)) hnodup
    refine ⟨hnamed.trans (by rw [hstep]), hregistrations.trans (by rw [hstep]), fun n ↦ ?_⟩
    refine (hthrown n).trans ?_
    rw [hstep]
    simp only [Function.update_apply, List.map_cons, List.mem_cons]
    by_cases hn : n = copy.number
    · subst hn
      simp only [if_true, hnot, false_and, if_false, Nat.add_zero, true_or, true_and]
    · simp only [hn, if_false, false_or]

private theorem Kept.receive (h : Kept s) (outcome : Nat → CallOutcome) :
    Kept (s.ipcInvokeNotifyResponse outcome) ∧
      (s.ipcInvokeNotifyResponse outcome).registrations = s.registrations ∧
      ∀ n, (s.ipcInvokeNotifyResponse outcome).thrown n =
        s.thrown n + if n < s.registrations ∧ (outcome n).threw = true then 1 else 0 := by
  obtain ⟨hnamed, hregistrations, hthrown⟩ :=
    foldl_runTask (s := s) h.counts (h.numbers ▸ List.nodup_range) outcome
  simp only [h.numbers, List.mem_range] at hthrown
  refine ⟨⟨?_, ?_, fun n hn ↦ ?_⟩, hregistrations, hthrown⟩
  · exact (congrArg _ hnamed).trans (h.numbers.trans (congrArg _ hregistrations.symm))
  · exact fun r hr ↦ h.counts r (hnamed ▸ hr)
  · have hle : s.registrations ≤ n := Nat.le_trans (Nat.le_of_eq hregistrations.symm) hn
    refine (hthrown n).trans ?_
    rw [h.unregistered n hle, if_neg fun hlt ↦ Nat.not_lt.mpr hle hlt.1]

private theorem Kept.register (h : Kept s) (funcName : String) (callback : κ) :
    Kept (s.register funcName (some callback)) := by
  refine ⟨?_, fun r hr ↦ ?_, fun n hn ↦ h.unregistered n (Nat.le_of_succ_le hn)⟩
  · simp only [CallbackList.register, List.map_append, h.numbers, List.map_cons, List.map_nil,
      List.range_succ]
  · rcases List.mem_append.mp hr with hr | hr
    · exact h.counts r hr
    · rw [List.mem_singleton.mp hr]

/-- Over any sequence of events every entry is kept, and its failures are those the events
have for it. -/
theorem Kept.foldl (h : Kept s) (events : List (CallbackEvent κ)) :
    Kept (events.foldl handle s) ∧
      ∀ n, (events.foldl handle s).thrown n = s.thrown n + throws n s.registrations events := by
  induction events generalizing s with
  | nil => exact ⟨h, fun n ↦ rfl⟩
  | cons event events ih =>
    rw [List.foldl_cons]
    cases event with
    | register funcName callback =>
      cases callback with
      | none => exact ih h
      | some callback => exact ih (h.register funcName callback)
    | receive outcome =>
      obtain ⟨hkept, hregistrations, hthrown⟩ := h.receive outcome
      obtain ⟨hkept', hthrown'⟩ := ih hkept
      refine ⟨hkept', fun n ↦ (hthrown' n).trans ?_⟩
      rw [hthrown n, hregistrations, throws, Nat.add_assoc]

theorem kept_after (events : List (CallbackEvent κ)) : Kept (after events) :=
  (kept_init.foldl events).1

/-- The failures of an entry after a sequence of events. -/
theorem thrown_after (events : List (CallbackEvent κ)) (n : Nat) :
    (after events).thrown n = throws n 0 events :=
  ((kept_init.foldl events).2 n).trans (Nat.zero_add _)

/-- Where nothing is ever removed, eviction is right while no entry has reached the threshold. -/
theorem Kept.evictsAtThreshold_iff (h : Kept s) :
    EvictsAtThreshold s ↔ ∀ n, s.thrown n < failureThreshold := by
  have hmem (n : Nat) : n ∈ s.namedCallbacks.map Registered.number ↔ n < s.registrations := by
    rw [h.numbers, List.mem_range]
  constructor
  · intro he n
    rcases Nat.lt_or_ge n s.registrations with hn | hn
    · exact (he n hn).mp ((hmem n).mpr hn)
    · rw [h.unregistered n hn]
      decide
  · exact fun ht n hn ↦ iff_of_true ((hmem n).mpr hn) (ht n)

/-- More events have more failures. -/
theorem throws_mono {pre events : List (CallbackEvent κ)} (h : pre <+: events) (n : Nat) :
    throws n 0 pre ≤ throws n 0 events := by
  obtain ⟨post, rfl⟩ := h
  have hadd := ((kept_after pre).foldl post).2 n
  rw [after, ← List.foldl_append] at hadd
  rw [← thrown_after, ← thrown_after]
  exact Nat.le.intro hadd.symm

/-- Over a sequence of events each entry is in the list exactly while fewer than three of its own
deliveries have thrown, if and only if no entry has three deliveries that throw. -/
theorem evictsAtThreshold_after_iff (events : List (CallbackEvent κ)) :
    (∀ pre, pre <+: events → EvictsAtThreshold (after pre)) ↔
      ∀ n, throws n 0 events < failureThreshold := by
  constructor
  · intro h n
    have hall := (kept_after events).evictsAtThreshold_iff.mp (h events (List.prefix_refl _)) n
    rwa [thrown_after] at hall
  · intro h pre hpre
    refine (kept_after pre).evictsAtThreshold_iff.mpr fun n ↦ ?_
    rw [thrown_after]
    exact Nat.lt_of_le_of_lt (throws_mono hpre n) (h n)

/-- A callback that throws at each of three messages. -/
def threeFailures : List (CallbackEvent Nat) :=
  [.register "f" (some 7), .receive fun _ ↦ .threwException, .receive fun _ ↦ .threwUnknown,
    .receive fun _ ↦ .threwException]

/-- It is still registered. -/
theorem not_evictsAtThreshold_threeFailures :
    (after threeFailures).thrown 0 = 3 ∧
      (after threeFailures).namedCallbacks.map Registered.number = [0] ∧
      ¬ EvictsAtThreshold (after threeFailures) := by
  refine ⟨rfl, rfl, fun h ↦ ?_⟩
  have hthrown : (after threeFailures).thrown 0 < failureThreshold :=
    (h 0 (by decide)).mp (by decide)
  exact absurd hthrown (by decide)

end CallbackList

end OctopusIpc.Client

import Mathlib.Logic.Function.Basic
import OctopusIpc.Base.StepSystem

/-!
# Lock order

Any number of threads that take and release locks, each starting one operation after another.
If the locks are ranked and every operation takes locks only above those it holds and gives
back all it took, then a thread inside an operation never means that all threads are stuck: of
the threads inside one, some thread can go on.
-/

universe u

/-- What an operation does with a lock. -/
inductive LockAction (μ : Type u) where
  | acquire (m : μ)
  | release (m : μ)
  deriving DecidableEq, Repr

/-- A lock held for the time of a computation. -/
def LockAction.critical {μ : Type u} (m : μ) (body : List (LockAction μ)) :
    List (LockAction μ) :=
  .acquire m :: (body ++ [.release m])

/-- What each thread has left to do of its operation, and the owner of each lock. -/
structure LockState (μ : Type u) where
  rest : Nat → List (LockAction μ)
  owner : μ → Option Nat

/-- The steps of the threads. -/
inductive LockStep (μ : Type u) where
  /-- A thread outside of an operation starts one. -/
  | start (i : Nat) (operation : List (LockAction μ))
  /-- A thread takes or releases its next lock. -/
  | act (i : Nat)
  deriving DecidableEq, Repr

namespace LockState

variable {μ : Type u} [DecidableEq μ]

/-- Whether a thread can take the next action of its operation. A lock can be taken while nobody
owns it, and is released by its owner. -/
def CanGoOn (s : LockState μ) (i : Nat) : List (LockAction μ) → Prop
  | [] => False
  | .acquire m :: _ => s.owner m = none
  | .release m :: _ => s.owner m = some i

instance (s : LockState μ) (i : Nat) : (as : List (LockAction μ)) → Decidable (s.CanGoOn i as)
  | [] => inferInstanceAs (Decidable False)
  | .acquire _ :: _ => inferInstanceAs (Decidable (_ = _))
  | .release _ :: _ => inferInstanceAs (Decidable (_ = _))

/-- When a step can be taken. -/
def Enabled (s : LockState μ) : LockStep μ → Prop
  | .start i _ => s.rest i = []
  | .act i => s.CanGoOn i (s.rest i)

instance (s : LockState μ) : (a : LockStep μ) → Decidable (s.Enabled a)
  | .start _ _ => inferInstanceAs (Decidable (_ = _))
  | .act i => inferInstanceAs (Decidable (s.CanGoOn i (s.rest i)))

/-- A thread takes the next action of its operation. -/
def goOn (s : LockState μ) (i : Nat) : List (LockAction μ) → LockState μ
  | [] => s
  | .acquire m :: rest => ⟨Function.update s.rest i rest, Function.update s.owner m (some i)⟩
  | .release m :: rest => ⟨Function.update s.rest i rest, Function.update s.owner m none⟩

/-- What a step does. -/
def apply (s : LockState μ) : LockStep μ → LockState μ
  | .start i operation => { s with rest := Function.update s.rest i operation }
  | .act i => s.goOn i (s.rest i)

/-- No thread is in an operation and no lock is taken. -/
def init : LockState μ := ⟨fun _ ↦ [], fun _ ↦ none⟩

/-- The threads as a transition system. -/
def system : StepSystem (LockState μ) (LockStep μ) := StepSystem.ofCommands init Enabled apply

variable (rank : μ → Nat)

/-- With these locks held, the rest of an operation takes only locks above those it holds,
releases what it holds, and holds nothing in the end. -/
def Ordered : List μ → List (LockAction μ) → Prop
  | held, [] => held = []
  | held, .acquire m :: rest => (∀ h ∈ held, rank h < rank m) ∧ Ordered (m :: held) rest
  | held, .release m :: rest => m ∈ held ∧ Ordered (held.filter (· ≠ m)) rest

/-- An operation takes only locks above those of a list. -/
def TakesAbove (outer : List μ) (as : List (LockAction μ)) : Prop :=
  ∀ m, .acquire m ∈ as → ∀ h ∈ outer, rank h < rank m

/-- Only ordered operations are started. -/
def StartsOrdered (_ : LockState μ) : LockStep μ → Prop
  | .start _ operation => Ordered rank [] operation
  | .act _ => True

/-- What each thread holds, and that it goes on in order from there. -/
def Orderly (s : LockState μ) (held : Nat → List μ) : Prop :=
  (∀ i, Ordered rank (held i) (s.rest i)) ∧ ∀ i m, m ∈ held i ↔ s.owner m = some i

variable {rank} {s : LockState μ} {held : Nat → List μ}

/-! ### Ordered operations -/

/-- An ordered operation can be carried out with further locks held that are below all it
takes. -/
theorem ordered_append {inner outer : List μ} {as bs : List (LockAction μ)}
    (ha : Ordered rank inner as) (habove : TakesAbove rank outer as)
    (hinner : ∀ m ∈ inner, ∀ h ∈ outer, rank h < rank m) (hb : Ordered rank outer bs) :
    Ordered rank (inner ++ outer) (as ++ bs) := by
  induction as generalizing inner with
  | nil =>
    rw [show inner = [] from ha]
    exact hb
  | cons a as ih =>
    have hrest : TakesAbove rank outer as := fun m hm ↦ habove m (List.mem_cons_of_mem a hm)
    cases a with
    | acquire m =>
      have hm := habove m List.mem_cons_self
      refine ⟨List.forall_mem_append.mpr ⟨ha.1, hm⟩, ?_⟩
      exact ih ha.2 hrest (List.forall_mem_cons.mpr ⟨hm, hinner⟩)
    | release m =>
      have hm : m ∉ outer := fun h ↦ absurd (hinner m ha.1 m h) (Nat.lt_irrefl _)
      have houter : outer.filter (· ≠ m) = outer :=
        List.filter_eq_self.mpr fun h hh ↦ decide_eq_true fun heq ↦ hm (heq ▸ hh)
      refine ⟨List.mem_append_left _ ha.1, ?_⟩
      rw [List.filter_append, houter]
      exact ih ha.2 hrest fun n hn ↦ hinner n (List.mem_filter.mp hn).1

/-- One ordered operation after another. -/
theorem Ordered.append {as bs : List (LockAction μ)} (ha : Ordered rank [] as)
    (hb : Ordered rank [] bs) : Ordered rank [] (as ++ bs) :=
  ordered_append ha (fun _ _ _ h ↦ absurd h List.not_mem_nil)
    (fun _ h ↦ absurd h List.not_mem_nil) hb

/-- A lock held around an ordered operation that takes only locks above it. -/
theorem Ordered.critical {m : μ} {body : List (LockAction μ)} (hbody : Ordered rank [] body)
    (habove : TakesAbove rank [m] body) : Ordered rank [] (LockAction.critical m body) := by
  refine ⟨fun _ h ↦ absurd h List.not_mem_nil, ?_⟩
  have hrelease : Ordered rank [m] [.release m] := by simp [Ordered]
  exact ordered_append hbody habove (fun _ h ↦ absurd h List.not_mem_nil) hrelease

/-- A sequence of ordered operations. -/
theorem ordered_flatten {ops : List (List (LockAction μ))}
    (h : ∀ as ∈ ops, Ordered rank [] as) : Ordered rank [] ops.flatten := by
  induction ops with
  | nil => rfl
  | cons as ops ih =>
    obtain ⟨has, hops⟩ := List.forall_mem_cons.mp h
    exact has.append (ih hops)

/-! ### Reachable states -/

/-- A thread that goes on from a state of its own. -/
private theorem ordered_update {i : Nat} {rest : List (LockAction μ)} {now : List μ}
    (h : ∀ j, Ordered rank (held j) (s.rest j)) (hi : Ordered rank now rest) (j : Nat) :
    Ordered rank (Function.update held i now j) (Function.update s.rest i rest j) := by
  by_cases hj : j = i
  · subst hj
    rw [Function.update_self, Function.update_self]
    exact hi
  · rw [Function.update_of_ne hj, Function.update_of_ne hj]
    exact h j

/-- Who owns a lock after a change of one thread's locks. -/
private theorem mem_update_iff {i : Nat} {now : List μ} {m : μ} {o : Option Nat}
    (howner : ∀ j n, n ∈ held j ↔ s.owner n = some j)
    (hi : ∀ n, n ∈ now ↔ Function.update s.owner m o n = some i)
    (hother : ∀ j, j ≠ i → s.owner m ≠ some j ∧ o ≠ some j) (j : Nat) (n : μ) :
    n ∈ Function.update held i now j ↔ Function.update s.owner m o n = some j := by
  by_cases hj : j = i
  · subst hj
    rw [Function.update_self]
    exact hi n
  · rw [Function.update_of_ne hj, howner]
    by_cases hn : n = m
    · subst hn
      rw [Function.update_self]
      simp only [(hother j hj).1, (hother j hj).2]
    · rw [Function.update_of_ne hn]

/-- A thread that starts an operation. -/
private theorem Orderly.start {i : Nat} {operation : List (LockAction μ)}
    (h : Orderly rank s held) (hg : Ordered rank [] operation) (he : s.rest i = []) :
    Orderly rank (s.apply (.start i operation)) held := by
  have hidle : held i = [] := by
    have hi := h.1 i
    rwa [he] at hi
  refine ⟨fun j ↦ ?_, h.2⟩
  rw [← hidle] at hg
  have hj := ordered_update (i := i) h.1 hg j
  rwa [Function.update_eq_self] at hj

/-- A thread that goes on in its operation. -/
private theorem Orderly.goOn {i : Nat} (h : Orderly rank s held) (he : s.CanGoOn i (s.rest i)) :
    ∃ held', Orderly rank (s.goOn i (s.rest i)) held' := by
  have hi := h.1 i
  match hrest : s.rest i with
  | [] => exact ⟨held, h⟩
  | .acquire m :: rest =>
    rw [hrest] at he hi
    have hfree : s.owner m = none := he
    refine ⟨_, ordered_update h.1 hi.2, mem_update_iff h.2 (fun n ↦ ?_) fun j hj ↦ ?_⟩
    · by_cases hn : n = m
      · simp [hn]
      · simp [hn, h.2 i n]
    · have hne : i ≠ j := fun heq ↦ hj heq.symm
      simp [hfree, hne]
  | .release m :: rest =>
    rw [hrest] at he hi
    have howned : s.owner m = some i := he
    refine ⟨_, ordered_update h.1 hi.2, mem_update_iff h.2 (fun n ↦ ?_) fun j hj ↦ ?_⟩
    · by_cases hn : n = m
      · simp [hn]
      · simp [hn, h.2 i n]
    · have hne : i ≠ j := fun heq ↦ hj heq.symm
      simp [howned, hne]

theorem orderly_init : Orderly rank (init : LockState μ) fun _ ↦ [] :=
  ⟨fun _ ↦ by simp [Ordered, init], fun _ _ ↦ by simp [init]⟩

/-- In every reachable state the threads are orderly. -/
theorem exists_orderly (h : system.ReachableUnder (StartsOrdered rank) s) :
    ∃ held, Orderly rank s held := by
  refine StepSystem.ReachableUnder.invariant_of_commands (I := fun t ↦ ∃ held, Orderly rank t held)
    ⟨_, orderly_init⟩ ?_ h
  rintro t (⟨i, operation⟩ | i) ⟨held, ht⟩ hg he
  · exact ⟨held, ht.start hg he⟩
  · exact ht.goOn he

/-- A thread that holds a lock is inside its operation. -/
private theorem Orderly.rest_ne_nil {m : μ} {i : Nat} (h : Orderly rank s held)
    (hm : m ∈ held i) : s.rest i ≠ [] := by
  intro hnil
  have hi := h.1 i
  rw [hnil] at hi
  rw [show held i = [] from hi] at hm
  cases hm

/-- A thread that waits for a lock waits above all it holds. -/
private theorem Orderly.rank_lt {m n : μ} {i : Nat} {rest : List (LockAction μ)}
    (h : Orderly rank s held) (hm : m ∈ held i) (hrest : s.rest i = .acquire n :: rest) :
    rank m < rank n := by
  have hi := h.1 i
  rw [hrest] at hi
  exact hi.1 m hm

/-- A thread that is to release a lock can do so. -/
private theorem Orderly.canGoOn_of_release {m : μ} {i : Nat} {rest : List (LockAction μ)}
    (h : Orderly rank s held) (hrest : s.rest i = .release m :: rest) : s.Enabled (.act i) := by
  have hi := h.1 i
  rw [hrest] at hi
  rw [Enabled, hrest]
  exact (h.2 i m).mp hi.1

/-- From a thread inside its operation, follow the owners of the locks waited for upwards: the
last one can go on. -/
private theorem Orderly.exists_enabled {bound : Nat} (hbound : ∀ m, rank m ≤ bound)
    (h : Orderly rank s held) (n : Nat) {i : Nat} (hi : s.rest i ≠ [])
    (hn : ∀ m rest, s.rest i = .acquire m :: rest → bound < rank m + n) :
    ∃ j, s.Enabled (.act j) := by
  induction n generalizing i with
  | zero =>
    match hrest : s.rest i with
    | [] => exact absurd hrest hi
    | .release m :: rest => exact ⟨i, h.canGoOn_of_release hrest⟩
    | .acquire m :: rest =>
      have hlow := hn m rest hrest
      have htop := hbound m
      omega
  | succ n ih =>
    match hrest : s.rest i with
    | [] => exact absurd hrest hi
    | .release m :: rest => exact ⟨i, h.canGoOn_of_release hrest⟩
    | .acquire m :: rest =>
      cases hown : s.owner m with
      | none => exact ⟨i, by rw [Enabled, hrest]; exact hown⟩
      | some j =>
        have hmem := (h.2 j m).mpr hown
        refine ih (h.rest_ne_nil hmem) fun m' rest' hrest' ↦ ?_
        have hup := h.rank_lt hmem hrest'
        have hlow := hn m rest hrest
        omega

/-- No deadlock: while a thread is inside an operation, some thread can go on. -/
theorem exists_enabled_of_reachable {bound : Nat} (hbound : ∀ m, rank m ≤ bound)
    (h : system.ReachableUnder (StartsOrdered rank) s) {i : Nat} (hi : s.rest i ≠ []) :
    ∃ j, s.Enabled (.act j) := by
  obtain ⟨held, horderly⟩ := exists_orderly h
  exact horderly.exists_enabled hbound (bound + 1) hi fun m _ _ ↦ by omega

end LockState

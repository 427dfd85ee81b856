import Mathlib.Logic.Relation

/-!
# Step systems

A transition system whose steps are labelled by actions and computed: an action is either
not enabled in a state or leads to one successor, so every choice of a schedule, of an
input or of an outcome of the environment is part of the action. Reachability is taken
under a guard on the steps, the trivial guard giving all runs.
-/

universe u v

/-- An initial state and the partial effect of each action. -/
structure StepSystem (σ : Type u) (α : Type v) where
  init : σ
  step : σ → α → Option σ

namespace StepSystem

variable {σ : Type u} {α : Type v} (S : StepSystem σ α)

/-- The system whose actions have a precondition and an effect. -/
def ofCommands (init : σ) (enabled : σ → α → Prop) [∀ s a, Decidable (enabled s a)]
    (effect : σ → α → σ) : StepSystem σ α where
  init := init
  step s a := if enabled s a then some (effect s a) else none

/-- What a step of such a system is. -/
theorem ofCommands_step_eq_some_iff {init : σ} {enabled : σ → α → Prop}
    [∀ s a, Decidable (enabled s a)] {effect : σ → α → σ} {s s' : σ} {a : α} :
    (ofCommands init enabled effect).step s a = some s' ↔ enabled s a ∧ effect s a = s' := by
  simp only [ofCommands, Option.ite_none_right_eq_some, Option.some.injEq]

/-- The states that runs reach whose every step meets the guard in the state it starts from. -/
def ReachableUnder (G : σ → α → Prop) (s : σ) : Prop :=
  Relation.ReflTransGen (fun s s' ↦ ∃ a, G s a ∧ S.step s a = some s') S.init s

/-- The states that any run reaches. -/
def Reachable (s : σ) : Prop := S.ReachableUnder (fun _ _ ↦ True) s

/-- Execute a list of actions, checking the guard before each. -/
def run (G : σ → α → Prop) [∀ s a, Decidable (G s a)] : σ → List α → Option σ
  | s, [] => some s
  | s, a :: as => if G s a then (S.step s a).bind fun s' ↦ run G s' as else none

variable {S} {G G' : σ → α → Prop} {s s' : σ}

/-- The initial state is reachable. -/
theorem ReachableUnder.init : S.ReachableUnder G S.init := Relation.ReflTransGen.refl

/-- A guarded step from a reachable state stays in the reachable states. -/
theorem ReachableUnder.step {a : α} (h : S.ReachableUnder G s) (hg : G s a)
    (hs : S.step s a = some s') : S.ReachableUnder G s' :=
  Relation.ReflTransGen.tail h ⟨a, hg, hs⟩

/-- A weaker guard reaches at least the same states. -/
theorem ReachableUnder.mono (hg : ∀ s a, G s a → G' s a) (h : S.ReachableUnder G s) :
    S.ReachableUnder G' s :=
  Relation.ReflTransGen.mono (fun s _ ⟨a, ha, hs⟩ ↦ ⟨a, hg s a ha, hs⟩) _ _ h

/-- A guard that holds of every step taken under another is met as well. -/
theorem ReachableUnder.mono_of_reachable
    (hg : ∀ s a s', S.ReachableUnder G s → G s a → S.step s a = some s' → G' s a)
    (h : S.ReachableUnder G s) : S.ReachableUnder G' s := by
  induction h with
  | refl => exact ReachableUnder.init
  | tail hreach hst ih =>
    obtain ⟨a, ha, hs⟩ := hst
    exact ih.step (hg _ a _ hreach ha hs) hs

/-- States reached under a guard are reachable. -/
theorem ReachableUnder.reachable (h : S.ReachableUnder G s) : S.Reachable s :=
  h.mono fun _ _ _ ↦ trivial

/-- The invariant rule: what holds initially and is kept by every guarded step holds in
every state reached under the guard. -/
theorem ReachableUnder.invariant {I : σ → Prop} (init : I S.init)
    (step : ∀ s a s', I s → G s a → S.step s a = some s' → I s')
    (h : S.ReachableUnder G s) : I s := by
  induction h with
  | refl => exact init
  | tail _ hst ih =>
    obtain ⟨a, hg, hs⟩ := hst
    exact step _ a _ ih hg hs

/-- The invariant rule that may use what is known of reachable states. -/
theorem ReachableUnder.invariant_of_reachable {I : σ → Prop} (init : I S.init)
    (step : ∀ s a s', S.ReachableUnder G s → I s → G s a → S.step s a = some s' → I s')
    (h : S.ReachableUnder G s) : I s := by
  refine (h.invariant (I := fun t ↦ S.ReachableUnder G t ∧ I t) ⟨ReachableUnder.init, init⟩
    fun t a t' ht hg hs ↦ ?_).2
  exact ⟨ht.1.step hg hs, step t a t' ht.1 ht.2 hg hs⟩

/-- The invariant rule for actions with a precondition and an effect. -/
theorem ReachableUnder.invariant_of_commands {init : σ} {enabled : σ → α → Prop}
    [∀ s a, Decidable (enabled s a)] {effect : σ → α → σ} {I : σ → Prop} (hinit : I init)
    (step : ∀ s a, I s → G s a → enabled s a → I (effect s a))
    (h : (ofCommands init enabled effect).ReachableUnder G s) : I s := by
  refine h.invariant hinit fun t a t' ht hg hs ↦ ?_
  obtain ⟨he, rfl⟩ := ofCommands_step_eq_some_iff.mp hs
  exact step t a ht hg he

/-- A guarded command whose precondition holds stays in the reachable states. -/
theorem ReachableUnder.command {init : σ} {enabled : σ → α → Prop}
    [∀ s a, Decidable (enabled s a)] {effect : σ → α → σ}
    (h : (ofCommands init enabled effect).ReachableUnder G s) (a : α) (hg : G s a)
    (he : enabled s a) : (ofCommands init enabled effect).ReachableUnder G (effect s a) :=
  h.step hg (ofCommands_step_eq_some_iff.mpr ⟨he, rfl⟩)

/-- A guarded step begins an execution. -/
theorem run_cons [∀ s a, Decidable (G s a)] {a : α} (hg : G s a) (hs : S.step s a = some s')
    (as : List α) : S.run G s (a :: as) = S.run G s' as := by
  rw [run, if_pos hg, hs, Option.bind_some]

/-- What an execution is by its first action. -/
theorem run_cons_eq_some_iff [∀ s a, Decidable (G s a)] {a : α} {as : List α} :
    S.run G s (a :: as) = some s' ↔
      G s a ∧ ∃ t, S.step s a = some t ∧ S.run G t as = some s' := by
  rw [run, Option.ite_none_right_eq_some, Option.bind_eq_some_iff]

/-- The same for actions with a precondition and an effect. -/
theorem run_cons_of_commands_iff {init : σ} {enabled : σ → α → Prop}
    [∀ s a, Decidable (enabled s a)] {effect : σ → α → σ} [∀ s a, Decidable (G s a)] {a : α}
    {as : List α} : (ofCommands init enabled effect).run G s (a :: as) = some s' ↔
      G s a ∧ enabled s a ∧ (ofCommands init enabled effect).run G (effect s a) as = some s' := by
  rw [run_cons_eq_some_iff]
  refine and_congr_right fun _ ↦ ?_
  simp only [ofCommands_step_eq_some_iff, and_assoc, exists_and_left, exists_eq_left']

/-- A guarded action that is possible begins an execution. -/
theorem run_cons_of_commands {init : σ} {enabled : σ → α → Prop}
    [∀ s a, Decidable (enabled s a)] {effect : σ → α → σ} [∀ s a, Decidable (G s a)] {a : α}
    (hg : G s a) (he : enabled s a) (as : List α) :
    (ofCommands init enabled effect).run G s (a :: as) =
      (ofCommands init enabled effect).run G (effect s a) as :=
  run_cons hg (ofCommands_step_eq_some_iff.mpr ⟨he, rfl⟩) as

/-- Executing one list of actions after another. -/
theorem run_append [∀ s a, Decidable (G s a)] (s : σ) (as bs : List α) :
    S.run G s (as ++ bs) = (S.run G s as).bind fun s' ↦ S.run G s' bs := by
  induction as generalizing s with
  | nil => rfl
  | cons a as ih =>
    rw [List.cons_append, run, run]
    split
    · rw [Option.bind_assoc]
      exact Option.bind_congr fun s' _ ↦ ih s'
    · rfl

/-- What every guarded step keeps an execution keeps. -/
theorem invariant_of_run [∀ s a, Decidable (G s a)] {I : σ → Prop}
    (step : ∀ s a s', I s → G s a → S.step s a = some s' → I s') {t : σ} {as : List α}
    (hs : I s) (h : S.run G s as = some t) : I t := by
  induction as generalizing s with
  | nil =>
    cases h
    exact hs
  | cons a as ih =>
    obtain ⟨hg, s', hstep, h⟩ := run_cons_eq_some_iff.mp h
    exact ih (step s a s' hs hg hstep) h

/-- A quantity that every guarded step lowers bounds the executions. -/
theorem length_le_of_run [∀ s a, Decidable (G s a)] {μ : σ → Nat}
    (step : ∀ s a s', G s a → S.step s a = some s' → μ s' < μ s) {t : σ} {as : List α}
    (h : S.run G s as = some t) : as.length ≤ μ s := by
  induction as generalizing s with
  | nil => exact Nat.zero_le _
  | cons a as ih =>
    obtain ⟨hg, s', hstep, h⟩ := run_cons_eq_some_iff.mp h
    have hlower := step s a s' hg hstep
    have hrest := ih h
    rw [List.length_cons]
    omega

/-- The progress rule: where actions of one kind lead from any state with the invariant that is
not there yet to one with it that is nearer, such actions lead there. -/
theorem exists_run_of_progress [∀ s a, Decidable (G s a)] {I Q : σ → Prop} {P : α → Prop}
    {μ : σ → Nat}
    (progress : ∀ s, I s → ¬ Q s → ∃ as s', (∀ a ∈ as, P a) ∧ S.run G s as = some s' ∧ I s' ∧
      μ s' < μ s) (hs : I s) :
    ∃ as s', (∀ a ∈ as, P a) ∧ S.run G s as = some s' ∧ I s' ∧ Q s' := by
  induction hn : μ s using Nat.strongRecOn generalizing s with
  | ind n ih =>
    by_cases hq : Q s
    · exact ⟨[], s, fun _ h ↦ absurd h List.not_mem_nil, rfl, hs, hq⟩
    · obtain ⟨as, s', has, hrun, hs', hless⟩ := progress s hs hq
      obtain ⟨bs, t, hbs, hrest, ht⟩ := ih _ (hn ▸ hless) hs' rfl
      refine ⟨as ++ bs, t, fun a ha ↦ (List.mem_append.mp ha).elim (has a) (hbs a), ?_, ht⟩
      rw [run_append, hrun, Option.bind_some, hrest]

private theorem reachableUnder_of_run_from [∀ s a, Decidable (G s a)] {t : σ} {as : List α}
    (h : S.ReachableUnder G s) (hr : S.run G s as = some t) : S.ReachableUnder G t :=
  invariant_of_run (fun _ _ _ h hg hs ↦ h.step hg hs) h hr

/-- The final state of an executed run is reachable under its guard. -/
theorem reachableUnder_of_run [∀ s a, Decidable (G s a)] {t : σ} {as : List α}
    (h : S.run G S.init as = some t) : S.ReachableUnder G t :=
  reachableUnder_of_run_from ReachableUnder.init h

end StepSystem

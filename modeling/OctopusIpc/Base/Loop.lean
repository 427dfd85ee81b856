import Mathlib.Init

/-!
# While loops

A loop is given by one evaluation of its condition and body, which either leaves the
loop with a result or goes round again with a new state. The executable semantics runs
a bounded number of rounds; a loop returns when some bound suffices. A loop over a list of
inputs is a fold.
-/

universe u v w

namespace Loop

variable {σ : Type u} {ρ : Type v}

/-- At most `n` rounds: `inl` goes round again, `inr` leaves the loop. -/
def run (body : σ → σ ⊕ ρ) : Nat → σ → Option ρ
  | 0, _ => none
  | n + 1, s =>
    match body s with
    | .inl s' => run body n s'
    | .inr r => some r

/-- The loop entered in state `s` is left with result `r` after finitely many rounds. -/
def Returns (body : σ → σ ⊕ ρ) (s : σ) (r : ρ) : Prop := ∃ n, run body n s = some r

/-- The loop entered in state `s` is left after finitely many rounds. -/
def Halts (body : σ → σ ⊕ ρ) (s : σ) : Prop := ∃ r, Returns body s r

variable {body : σ → σ ⊕ ρ} {s s' : σ} {r r' : ρ}

/-- A larger bound finds the same result. -/
theorem run_mono {n n' : Nat} (hn : n ≤ n') (h : run body n s = some r) :
    run body n' s = some r := by
  induction n generalizing n' s with
  | zero => cases h
  | succ n ih =>
    cases n' with
    | zero => exact absurd hn (Nat.not_succ_le_zero n)
    | succ n' =>
      rw [run] at h ⊢
      cases hb : body s with
      | inl t =>
        rw [hb] at h
        exact ih (Nat.le_of_succ_le_succ hn) h
      | inr t =>
        rw [hb] at h
        exact h

/-- A round that leaves the loop decides the result. -/
theorem returns_iff_of_leave (h : body s = .inr r) : Returns body s r' ↔ r' = r := by
  constructor
  · rintro ⟨n, hn⟩
    cases n with
    | zero => cases hn
    | succ n =>
      rw [run, h] at hn
      exact (Option.some.inj hn).symm
  · rintro rfl
    exact ⟨1, by rw [run, h]⟩

/-- A round that stays in the loop does not change the result. -/
theorem returns_iff_of_next (h : body s = .inl s') : Returns body s r ↔ Returns body s' r := by
  constructor
  · rintro ⟨n, hn⟩
    cases n with
    | zero => cases hn
    | succ n =>
      rw [run, h] at hn
      exact ⟨n, hn⟩
  · rintro ⟨n, hn⟩
    exact ⟨n + 1, by rw [run, h]; exact hn⟩

/-- A round that stays in the loop does not change whether the loop is left. -/
theorem halts_iff_of_next (h : body s = .inl s') : Halts body s ↔ Halts body s' :=
  exists_congr fun _ ↦ returns_iff_of_next h

/-- A round that leaves the loop ends it. -/
theorem halts_of_leave (h : body s = .inr r) : Halts body s :=
  ⟨r, (returns_iff_of_leave h).mpr rfl⟩

/-- Induction over the rounds of a loop that is left. -/
theorem Halts.induction {P : σ → Prop} (leave : ∀ s r, body s = .inr r → P s)
    (next : ∀ s s', body s = .inl s' → Halts body s' → P s' → P s) (h : Halts body s) : P s := by
  obtain ⟨r, n, hn⟩ := h
  induction n generalizing s with
  | zero => cases hn
  | succ n ih =>
    cases hb : body s with
    | inl t =>
      rw [run, hb] at hn
      exact next s t hb ⟨r, n, hn⟩ (ih hn)
    | inr t => exact leave s t hb

/-- A loop that keeps an invariant and never leaves while it holds runs forever. -/
theorem not_halts_of_invariant {I : σ → Prop}
    (step : ∀ s, I s → ∃ s', body s = .inl s' ∧ I s') (h : I s) : ¬ Halts body s := by
  intro hh
  refine Halts.induction (P := fun s ↦ ¬ I s) ?_ ?_ hh h
  · intro s r hb hi
    obtain ⟨s', hs', -⟩ := step s hi
    cases hb.symm.trans hs'
  · intro s s' hb _ ih hi
    obtain ⟨t, ht, hit⟩ := step s hi
    cases hb.symm.trans ht
    exact ih hit

/-- The invariant rule for a fold that stops where there is no next state. -/
theorem foldlM_invariant {α : Type w} {f : σ → α → Option σ} {I : σ → Prop}
    (step : ∀ s a s', I s → f s a = some s' → I s') {as : List α} (h : I s)
    (hr : as.foldlM f s = some s') : I s' := by
  induction as generalizing s with
  | nil =>
    cases hr
    exact h
  | cons a as ih =>
    rw [List.foldlM_cons] at hr
    obtain ⟨t, ht, hr⟩ := Option.bind_eq_some_iff.mp hr
    exact ih (step s a t h ht) hr

end Loop

import Mathlib.Data.Finset.Card
import Mathlib.Logic.Function.Basic

/-!
# Counting threads

How many of an unbounded family of threads are at a place of a certain kind, and how the
number changes when one of them goes on.
-/

universe u v

variable {ι : Type u} {α : Type v} {f : ι → α} {P : α → Bool} {n m : Nat} {i j : ι} {x y : α}

/-- Exactly `n` members of the family satisfy the predicate. -/
def Tally (f : ι → α) (P : α → Bool) (n : Nat) : Prop :=
  ∃ F : Finset ι, (∀ i, i ∈ F ↔ P (f i) = true) ∧ F.card = n

namespace Tally

/-- None does in a family of a value that does not. -/
theorem const (h : P x = false) : Tally (fun _ : ι ↦ x) P 0 := by
  refine ⟨∅, fun i ↦ ?_, rfl⟩
  simp only [Finset.notMem_empty, h, Bool.false_eq_true]

/-- A number is zero exactly if none does. -/
theorem eq_zero_iff (h : Tally f P n) : n = 0 ↔ ∀ i, P (f i) = false := by
  obtain ⟨F, hF, rfl⟩ := h
  rw [Finset.card_eq_zero, Finset.eq_empty_iff_forall_notMem]
  refine forall_congr' fun i ↦ ?_
  rw [hF, Bool.not_eq_true]

/-- A member that does counts. -/
theorem pos (h : Tally f P n) (hi : P (f i) = true) : 0 < n := by
  refine Nat.pos_of_ne_zero fun hn ↦ ?_
  cases hi.symm.trans (h.eq_zero_iff.mp hn i)

/-- If at most one does, two that do are the same. -/
theorem eq_of_le_one (h : Tally f P n) (hn : n ≤ 1) (hi : P (f i) = true) (hj : P (f j) = true) :
    i = j := by
  obtain ⟨F, hF, rfl⟩ := h
  exact Finset.card_le_one.mp hn i ((hF i).mpr hi) j ((hF j).mpr hj)

variable [DecidableEq ι]

/-- One member goes on from a place of the kind to a place of the kind. -/
theorem update_same (h : Tally f P n) (hi : f i = x) (hxy : P y = P x) :
    Tally (Function.update f i y) P n := by
  obtain ⟨F, hF, hn⟩ := h
  refine ⟨F, fun j ↦ ?_, hn⟩
  rw [hF]
  by_cases hj : j = i
  · subst hj
    rw [Function.update_self, hxy, hi]
  · rw [Function.update_of_ne hj]

/-- One member goes on to a place of the kind. -/
theorem update_enter (h : Tally f P n) (hi : f i = x) (hx : P x = false) (hy : P y = true) :
    Tally (Function.update f i y) P (n + 1) := by
  obtain ⟨F, hF, rfl⟩ := h
  have hnew : i ∉ F := by
    rw [hF, hi, hx]
    exact Bool.false_ne_true
  refine ⟨insert i F, fun j ↦ ?_, Finset.card_insert_of_notMem hnew⟩
  rw [Finset.mem_insert, hF]
  by_cases hj : j = i
  · subst hj
    simp only [Function.update_self, hy, true_or]
  · rw [Function.update_of_ne hj, or_iff_right hj]

/-- One member leaves a place of the kind. -/
theorem update_leave (h : Tally f P (n + 1)) (hi : f i = x) (hx : P x = true)
    (hy : P y = false) : Tally (Function.update f i y) P n := by
  obtain ⟨F, hF, hn⟩ := h
  have hmem : i ∈ F := by
    rw [hF, hi, hx]
  refine ⟨F.erase i, fun j ↦ ?_, ?_⟩
  · rw [Finset.mem_erase, hF]
    by_cases hj : j = i
    · subst hj
      simp only [Function.update_self, hy, ne_eq, not_true_eq_false, false_and,
        Bool.false_eq_true]
    · rw [Function.update_of_ne hj, and_iff_right hj]
  · rw [Finset.card_erase_of_mem hmem, hn]
    rfl

end Tally

import Mathlib.Logic.Function.Basic
import Mathlib.Algebra.Order.Ring.Int

/-!
# Descriptor numbers

The numbers under which a process has something open, and whether all numbers it has handed
to the kernel so far were such numbers at that time. A negative number stands for no
descriptor; the kernel refuses it and nothing happens. Numbers come back: what counts is that
something is open when a number is used, not when it was obtained.
-/

namespace OctopusIpc

/-- The open numbers, and whether every use so far was of an open one. -/
structure DescriptorTable where
  opened : Int → Bool
  proper : Bool

namespace DescriptorTable

/-- Nothing is open and nothing was used. -/
def empty : DescriptorTable := ⟨fun _ ↦ false, true⟩

/-- The kernel gives out a number. -/
def acquire (t : DescriptorTable) (fd : Int) : DescriptorTable :=
  { t with opened := Function.update t.opened fd true }

/-- A number is handed to the kernel. -/
def use (t : DescriptorTable) (fd : Int) : DescriptorTable :=
  { t with proper := t.proper && (decide (fd < 0) || t.opened fd) }

/-- A number is closed. -/
def close (t : DescriptorTable) (fd : Int) : DescriptorTable :=
  { t.use fd with opened := Function.update t.opened fd false }

/-- The kernel may give out this number. -/
def Fresh (t : DescriptorTable) (fd : Int) : Prop := 0 ≤ fd ∧ t.opened fd = false

instance (t : DescriptorTable) (fd : Int) : Decidable (t.Fresh fd) :=
  inferInstanceAs (Decidable (_ ∧ _))

/-- Everything obtained has been closed, once, and nothing was used after that. -/
def Balanced (t : DescriptorTable) : Prop := t.proper = true ∧ ∀ fd, t.opened fd = false

variable {t : DescriptorTable} {fd fd' : Int}

theorem balanced_empty : empty.Balanced := ⟨rfl, fun _ ↦ rfl⟩

@[simp] theorem opened_acquire_self : (t.acquire fd).opened fd = true := Function.update_self ..

/-- What is open when a number has been given out. -/
theorem opened_acquire_iff :
    (t.acquire fd).opened fd' = true ↔ fd' = fd ∨ t.opened fd' = true := by
  by_cases h : fd' = fd
  · rw [h]
    exact iff_of_true opened_acquire_self (.inl rfl)
  · have hsame : (t.acquire fd).opened fd' = t.opened fd' := Function.update_of_ne h _ _
    rw [hsame, or_iff_right h]

@[simp] theorem opened_close_self : (t.close fd).opened fd = false := Function.update_self ..

/-- What is open when a number has been closed. -/
theorem opened_close_iff :
    (t.close fd).opened fd' = true ↔ fd' ≠ fd ∧ t.opened fd' = true := by
  by_cases h : fd' = fd
  · rw [h, opened_close_self]
    exact iff_of_false nofun fun hne ↦ hne.1 rfl
  · have hsame : (t.close fd).opened fd' = t.opened fd' := Function.update_of_ne h _ _
    rw [hsame, and_iff_right h]

/-- A use is proper if nothing or an open number is used. -/
theorem proper_use_iff :
    (t.use fd).proper = true ↔ t.proper = true ∧ (fd < 0 ∨ t.opened fd = true) := by
  rw [use, Bool.and_eq_true, Bool.or_eq_true, decide_eq_true_eq]

theorem proper_close_iff :
    (t.close fd).proper = true ↔ t.proper = true ∧ (fd < 0 ∨ t.opened fd = true) :=
  proper_use_iff

/-- A number that is not open spoils the table. -/
theorem not_proper_use (h : 0 ≤ fd) (hclosed : t.opened fd = false) :
    ¬ (t.use fd).proper = true := by
  intro hproper
  rcases (proper_use_iff.mp hproper).2 with hneg | hopen
  · omega
  · cases hclosed.symm.trans hopen

/-- What is obtained and closed again leaves the open numbers as they were. -/
theorem opened_close_acquire (h : t.opened fd = false) :
    ((t.acquire fd).close fd).opened = t.opened := by
  have hupdate : Function.update t.opened fd false = t.opened :=
    Function.update_eq_self_iff.mpr h.symm
  rw [close, acquire, Function.update_idem, hupdate]

end DescriptorTable

end OctopusIpc

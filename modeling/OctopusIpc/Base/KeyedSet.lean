import Mathlib.Data.List.Nodup

/-!
# Sets whose elements are identified by a key

Finite sets of records compared by one key only, as a hash set is whose equality and hash
look at that key: inserting a record whose key is present changes nothing, and replacing a
record means erasing it and inserting its successor. The iteration order is not specified,
so only lookups are observed.
-/

universe u v

/-- Records with pairwise different keys. -/
structure KeyedSet (α : Type u) {κ : Type v} (key : α → κ) where
  elems : List α
  nodup : (elems.map key).Nodup

namespace KeyedSet

variable {α : Type u} {κ : Type v} [DecidableEq κ] {key : α → κ}

/-- The set without records. -/
def empty : KeyedSet α key := ⟨[], List.nodup_nil⟩

/-- The record with key `k`. -/
def find? (s : KeyedSet α key) (k : κ) : Option α := s.elems.find? fun a ↦ key a = k

/-- Insertion does nothing when a record with the same key is present. -/
def insert (s : KeyedSet α key) (a : α) : KeyedSet α key :=
  if h : key a ∈ s.elems.map key then s
  else ⟨a :: s.elems, List.nodup_cons.mpr ⟨h, s.nodup⟩⟩

/-- Remove the record with key `k`, if there is one. -/
def erase (s : KeyedSet α key) (k : κ) : KeyedSet α key :=
  ⟨s.elems.eraseP fun a ↦ key a = k, (List.eraseP_sublist.map key).nodup s.nodup⟩

/-- Copy the record with key `k`, erase it, and insert the changed copy. -/
def replace (s : KeyedSet α key) (k : κ) (f : α → α) : KeyedSet α key :=
  match s.find? k with
  | some a => (s.erase k).insert (f a)
  | none => s

omit [DecidableEq κ] in
private theorem eq_of_mem {s : KeyedSet α key} {a b : α} (ha : a ∈ s.elems) (hb : b ∈ s.elems)
    (h : key a = key b) : a = b :=
  List.inj_on_of_nodup_map s.nodup ha hb h

/-- A lookup finds exactly the stored record with that key. -/
theorem find?_eq_some_iff (s : KeyedSet α key) (k : κ) (a : α) :
    s.find? k = some a ↔ a ∈ s.elems ∧ key a = k := by
  constructor
  · intro h
    exact ⟨List.mem_of_find?_eq_some h, by simpa using List.find?_some h⟩
  · rintro ⟨ha, rfl⟩
    cases hf : s.find? (key a) with
    | none =>
      have hn := List.find?_eq_none.mp hf a ha
      simp at hn
    | some b =>
      have hb : key b = key a := by simpa using List.find?_some hf
      rw [eq_of_mem (List.mem_of_find?_eq_some hf) ha hb]

/-- A lookup fails exactly when no stored record has that key. -/
theorem find?_eq_none_iff (s : KeyedSet α key) (k : κ) :
    s.find? k = none ↔ k ∉ s.elems.map key := by
  rw [find?, List.find?_eq_none]
  simp only [decide_eq_true_eq, List.mem_map, not_exists, not_and]

/-- The records stored under a key are the looked-up one, or none at all. -/
theorem filter_key_eq_toList (s : KeyedSet α key) (k : κ) :
    s.elems.filter (fun a ↦ key a = k) = (s.find? k).toList := by
  obtain ⟨elems, nodup⟩ := s
  induction elems with
  | nil => rfl
  | cons a as ih =>
    obtain ⟨ha, has⟩ := List.nodup_cons.mp nodup
    by_cases hk : key a = k
    · have hrest : as.filter (fun b ↦ key b = k) = [] := by
        apply List.filter_eq_nil_iff.mpr
        intro b hb hbk
        exact ha (List.mem_map.mpr ⟨b, hb, (by simpa using hbk : key b = k).trans hk.symm⟩)
      simp [find?, hk, hrest]
    · simpa [find?, hk] using ih has

@[simp] theorem find?_empty (k : κ) : (empty : KeyedSet α key).find? k = none := rfl

/-- Lookup after insertion. -/
theorem find?_insert (s : KeyedSet α key) (a : α) (k : κ) :
    (s.insert a).find? k = if key a = k ∧ s.find? k = none then some a else s.find? k := by
  rw [insert]
  split
  · next h =>
    rw [if_neg]
    rintro ⟨rfl, hn⟩
    exact (find?_eq_none_iff s (key a)).mp hn h
  · next h =>
    by_cases hk : key a = k
    · subst hk
      rw [if_pos ⟨rfl, (find?_eq_none_iff s _).mpr h⟩]
      simp [find?]
    · rw [if_neg fun hc ↦ hk hc.1]
      simp [find?, hk]

/-- Erasure removes exactly the record with the key. -/
theorem mem_erase_iff (s : KeyedSet α key) (k : κ) (b : α) :
    b ∈ (s.erase k).elems ↔ b ∈ s.elems ∧ key b ≠ k := by
  obtain ⟨elems, nodup⟩ := s
  change b ∈ elems.eraseP (fun a ↦ key a = k) ↔ b ∈ elems ∧ key b ≠ k
  induction elems with
  | nil => simp
  | cons a as ih =>
    obtain ⟨ha, has⟩ := List.nodup_cons.mp nodup
    by_cases hk : key a = k
    · rw [List.eraseP_cons_of_pos (by simpa using hk), List.mem_cons]
      constructor
      · intro hb
        refine ⟨Or.inr hb, fun hbk ↦ ?_⟩
        exact ha (List.mem_map.mpr ⟨b, hb, hbk.trans hk.symm⟩)
      · rintro ⟨rfl | hb, hbk⟩
        · exact absurd hk hbk
        · exact hb
    · rw [List.eraseP_cons_of_neg (by simpa using hk), List.mem_cons, List.mem_cons, ih has]
      constructor
      · rintro (rfl | ⟨hb, hbk⟩)
        · exact ⟨Or.inl rfl, hk⟩
        · exact ⟨Or.inr hb, hbk⟩
      · rintro ⟨rfl | hb, hbk⟩
        · exact Or.inl rfl
        · exact Or.inr ⟨hb, hbk⟩

/-- Lookup after erasure. -/
theorem find?_erase (s : KeyedSet α key) (k k' : κ) :
    (s.erase k).find? k' = if k = k' then none else s.find? k' := by
  apply Option.ext
  intro b
  rw [find?_eq_some_iff, mem_erase_iff]
  split
  · next h =>
    subst h
    simp only [reduceCtorEq, iff_false]
    rintro ⟨⟨-, hb⟩, hk⟩
    exact hb hk
  · next h =>
    rw [find?_eq_some_iff]
    constructor
    · rintro ⟨⟨hb, -⟩, hk⟩
      exact ⟨hb, hk⟩
    · rintro ⟨hb, hk⟩
      exact ⟨⟨hb, fun he ↦ h (he.symm.trans hk)⟩, hk⟩

/-- Lookup after a replacement that keeps the key. -/
theorem find?_replace (s : KeyedSet α key) (k k' : κ) (f : α → α)
    (hf : ∀ a, key (f a) = key a) :
    (s.replace k f).find? k' = if k = k' then (s.find? k').map f else s.find? k' := by
  unfold replace
  cases h : s.find? k with
  | none =>
    by_cases he : k = k'
    · subst he
      rw [if_pos rfl, h, Option.map_none]
    · rw [if_neg he]
  | some a =>
    have ha : key (f a) = k := (hf a).trans ((find?_eq_some_iff s k a).mp h).2
    simp only [find?_insert, find?_erase, ha]
    by_cases he : k = k'
    · subst he
      simp [h]
    · simp [he]

end KeyedSet

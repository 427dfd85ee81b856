import Mathlib.Data.Finmap
import OctopusIpc.Base.KeyedSet

/-!
# Keyed sets as finite maps

What a keyed set stands for when only a part of each record is of interest: the finite map
from its keys to that part. Inserting a record whose key is absent, erasing a key and
replacing a record are the operations of the map.
-/

universe u v w

namespace KeyedSet

variable {α : Type u} {κ : Type v} [DecidableEq κ] {key : α → κ} {β : Type w}

/-- Two sets with the same lookups have the same records. -/
theorem mem_iff_of_find?_eq {s t : KeyedSet α key} (h : ∀ k, s.find? k = t.find? k) (a : α) :
    a ∈ s.elems ↔ a ∈ t.elems := by
  have hs := s.find?_eq_some_iff (key a) a
  have ht := t.find?_eq_some_iff (key a) a
  rw [and_iff_left rfl] at hs ht
  rw [← hs, ← ht, h]

/-- Erasing an absent key changes nothing. -/
theorem erase_of_find?_eq_none {s : KeyedSet α key} {k : κ} (h : s.find? k = none) :
    s.erase k = s := by
  have helems : s.elems.eraseP (fun a ↦ key a = k) = s.elems :=
    List.eraseP_of_forall_not (List.find?_eq_none.mp h)
  obtain ⟨elems, nodup⟩ := s
  simp only [erase, helems]

/-- Replacing a record under an absent key changes nothing. -/
theorem replace_of_find?_eq_none {s : KeyedSet α key} {k : κ} (h : s.find? k = none)
    (f : α → α) : s.replace k f = s := by
  simp only [replace, h]

/-- The finite map from the keys to a part of the records. -/
def toFinmap (s : KeyedSet α key) (part : α → β) : Finmap fun _ : κ ↦ β :=
  (s.elems.map fun a ↦ (⟨key a, part a⟩ : Sigma fun _ : κ ↦ β)).toFinmap

/-- Change the value of a key, if it has one. -/
def adjust (m : Finmap fun _ : κ ↦ β) (k : κ) (f : β → β) : Finmap fun _ : κ ↦ β :=
  match m.lookup k with
  | some b => m.insert k (f b)
  | none => m

private theorem dlookup_map_find? (elems : List α) (part : α → β) (k : κ) :
    (elems.map fun a ↦ (⟨key a, part a⟩ : Sigma fun _ : κ ↦ β)).dlookup k =
      (elems.find? fun a ↦ key a = k).map part := by
  induction elems with
  | nil => rfl
  | cons a as ih =>
    rw [List.map_cons]
    by_cases hk : key a = k
    · subst hk
      rw [List.dlookup_cons_eq, List.find?_cons_of_pos (by simp), Option.map_some]
    · rw [List.dlookup_cons_ne _ _ (Ne.symm hk), List.find?_cons_of_neg (by simpa using hk), ih]

/-- The map is looked up as the set is. -/
theorem lookup_toFinmap (s : KeyedSet α key) (part : α → β) (k : κ) :
    (s.toFinmap part).lookup k = (s.find? k).map part :=
  (Finmap.dlookup_list_toFinmap k _).trans (dlookup_map_find? s.elems part k)

/-- Lookup after a change of a value. -/
theorem lookup_adjust (m : Finmap fun _ : κ ↦ β) (k k' : κ) (f : β → β) :
    (adjust m k f).lookup k' = if k = k' then (m.lookup k').map f else m.lookup k' := by
  unfold adjust
  by_cases hk : k = k'
  · subst hk
    rw [if_pos rfl]
    split
    · next b hb => rw [Finmap.lookup_insert, hb, Option.map_some]
    · next hnone => rw [hnone, Option.map_none]
  · rw [if_neg hk]
    split
    · exact Finmap.lookup_insert_of_ne m (Ne.symm hk)
    · rfl

variable {s : KeyedSet α key} {part : α → β} {a : α} {k : κ}

theorem toFinmap_empty : (empty : KeyedSet α key).toFinmap part = ∅ :=
  Finmap.ext_lookup fun k ↦ by rw [lookup_toFinmap, find?_empty, Option.map_none,
    Finmap.lookup_empty]

/-- Inserting a record with a new key is insertion into the map. -/
theorem toFinmap_insert (h : s.find? (key a) = none) :
    (s.insert a).toFinmap part = (s.toFinmap part).insert (key a) (part a) := by
  refine Finmap.ext_lookup fun k ↦ ?_
  rw [lookup_toFinmap, find?_insert]
  by_cases hk : key a = k
  · subst hk
    rw [if_pos ⟨rfl, h⟩, Finmap.lookup_insert, Option.map_some]
  · rw [if_neg fun hc ↦ hk hc.1, Finmap.lookup_insert_of_ne _ (Ne.symm hk), lookup_toFinmap]

/-- Erasure is erasure from the map. -/
theorem toFinmap_erase : (s.erase k).toFinmap part = (s.toFinmap part).erase k := by
  refine Finmap.ext_lookup fun k' ↦ ?_
  rw [lookup_toFinmap, find?_erase]
  by_cases hk : k = k'
  · subst hk
    rw [if_pos rfl, Finmap.lookup_erase, Option.map_none]
  · rw [if_neg hk, Finmap.lookup_erase_ne (Ne.symm hk), lookup_toFinmap]

/-- Replacing a record under its key changes the value of the key. -/
theorem toFinmap_replace {f : α → α} {g : β → β} (hf : ∀ a, key (f a) = key a)
    (hg : ∀ a, part (f a) = g (part a)) :
    (s.replace k f).toFinmap part = adjust (s.toFinmap part) k g := by
  refine Finmap.ext_lookup fun k' ↦ ?_
  rw [lookup_toFinmap, find?_replace s k k' f hf, lookup_adjust, lookup_toFinmap]
  split
  · rw [Option.map_map, Option.map_map]
    exact congrArg (Option.map · (s.find? k')) (funext hg)
  · rfl

end KeyedSet

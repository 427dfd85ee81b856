import Mathlib.Data.List.Nodup
import Mathlib.Logic.Relation
import Mathlib.Order.Defs.PartialOrder

/-!
# Bounded first-in first-out queues

The history of a queue that may throw items away: what was submitted, which of it was
discarded, what is still queued and what was taken out. Items are told apart by a key. The
order of what was taken and what is queued is the order of submission, less the discarded
items. What is taken may be finished in another order.
-/

universe u v

/-- The history of a queue, each list with the oldest entry first. -/
structure BoundedFifo (α : Type u) (κ : Type v) where
  submitted : List α
  discarded : List κ
  queue : List α
  taken : List α

namespace BoundedFifo

variable {α : Type u} {κ : Type v}

/-- The history of a queue nothing was submitted to. -/
def empty : BoundedFifo α κ := ⟨[], [], [], []⟩

/-- What can happen to a queue. It takes a new item in, refuses it, or gives up its oldest
one for it. -/
inductive Step (key : α → κ) (f : BoundedFifo α κ) : BoundedFifo α κ → Prop
  | push (x : α) (hx : ∀ y ∈ f.submitted, key y ≠ key x) :
      Step key f { f with submitted := f.submitted ++ [x], queue := f.queue ++ [x] }
  | refuse (x : α) (hx : ∀ y ∈ f.submitted, key y ≠ key x) :
      Step key f { f with submitted := f.submitted ++ [x], discarded := f.discarded ++ [key x] }
  | displace (x y : α) (q : List α) (hx : ∀ y ∈ f.submitted, key y ≠ key x)
      (hq : f.queue = y :: q) :
      Step key f
        { f with
          submitted := f.submitted ++ [x]
          discarded := f.discarded ++ [key y]
          queue := q ++ [x] }
  | take (y : α) (q : List α) (hq : f.queue = y :: q) :
      Step key f { f with queue := q, taken := f.taken ++ [y] }

/-- A step of a queue for at most `cap` items, which discards an item only when it is full. -/
structure BoundedStep (key : α → κ) (cap : Nat) (f f' : BoundedFifo α κ) : Prop where
  step : Step key f f'
  within : f'.queue.length ≤ cap
  full : f'.discarded ≠ f.discarded → cap ≤ f.queue.length

/-- A history that steps lead to. -/
def Reachable (key : α → κ) (f : BoundedFifo α κ) : Prop :=
  Relation.ReflTransGen (Step key) empty f

/-- A history that steps of a bounded queue lead to. -/
def BoundedReachable (key : α → κ) (cap : Nat) (f : BoundedFifo α κ) : Prop :=
  Relation.ReflTransGen (BoundedStep key cap) empty f

variable {key : α → κ} {cap : Nat} {f f' : BoundedFifo α κ}

theorem reachable_empty : Reachable key (empty : BoundedFifo α κ) :=
  Relation.ReflTransGen.refl

theorem Reachable.step (h : Reachable key f) (hs : Step key f f') : Reachable key f' :=
  Relation.ReflTransGen.tail h hs

theorem boundedReachable_empty : BoundedReachable key cap (empty : BoundedFifo α κ) :=
  Relation.ReflTransGen.refl

theorem BoundedReachable.step (h : BoundedReachable key cap f)
    (hs : BoundedStep key cap f f') : BoundedReachable key cap f' :=
  Relation.ReflTransGen.tail h hs

/-- A bounded queue stays within its bound. -/
theorem BoundedReachable.length_le (h : BoundedReachable key cap f) : f.queue.length ≤ cap := by
  cases h with
  | refl => exact Nat.zero_le cap
  | tail _ hs => exact hs.within

variable [DecidableEq κ]

/-- The submitted items that were not discarded. -/
def survivors (key : α → κ) (f : BoundedFifo α κ) : List α :=
  f.submitted.filter fun x ↦ key x ∉ f.discarded

/-- A history in order: the survivors left or are still to leave in the order in which they
were submitted. -/
structure Wf (key : α → κ) (f : BoundedFifo α κ) : Prop where
  nodup : (f.submitted.map key).Nodup
  discarded : ∀ k ∈ f.discarded, k ∈ f.submitted.map key
  order : f.taken ++ f.queue = f.survivors key

/-- Every survivor was submitted. -/
theorem mem_submitted_of_mem_survivors {x : α} (h : x ∈ f.survivors key) : x ∈ f.submitted :=
  List.mem_of_mem_filter h

/-- What is queued was submitted. -/
theorem Wf.mem_submitted_of_mem_queue (h : Wf key f) {x : α} (hx : x ∈ f.queue) :
    x ∈ f.submitted := by
  have hmem : x ∈ f.survivors key := by
    rw [← h.order]
    exact List.mem_append_right _ hx
  exact mem_submitted_of_mem_survivors hmem

/-- No two survivors share a key. -/
theorem Wf.nodup_survivors (h : Wf key f) : ((f.survivors key).map key).Nodup :=
  h.nodup.sublist (List.filter_sublist.map key)

/-- No key is taken out twice. -/
theorem Wf.nodup_taken (h : Wf key f) : (f.taken.map key).Nodup := by
  refine h.nodup_survivors.sublist ?_
  rw [← h.order]
  exact (List.sublist_append_left f.taken f.queue).map key

/-! ### One submission -/

omit [DecidableEq κ] in
private theorem nodup_submit (h : (f.submitted.map key).Nodup) {x : α}
    (hx : ∀ y ∈ f.submitted, key y ≠ key x) : ((f.submitted ++ [x]).map key).Nodup := by
  rw [List.map_append, List.map_singleton]
  refine h.append (List.nodup_singleton _) fun k hk hk' ↦ ?_
  obtain ⟨y, hy, rfl⟩ := List.mem_map.mp hk
  exact hx y hy (List.mem_singleton.mp hk')

private theorem Wf.discarded_submit (h : Wf key f) (x : α) {k : κ} (hk : k ∈ f.discarded) :
    k ∈ (f.submitted ++ [x]).map key := by
  rw [List.map_append]
  exact List.mem_append_left _ (h.discarded k hk)

private theorem Wf.discarded_submit_append (h : Wf key f) {x y : α}
    (hy : y ∈ f.submitted ++ [x]) {k : κ} (hk : k ∈ f.discarded ++ [key y]) :
    k ∈ (f.submitted ++ [x]).map key := by
  rcases List.mem_append.mp hk with hk | hk
  · exact h.discarded_submit x hk
  · rw [List.mem_singleton.mp hk]
    exact List.mem_map_of_mem hy

/-- A new item survives its own submission. -/
private theorem Wf.survivors_submit (h : Wf key f) {x : α}
    (hx : ∀ y ∈ f.submitted, key y ≠ key x) (queue taken : List α) :
    survivors key ⟨f.submitted ++ [x], f.discarded, queue, taken⟩ = f.survivors key ++ [x] := by
  have hmem : key x ∉ f.discarded := by
    intro hd
    obtain ⟨y, hy, hyx⟩ := List.mem_map.mp (h.discarded _ hd)
    exact hx y hy hyx
  have hkeep : [x].filter (fun y ↦ decide (key y ∉ f.discarded)) = [x] := by
    refine List.filter_eq_self.mpr fun y hy ↦ decide_eq_true ?_
    rw [List.mem_singleton.mp hy]
    exact hmem
  exact (List.filter_append ..).trans (congrArg _ hkeep)

private theorem Wf.nodup_survivors_submit (h : Wf key f) {x : α}
    (hx : ∀ y ∈ f.submitted, key y ≠ key x) : ((f.survivors key ++ [x]).map key).Nodup := by
  rw [← h.survivors_submit hx f.queue f.taken]
  exact (nodup_submit h.nodup hx).sublist (List.filter_sublist.map key)

/-- An item that is discarded is filtered out of the survivors. -/
private theorem survivors_discard (submitted queue taken : List α) (discarded : List κ) (k : κ) :
    survivors key ⟨submitted, discarded ++ [k], queue, taken⟩ =
      (survivors key ⟨submitted, discarded, queue, taken⟩).filter fun x ↦ key x ≠ k := by
  simp only [survivors, List.filter_filter]
  refine List.filter_congr fun x _ ↦ ?_
  rw [← Bool.decide_and, decide_eq_decide, List.mem_append, List.mem_singleton, not_or]
  exact and_comm

/-- Filtering out one item's key leaves the other items. -/
private theorem filter_ne_key {x : α} {l l' : List α} (h : ((l ++ x :: l').map key).Nodup) :
    (l ++ x :: l').filter (fun y ↦ decide (key y ≠ key x)) = l ++ l' := by
  have hother : ∀ y ∈ l ++ l', key y ≠ key x := by
    intro y hy hyx
    rw [List.map_append, List.map_cons, List.nodup_middle, ← List.map_append] at h
    exact (List.nodup_cons.mp h).1 (hyx ▸ List.mem_map_of_mem hy)
  have hself : decide (key x ≠ key x) ≠ true := by
    simp only [ne_eq, not_true_eq_false, decide_false, Bool.false_eq_true, not_false_eq_true]
  have hkeep := List.filter_eq_self.mpr fun y hy ↦ decide_eq_true (hother y hy)
  rw [List.filter_append, List.filter_cons, if_neg hself, ← List.filter_append, hkeep]

/-! ### One step -/

/-- The history of an unused queue is in order. -/
theorem wf_empty : Wf key (empty : BoundedFifo α κ) where
  nodup := List.nodup_nil
  discarded _ hk := (nomatch hk)
  order := rfl

/-- One step keeps the history in order. -/
theorem Wf.step (h : Wf key f) (hs : Step key f f') : Wf key f' := by
  cases hs with
  | push x hx =>
    refine ⟨nodup_submit h.nodup hx, fun k ↦ h.discarded_submit x, ?_⟩
    rw [h.survivors_submit hx, ← h.order, List.append_assoc]
  | refuse x hx =>
    refine ⟨nodup_submit h.nodup hx, fun k hk ↦ ?_, ?_⟩
    · exact h.discarded_submit_append (List.mem_append_right _ (List.mem_singleton_self x)) hk
    · have hnodup := h.nodup_survivors_submit hx
      rw [survivors_discard, h.survivors_submit hx, filter_ne_key hnodup, List.append_nil, h.order]
  | displace x y q hx hq =>
    have hy : y ∈ f.submitted := h.mem_submitted_of_mem_queue (hq ▸ List.mem_cons_self)
    refine ⟨nodup_submit h.nodup hx, fun k hk ↦ ?_, ?_⟩
    · exact h.discarded_submit_append (List.mem_append_left _ hy) hk
    · have hsurvivors : f.survivors key ++ [x] = f.taken ++ y :: (q ++ [x]) := by
        rw [← h.order, hq, List.append_assoc, List.cons_append]
      have hnodup := h.nodup_survivors_submit hx
      rw [hsurvivors] at hnodup
      rw [survivors_discard, h.survivors_submit hx, hsurvivors, filter_ne_key hnodup]
  | take y q hq =>
    refine ⟨h.nodup, h.discarded, ?_⟩
    rw [List.append_assoc, List.singleton_append, ← hq]
    exact h.order

/-- Every history that steps lead to is in order. -/
theorem Reachable.wf (h : Reachable key f) : Wf key f := by
  induction h with
  | refl => exact wf_empty
  | tail _ hs ih => exact ih.step hs

/-! ### Finishing what was taken -/

/-- One more finished item leaves the finished ones a beginning of the taken ones exactly when
all that were taken before it are finished. -/
theorem concat_prefix_iff {α : Type u} {κ : Type v} [Preorder κ] {key : α → κ}
    {finished taken : List α} {x : α} (h : finished <+: taken)
    (hsorted : taken.Pairwise fun a b ↦ key a < key b) (hx : x ∈ taken) (hnew : x ∉ finished) :
    finished ++ [x] <+: taken ↔ ∀ y ∈ taken, key y < key x → y ∈ finished := by
  obtain ⟨rest, rfl⟩ := h
  obtain ⟨-, hrest, hbefore⟩ := List.pairwise_append.mp hsorted
  rw [List.prefix_append_right_inj]
  constructor
  · rintro ⟨t, rfl⟩ y hy hlt
    rcases List.mem_append.mp hy with hy | hy
    · exact hy
    · rcases List.mem_cons.mp hy with rfl | hy
      · exact absurd hlt (lt_irrefl _)
      · exact absurd hlt (lt_asymm ((List.pairwise_cons.mp hrest).1 y hy))
  · intro hall
    cases rest with
    | nil => exact absurd (List.append_nil finished ▸ hx) hnew
    | cons y t =>
      have hxrest : x ∈ y :: t := (List.mem_append.mp hx).resolve_left hnew
      rcases List.mem_cons.mp hxrest with rfl | hxt
      · exact List.prefix_append [x] t
      · have hlt := (List.pairwise_cons.mp hrest).1 x hxt
        have hy := hall y (List.mem_append_right _ List.mem_cons_self) hlt
        exact absurd (hbefore y hy y List.mem_cons_self) (lt_irrefl _)

end BoundedFifo

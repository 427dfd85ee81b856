import Mathlib.Logic.ExistsUnique
import OctopusIpc.Base.BoundedFifo

/-!
# The life of an item of a queue

At any time an item of a bounded first-in first-out queue stands at one stage: it has not been
submitted, or it is queued, taken or discarded. It is taken from the queue only, and a taken
or a discarded item never comes back.
-/

universe u v

namespace BoundedFifo

variable {α : Type u} {κ : Type v} {key : α → κ} {f f' : BoundedFifo α κ} {k : κ}

/-- Where an item stands. -/
inductive Stage where
  | absent
  | queued
  | taken
  | discarded
  deriving DecidableEq, Repr

/-- The ways an item may go, or stay where it is. -/
inductive Stage.Next : Stage → Stage → Prop
  | stay (stage : Stage) : Next stage stage
  | push : Next absent queued
  | refuse : Next absent discarded
  | displace : Next queued discarded
  | take : Next queued taken

/-- The item with this key stands at this stage. -/
def At (key : α → κ) (f : BoundedFifo α κ) (k : κ) : Stage → Prop
  | .absent => k ∉ f.submitted.map key
  | .queued => k ∈ f.queue.map key
  | .taken => k ∈ f.taken.map key
  | .discarded => k ∈ f.discarded

private theorem mem_map_append_singleton {l : List α} {x : α} (h : k ∈ (l ++ [x]).map key) :
    k ∈ l.map key ∨ k = key x := by
  rw [List.map_append, List.mem_append, List.map_singleton, List.mem_singleton] at h
  exact h

private theorem not_mem_map_of_forall_ne {l : List α} {x : α} (h : ∀ y ∈ l, key y ≠ key x) :
    key x ∉ l.map key := by
  intro hx
  obtain ⟨y, hy, hyx⟩ := List.mem_map.mp hx
  exact h y hy hyx

/-- A fresh item comes from outside. -/
private theorem at_queued_of_push {x : α} (hx : ∀ y ∈ f.submitted, key y ≠ key x)
    (h : k ∈ (f.queue ++ [x]).map key) : ∃ stage, At key f k stage ∧ stage.Next .queued := by
  rcases mem_map_append_singleton h with h | rfl
  · exact ⟨.queued, h, .stay _⟩
  · exact ⟨.absent, not_mem_map_of_forall_ne hx, .push⟩

/-- What was not submitted later was not submitted before. -/
private theorem at_absent_of_submit {x : α} (h : k ∉ (f.submitted ++ [x]).map key) :
    ∃ stage, At key f k stage ∧ stage.Next .absent := by
  refine ⟨.absent, fun hk ↦ h ?_, .stay _⟩
  rw [List.map_append]
  exact List.mem_append_left _ hk

/-- After a step an item stands where it could go from where it stood. -/
theorem Step.exists_at (hs : Step key f f') {stage' : Stage} (h : At key f' k stage') :
    ∃ stage, At key f k stage ∧ stage.Next stage' := by
  have hsame (stage : Stage) (h : At key f k stage) :
      ∃ stage', At key f k stage' ∧ stage'.Next stage := ⟨stage, h, .stay stage⟩
  cases hs with
  | push x hx =>
    cases stage' with
    | absent => exact at_absent_of_submit h
    | queued => exact at_queued_of_push hx h
    | taken => exact hsame .taken h
    | discarded => exact hsame .discarded h
  | refuse x hx =>
    cases stage' with
    | absent => exact at_absent_of_submit h
    | queued => exact hsame .queued h
    | taken => exact hsame .taken h
    | discarded =>
      rcases List.mem_append.mp h with h | h
      · exact hsame .discarded h
      · rw [List.mem_singleton.mp h]
        exact ⟨.absent, not_mem_map_of_forall_ne hx, .refuse⟩
  | displace x y q hx hq =>
    cases stage' with
    | absent => exact at_absent_of_submit h
    | queued =>
      refine at_queued_of_push hx ?_
      rw [hq]
      exact List.mem_cons_of_mem _ h
    | taken => exact hsame .taken h
    | discarded =>
      rcases List.mem_append.mp h with h | h
      · exact hsame .discarded h
      · rw [List.mem_singleton.mp h]
        exact ⟨.queued, List.mem_map_of_mem (hq ▸ List.mem_cons_self), .displace⟩
  | take y q hq =>
    cases stage' with
    | absent => exact hsame .absent h
    | queued =>
      refine hsame .queued ?_
      show k ∈ f.queue.map key
      rw [hq]
      exact List.mem_cons_of_mem _ h
    | taken =>
      rcases mem_map_append_singleton h with h | rfl
      · exact hsame .taken h
      · exact ⟨.queued, List.mem_map_of_mem (hq ▸ List.mem_cons_self), .take⟩
    | discarded => exact hsame .discarded h

variable [DecidableEq κ]

/-- What left the queue or is in it was submitted and not discarded. -/
theorem Wf.survives (h : Wf key f) (hk : k ∈ (f.taken ++ f.queue).map key) :
    k ∈ f.submitted.map key ∧ k ∉ f.discarded := by
  rw [h.order] at hk
  obtain ⟨x, hx, rfl⟩ := List.mem_map.mp hk
  obtain ⟨hsubmitted, hkeep⟩ := List.mem_filter.mp hx
  exact ⟨List.mem_map_of_mem hsubmitted, of_decide_eq_true hkeep⟩

/-- What left the queue is not in it. -/
theorem Wf.not_queued_of_taken (h : Wf key f) (hk : k ∈ f.taken.map key) :
    k ∉ f.queue.map key := by
  have hnodup := h.nodup_survivors
  rw [← h.order, List.map_append, List.nodup_append] at hnodup
  exact fun hq ↦ hnodup.2.2 k hk k hq rfl

/-- In a history in order an item is somewhere. -/
private theorem Wf.exists_at (h : Wf key f) (k : κ) : ∃ stage, At key f k stage := by
  by_cases hs : k ∈ f.submitted.map key
  · by_cases hd : k ∈ f.discarded
    · exact ⟨.discarded, hd⟩
    · obtain ⟨x, hx, rfl⟩ := List.mem_map.mp hs
      have hsurvives : x ∈ f.taken ++ f.queue := by
        rw [h.order]
        exact List.mem_filter.mpr ⟨hx, decide_eq_true hd⟩
      rcases List.mem_append.mp hsurvives with hx | hx
      · exact ⟨.taken, List.mem_map_of_mem hx⟩
      · exact ⟨.queued, List.mem_map_of_mem hx⟩
  · exact ⟨.absent, hs⟩

/-- In a history in order an item stands at one stage. -/
theorem Wf.existsUnique_at (h : Wf key f) (k : κ) : ∃! stage, At key f k stage := by
  have htaken (hk : k ∈ f.taken.map key) := h.survives (k := k) (by
    rw [List.map_append]
    exact List.mem_append_left _ hk)
  have hqueued (hk : k ∈ f.queue.map key) := h.survives (k := k) (by
    rw [List.map_append]
    exact List.mem_append_right _ hk)
  have hdiscarded : k ∈ f.discarded → k ∈ f.submitted.map key := h.discarded k
  have hdisjoint : k ∈ f.taken.map key → k ∉ f.queue.map key := h.not_queued_of_taken
  obtain ⟨stage, hstage⟩ := h.exists_at k
  refine ⟨stage, hstage, fun stage' hstage' ↦ ?_⟩
  cases stage <;> cases stage' <;> simp only [At] at hstage hstage' <;> tauto

end BoundedFifo

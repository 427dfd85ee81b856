import Mathlib.Init

/-!
# Stateful computations with a trace of effects

A computation reads and changes a state and leaves behind the list of its outside effects,
in order. The rule set is for invariants of the state and of the trace left so far.
-/

universe u v

/-- What a computation ends with. -/
structure Traced.Result (σ ε : Type u) (α : Type v) where
  value : α
  state : σ
  effects : List ε

/-- A computation over a state `σ` with effects in `ε`. -/
def Traced (σ ε : Type u) (α : Type v) := σ → Traced.Result σ ε α

namespace Traced

variable {σ ε : Type u} {α β : Type v}

instance : Monad (Traced σ ε) where
  pure a := fun s ↦ ⟨a, s, []⟩
  bind x f := fun s ↦
    let r := x s
    let r' := f r.value r.state
    ⟨r'.value, r'.state, r.effects ++ r'.effects⟩

/-- Have one effect. -/
def emit (e : ε) : Traced σ ε PUnit := fun s ↦ ⟨⟨⟩, s, [e]⟩

/-- Read a part of the state. -/
def reads (f : σ → α) : Traced σ ε α := fun s ↦ ⟨f s, s, []⟩

/-- Change the state. -/
def update (f : σ → σ) : Traced σ ε PUnit := fun s ↦ ⟨⟨⟩, f s, []⟩

/-- Run a computation only under a condition. -/
def when (c : Prop) [Decidable c] (x : Traced σ ε PUnit) : Traced σ ε PUnit :=
  if c then x else pure ⟨⟩

@[simp] theorem pure_apply (a : α) (s : σ) : (pure a : Traced σ ε α) s = ⟨a, s, []⟩ := rfl

@[simp] theorem bind_apply (x : Traced σ ε α) (f : α → Traced σ ε β) (s : σ) :
    (x >>= f) s = ⟨(f (x s).value (x s).state).value, (f (x s).value (x s).state).state,
      (x s).effects ++ (f (x s).value (x s).state).effects⟩ := rfl

@[simp] theorem emit_apply (e : ε) (s : σ) : emit e s = ⟨⟨⟩, s, [e]⟩ := rfl

@[simp] theorem reads_apply (f : σ → α) (s : σ) : (reads f : Traced σ ε α) s = ⟨f s, s, []⟩ := rfl

@[simp] theorem update_apply (f : σ → σ) (s : σ) :
    (update f : Traced σ ε PUnit) s = ⟨⟨⟩, f s, []⟩ := rfl

/-! ### Invariants of a state and the trace so far -/

/-- Started in a state and behind a trace with `J`, the computation leaves both with `J`. -/
def Keeps (J : σ → List ε → Prop) (x : Traced σ ε α) : Prop :=
  ∀ s es, J s es → J (x s).state (es ++ (x s).effects)

namespace Keeps

variable {J : σ → List ε → Prop}

theorem pure (a : α) : Keeps J (Pure.pure a : Traced σ ε α) := by
  intro s es h
  rw [pure_apply, List.append_nil]
  exact h

theorem bind {x : Traced σ ε α} {f : α → Traced σ ε β} (hx : Keeps J x)
    (hf : ∀ a, Keeps J (f a)) : Keeps J (x >>= f) := by
  intro s es h
  rw [bind_apply, ← List.append_assoc]
  exact hf _ _ _ (hx s es h)

theorem emit {e : ε} (he : ∀ s es, J s es → J s (es ++ [e])) : Keeps J (Traced.emit e) := he

theorem update {f : σ → σ} (hf : ∀ s es, J s es → J (f s) es) :
    Keeps J (Traced.update f) := by
  intro s es h
  rw [update_apply, List.append_nil]
  exact hf s es h

theorem reads (f : σ → α) : Keeps J (Traced.reads f : Traced σ ε α) := by
  intro s es h
  rw [reads_apply, List.append_nil]
  exact h

theorem ite {c : Prop} [Decidable c] {x y : Traced σ ε α} (hx : c → Keeps J x)
    (hy : ¬ c → Keeps J y) : Keeps J (if c then x else y) := by
  by_cases hc : c
  · rw [if_pos hc]
    exact hx hc
  · rw [if_neg hc]
    exact hy hc

theorem when {c : Prop} [Decidable c] {x : Traced σ ε PUnit} (hx : c → Keeps J x) :
    Keeps J (Traced.when c x) :=
  ite hx fun _ ↦ pure _

theorem forM {β : Type v} {f : β → Traced σ ε PUnit} (hf : ∀ b, Keeps J (f b)) (l : List β) :
    Keeps J (l.forM f) := by
  induction l with
  | nil => exact pure _
  | cons b l ih => exact (hf b).bind fun _ ↦ ih

end Keeps

/-- A computation for each element of a list that leaves the state alone. -/
theorem forM_apply {β : Type v} {f : β → Traced σ ε PUnit} {g : β → List ε} {s : σ}
    (h : ∀ b, f b s = ⟨⟨⟩, s, g b⟩) (l : List β) : l.forM f s = ⟨⟨⟩, s, l.flatMap g⟩ := by
  induction l with
  | nil => rfl
  | cons b l ih =>
    rw [show (b :: l).forM f = f b >>= fun _ ↦ l.forM f from rfl, bind_apply, h, ih]
    rfl

/-! ### Bounds on the effects from one state -/

/-- Started in a state, the computation has only effects with `P`. -/
def AllEffects (P : ε → Prop) (x : Traced σ ε α) (s : σ) : Prop := ∀ e ∈ (x s).effects, P e

namespace AllEffects

variable {P : ε → Prop} {s : σ}

@[simp] theorem pure_iff (a : α) : AllEffects P (pure a : Traced σ ε α) s ↔ True := by
  simp [AllEffects]

@[simp] theorem bind_iff (x : Traced σ ε α) (f : α → Traced σ ε β) :
    AllEffects P (x >>= f) s ↔ AllEffects P x s ∧ AllEffects P (f (x s).value) (x s).state := by
  simp only [AllEffects, bind_apply, List.mem_append, or_imp, forall_and]

@[simp] theorem emit_iff (e : ε) : AllEffects P (emit e : Traced σ ε PUnit) s ↔ P e := by
  simp [AllEffects]

@[simp] theorem reads_iff (f : σ → α) : AllEffects P (reads f : Traced σ ε α) s ↔ True := by
  simp [AllEffects]

@[simp] theorem update_iff (f : σ → σ) :
    AllEffects P (update f : Traced σ ε PUnit) s ↔ True := by
  simp [AllEffects]

theorem ite_iff {c : Prop} [Decidable c] (x y : Traced σ ε α) :
    AllEffects P (if c then x else y) s ↔
      (c → AllEffects P x s) ∧ (¬ c → AllEffects P y s) := by
  by_cases h : c <;> simp [h]

@[simp] theorem when_iff {c : Prop} [Decidable c] (x : Traced σ ε PUnit) :
    AllEffects P (when c x) s ↔ (c → AllEffects P x s) := by
  rw [when, ite_iff]
  simp

/-- A computation for each element of a list, on whose effects the state has no influence. -/
theorem forM_iff {β : Type v} {f : β → Traced σ ε PUnit} {Q : β → Prop}
    (h : ∀ b s, AllEffects P (f b) s ↔ Q b) (l : List β) (s : σ) :
    AllEffects P (l.forM f) s ↔ ∀ b ∈ l, Q b := by
  induction l generalizing s with
  | nil => exact iff_of_true (fun _ he ↦ nomatch he) fun _ hb ↦ nomatch hb
  | cons b l ih =>
    rw [show (b :: l).forM f = f b >>= fun _ ↦ l.forM f from rfl, bind_iff, h, ih,
      List.forall_mem_cons]

end AllEffects

/-! ### What a computation sees of the state -/

/-- Two runs from states with the same view have the same value and the same effects, and the
views of the states they end in are the same. -/
def Sees {ν : Type v} (view : σ → ν) (x : Traced σ ε α) : Prop :=
  ∀ s t, view s = view t →
    (x s).value = (x t).value ∧ (x s).effects = (x t).effects ∧
      view (x s).state = view (x t).state

namespace Sees

variable {ν : Type v} {view : σ → ν}

theorem pure (a : α) : Sees view (Pure.pure a : Traced σ ε α) := fun _ _ h ↦ ⟨rfl, rfl, h⟩

theorem bind {x : Traced σ ε α} {f : α → Traced σ ε β} (hx : Sees view x)
    (hf : ∀ a, Sees view (f a)) : Sees view (x >>= f) := by
  intro s t h
  obtain ⟨hvalue, heffects, hstate⟩ := hx s t h
  obtain ⟨hvalue', heffects', hstate'⟩ := hf (x t).value _ _ hstate
  rw [bind_apply, bind_apply, hvalue]
  refine ⟨hvalue', ?_, hstate'⟩
  rw [heffects, heffects']

theorem emit (e : ε) : Sees view (Traced.emit e : Traced σ ε PUnit) :=
  fun _ _ h ↦ ⟨rfl, rfl, h⟩

theorem reads {f : σ → α} (hf : ∀ s t, view s = view t → f s = f t) :
    Sees view (Traced.reads f : Traced σ ε α) :=
  fun s t h ↦ ⟨hf s t h, rfl, h⟩

theorem update {f : σ → σ} (hf : ∀ s t, view s = view t → view (f s) = view (f t)) :
    Sees view (Traced.update f : Traced σ ε PUnit) :=
  fun s t h ↦ ⟨rfl, rfl, hf s t h⟩

theorem ite {c : Prop} [Decidable c] {x y : Traced σ ε α} (hx : c → Sees view x)
    (hy : ¬ c → Sees view y) : Sees view (if c then x else y) := by
  by_cases hc : c
  · rw [if_pos hc]
    exact hx hc
  · rw [if_neg hc]
    exact hy hc

theorem when {c : Prop} [Decidable c] {x : Traced σ ε PUnit} (hx : c → Sees view x) :
    Sees view (Traced.when c x) :=
  ite hx fun _ ↦ pure _

theorem forM {β : Type v} {f : β → Traced σ ε PUnit} (hf : ∀ b, Sees view (f b)) (l : List β) :
    Sees view (l.forM f) := by
  induction l with
  | nil => exact pure _
  | cons b l ih => exact (hf b).bind fun _ ↦ ih

end Sees

end Traced

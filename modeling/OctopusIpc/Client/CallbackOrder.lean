import OctopusIpc.Client.Callbacks

/-!
# The order of a callback's calls

The deliveries leave the queue in the order in which the messages arrived. From there each
of the pool's workers goes on by itself, so the calls of a callback begin in that order as
long as no worker begins one while another has an earlier one in hand.
-/

namespace OctopusIpc.Client.Dispatcher
open OctopusIpc.Protocol

variable {κ : Type}

/-- The workers of `g_threadPool`; `src/APP/octopus_ipc_app_client.cpp:40`. -/
def poolSize : Nat := 4

/-- The step is not one of a worker that the pool does not have. -/
def ByPool (_ : Dispatcher κ) : DispatchAction κ → Prop
  | .take w | .begin w | .finish w _ => w < poolSize
  | .register _ _ | .unregister _ | .receive _ _ | .submit => True

instance (s : Dispatcher κ) : (a : DispatchAction κ) → Decidable (s.ByPool a)
  | .take _ | .begin _ | .finish _ _ => inferInstanceAs (Decidable (_ < _))
  | .register _ _ | .unregister _ | .receive _ _ | .submit => inferInstanceAs (Decidable True)

/-- The deliveries that no worker has taken, in the order in which they will be. -/
def waiting (s : Dispatcher κ) : List (Delivery κ) := s.taskQueue ++ s.activeCallbacks

/-! ### Off the queue -/

/-- What waits is in the order of arrival, behind what was taken and what has begun. -/
structure Lined (s : Dispatcher κ) : Prop where
  line : s.waiting.Pairwise fun d d' ↦ d.reception ≤ d'.reception
  taken : ∀ w d, s.taken w = some d → ∀ d' ∈ s.waiting, d.reception ≤ d'.reception
  calls : ∀ c ∈ s.calls, ∀ d ∈ s.waiting, c.reception ≤ d.reception
  past : ∀ c ∈ s.calls, c.reception < s.receptions

theorem lined_init : Lined (init : Dispatcher κ) where
  line := List.Pairwise.nil
  taken _ _ h := nomatch h
  calls _ h := absurd h List.not_mem_nil
  past _ h := absurd h List.not_mem_nil

variable [DecidableEq κ] {s s' : Dispatcher κ}

omit [DecidableEq κ] in
/-- Deliveries that leave the line do not disturb it. -/
private theorem Lined.of_sublist (h : Lined s) (hwaiting : s'.waiting.Sublist s.waiting)
    (htaken : s'.taken = s.taken) (hcalls : s'.calls = s.calls)
    (hreceptions : s'.receptions = s.receptions) : Lined s' := by
  refine ⟨h.line.sublist hwaiting, fun w d hd d' hd' ↦ ?_, fun c hc d hd ↦ ?_, fun c hc ↦ ?_⟩
  · exact h.taken w d (htaken ▸ hd) d' (hwaiting.subset hd')
  · exact h.calls c (hcalls ▸ hc) d (hwaiting.subset hd)
  · exact hreceptions ▸ h.past c (hcalls ▸ hc)

/-- A reception lines up behind everything. -/
private theorem Lined.receive (h : Lined s) (hinv : Inv s) (hactive : s.activeCallbacks = [])
    (queryMsg : DataMessage) (size : Nat) : Lined (s.apply (.receive queryMsg size)) := by
  have hwaiting : s.waiting = s.taskQueue := by rw [waiting, hactive, List.append_nil]
  have hnew : ∀ d ∈ s.namedCallbacks.map fun entry ↦ Delivery.mk entry queryMsg size s.receptions,
      d.reception = s.receptions := by
    intro d hd
    obtain ⟨entry, -, rfl⟩ := List.mem_map.mp hd
    rfl
  refine ⟨List.pairwise_append.mpr ⟨hwaiting ▸ h.line, ?_, fun d hd d' hd' ↦ ?_⟩, ?_, ?_,
    fun c hc ↦ Nat.lt_succ_of_lt (h.past c hc)⟩
  · exact List.pairwise_map.mpr (List.pairwise_of_forall fun _ _ ↦ Nat.le_refl _)
  · rw [hnew d' hd']
    exact Nat.le_of_lt (hinv.queued d hd).1
  · intro w d hd d' hd'
    rcases List.mem_append.mp hd' with hd' | hd'
    · exact h.taken w d hd d' (hwaiting.symm ▸ hd')
    · rw [hnew d' hd']
      exact Nat.le_of_lt (hinv.taken w d hd).1
  · intro c hc d hd
    rcases List.mem_append.mp hd with hd | hd
    · exact h.calls c hc d (hwaiting.symm ▸ hd)
    · rw [hnew d hd]
      exact Nat.le_of_lt (h.past c hc)

/-- Each step keeps the line. -/
theorem Lined.step {a : DispatchAction κ} (h : Lined s) (hinv : Inv s) (hs : Step s a s') :
    Lined s' := by
  cases hs with
  | register funcName callback => exact ⟨h.line, h.taken, h.calls, h.past⟩
  | unregister callback => exact ⟨h.line, h.taken, h.calls, h.past⟩
  | receive queryMsg size ha => exact h.receive hinv ha queryMsg size
  | submit d ds ha =>
    refine h.of_sublist ?_ rfl rfl rfl
    rw [waiting, waiting, ha, Pool.enqueue, Option.getD_some, List.append_assoc,
      List.singleton_append]
    refine List.Sublist.append ?_ (List.Sublist.refl _)
    split
    · exact List.tail_sublist _
    · exact List.Sublist.refl _
  | take w d ds hq =>
    have hcons : s.waiting = d :: (ds ++ s.activeCallbacks) := by
      rw [waiting, hq, List.cons_append]
    obtain ⟨hfirst, hrest⟩ := List.pairwise_cons.mp (hcons ▸ h.line)
    have hmem {x : Delivery κ} (hx : x ∈ ds ++ s.activeCallbacks) : x ∈ s.waiting :=
      hcons ▸ List.mem_cons_of_mem d hx
    refine ⟨hrest, fun v x hx d' hd' ↦ ?_, fun c hc x hx ↦ h.calls c hc x (hmem hx), h.past⟩
    rcases of_update_eq_some hx with hx | hx
    · cases hx
      exact hfirst d' hd'
    · exact h.taken v x hx d' (hmem hd')
  | begin w d ht =>
    refine ⟨h.line, fun v x hx ↦ ?_, fun c hc ↦ ?_, fun c hc ↦ ?_⟩
    · rcases of_update_eq_some hx with hx | hx
      · cases hx
      · exact h.taken v x hx
    · rcases List.mem_cons.mp hc with rfl | hc
      · exact h.taken w d ht
      · exact h.calls c hc
    · rcases List.mem_cons.mp hc with rfl | hc
      · exact (hinv.taken w d ht).1
      · exact h.past c hc
  | finish w threw d he => exact ⟨h.line, h.taken, h.calls, h.past⟩

/-- In every run the deliveries are taken in the order of arrival. -/
theorem lined_of_reachable (h : system.Reachable s) : Lined s := by
  refine h.invariant_of_reachable lined_init fun t a t' hr ht _ hs ↦ ?_
  obtain ⟨he, rfl⟩ := StepSystem.ofCommands_step_eq_some_iff.mp hs
  exact ht.step (inv_of_reachable hr) (step_of_enabled he)

/-! ### In the hands of the workers -/

/-- The calls of a callback, the latest first, have begun in the order of arrival. -/
def CallsInOrder (callback : κ) (s : Dispatcher κ) : Prop :=
  (s.calls.filter fun c ↦ c.cb = callback).Pairwise fun later earlier ↦
    earlier.reception ≤ later.reception

/-- Of two deliveries in hand to the callback the first arrived no later. -/
def Precedes (callback : κ) : Option (Delivery κ) → Option (Delivery κ) → Prop
  | some d, some d' =>
    d.entry.cb = callback → d'.entry.cb = callback → d.reception ≤ d'.reception
  | _, _ => True

instance (callback : κ) :
    (o o' : Option (Delivery κ)) → Decidable (Precedes callback o o')
  | some _, some _ => inferInstanceAs (Decidable (_ → _ → _))
  | none, _ | some _, none => inferInstanceAs (Decidable True)

/-- A worker of the pool begins a call of the callback only when no worker has one for an earlier
message in hand. -/
def BeginsInTurn (callback : κ) (s : Dispatcher κ) : DispatchAction κ → Prop
  | .take w | .finish w _ => w < poolSize
  | .begin w => w < poolSize ∧ ∀ v < poolSize, Precedes callback (s.taken w) (s.taken v)
  | .register _ _ | .unregister _ | .receive _ _ | .submit => True

instance (callback : κ) (s : Dispatcher κ) :
    (a : DispatchAction κ) → Decidable (s.BeginsInTurn callback a)
  | .take _ | .finish _ _ => inferInstanceAs (Decidable (_ < _))
  | .begin _ => inferInstanceAs (Decidable (_ ∧ ∀ v < poolSize, _))
  | .register _ _ | .unregister _ | .receive _ _ | .submit => inferInstanceAs (Decidable True)

/-- The calls of the callback have begun in order, none behind one still in hand, and only the
pool's workers have any. -/
structure InTurn (callback : κ) (s : Dispatcher κ) : Prop where
  order : s.CallsInOrder callback
  ahead : ∀ c ∈ s.calls, c.cb = callback → ∀ w d, s.taken w = some d → d.entry.cb = callback →
    c.reception ≤ d.reception
  hands : ∀ w, poolSize ≤ w → s.taken w = none

theorem inTurn_init (callback : κ) : InTurn callback (init : Dispatcher κ) :=
  ⟨List.Pairwise.nil, nofun, fun _ _ ↦ rfl⟩

/-- A call that begins in turn is behind those begun and ahead of those in hand. -/
private theorem InTurn.begin {callback : κ} (h : InTurn callback s) {w : Nat} (hw : w < poolSize)
    {d : Delivery κ} (ht : s.taken w = some d)
    (hturn : ∀ v < poolSize, Precedes callback (s.taken w) (s.taken v))
    (htaken : s'.taken = Function.update s.taken w none)
    (hcalls : s'.calls = ⟨d.entry.cb, d.reception, s.unregisteredAt d.entry.cb⟩ :: s.calls) :
    InTurn callback s' := by
  have hsub {v : Nat} {x : Delivery κ} (hx : s'.taken v = some x) : s.taken v = some x :=
    (of_update_eq_some (htaken ▸ hx)).resolve_left (Option.some_ne_none x).symm
  refine ⟨?_, fun c hc hcb v x hx hxcb ↦ ?_, fun v hv ↦ ?_⟩
  · rw [CallsInOrder, hcalls, List.filter_cons]
    split
    · next hcb =>
      refine List.pairwise_cons.mpr ⟨fun c hc ↦ ?_, h.order⟩
      obtain ⟨hc, hccb⟩ := List.mem_filter.mp hc
      exact h.ahead c hc (of_decide_eq_true hccb) w d ht (of_decide_eq_true hcb)
    · exact h.order
  · have hx' := hsub hx
    rcases List.mem_cons.mp (hcalls ▸ hc) with rfl | hc
    · rcases Nat.lt_or_ge v poolSize with hv | hv
      · have hprecedes := hturn v hv
        rw [ht, hx'] at hprecedes
        exact hprecedes hcb hxcb
      · cases (h.hands v hv).symm.trans hx'
    · exact h.ahead c hc hcb v x hx' hxcb
  · rw [htaken, Function.update_of_ne (Nat.ne_of_gt (Nat.lt_of_lt_of_le hw hv))]
    exact h.hands v hv

/-- Steps in turn keep the calls of the callback in order. -/
theorem InTurn.step {callback : κ} {a : DispatchAction κ} (h : InTurn callback s)
    (hline : Lined s) (hg : s.BeginsInTurn callback a) (hs : Step s a s') :
    InTurn callback s' := by
  cases hs with
  | register | unregister | receive | submit | finish => exact ⟨h.order, h.ahead, h.hands⟩
  | take w d ds hq =>
    have hd : d ∈ s.waiting := by
      rw [waiting, hq]
      exact List.mem_cons_self
    refine ⟨h.order, fun c hc hcb v x hx hxcb ↦ ?_, fun v hv ↦ ?_⟩
    · rcases of_update_eq_some hx with hx | hx
      · cases hx
        exact hline.calls c hc d hd
      · exact h.ahead c hc hcb v x hx hxcb
    · simp only [Function.update_of_ne (Nat.ne_of_gt (Nat.lt_of_lt_of_le hg hv))]
      exact h.hands v hv
  | begin w d ht => exact h.begin hg.1 ht hg.2 rfl rfl

/-- Where the pool's workers begin in turn the calls of the callback are in order. -/
theorem inTurn_of_reachable {callback : κ}
    (h : system.ReachableUnder (BeginsInTurn callback) s) : InTurn callback s := by
  refine h.invariant_of_reachable (inTurn_init callback) fun t a t' hr ht hg hs ↦ ?_
  obtain ⟨he, rfl⟩ := StepSystem.ofCommands_step_eq_some_iff.mp hs
  exact ht.step (lined_of_reachable hr.reachable) hg (step_of_enabled he)

/-- Whatever the pool's workers do, no call of a callback has begun before that for an earlier
message that no worker has taken yet; and in every run in which no worker begins a call of it
while one has an earlier message for it in hand, the calls begin in the order of arrival. -/
theorem callsInOrder_of_beginsInTurn (callback : κ) :
    (∀ s : Dispatcher κ, system.ReachableUnder ByPool s →
      ∀ c ∈ s.calls, ∀ d ∈ s.waiting, c.reception ≤ d.reception) ∧
    ∀ s : Dispatcher κ, system.ReachableUnder (BeginsInTurn callback) s →
      s.CallsInOrder callback :=
  ⟨fun _ h ↦ (lined_of_reachable h.reachable).calls, fun _ h ↦ (inTurn_of_reachable h).order⟩

/-- Two messages for one callback, taken by two workers. -/
private def twoTaken : List (DispatchAction Nat) :=
  [.register "f" 7, .receive DataMessage.new 6, .submit, .receive DataMessage.new 6, .submit,
    .take 0, .take 1]

/-- The worker with the first message begins first. -/
theorem callsInOrder_inTurn :
    ∃ s : Dispatcher Nat, system.ReachableUnder (BeginsInTurn 7) s ∧
      s.calls = [⟨7, 1, none⟩, ⟨7, 0, none⟩] ∧ s.CallsInOrder 7 := by
  have hrun : ∃ s, system.run (BeginsInTurn 7) init (twoTaken ++ [.begin 0, .begin 1]) = some s ∧
      s.calls = [⟨7, 1, none⟩, ⟨7, 0, none⟩] := ⟨_, rfl, rfl⟩
  obtain ⟨s, hs, hcalls⟩ := hrun
  have hreach := StepSystem.reachableUnder_of_run hs
  exact ⟨s, hreach, hcalls, (callsInOrder_of_beginsInTurn 7).2 s hreach⟩

/-- The worker with the second message begins first. -/
theorem not_callsInOrder_overtaken :
    ∃ s : Dispatcher Nat, system.ReachableUnder ByPool s ∧
      s.calls = [⟨7, 0, none⟩, ⟨7, 1, none⟩] ∧ ¬ s.CallsInOrder 7 := by
  have hrun : ∃ s, system.run ByPool init (twoTaken ++ [.begin 1, .begin 0]) = some s ∧
      s.calls = [⟨7, 0, none⟩, ⟨7, 1, none⟩] := ⟨_, rfl, rfl⟩
  obtain ⟨s, hs, hcalls⟩ := hrun
  refine ⟨s, StepSystem.reachableUnder_of_run hs, hcalls, fun h ↦ ?_⟩
  rw [CallsInOrder, hcalls] at h
  exact absurd ((List.pairwise_cons.mp h).1 ⟨7, 1, none⟩ (List.mem_singleton_self _)) (by decide)

end OctopusIpc.Client.Dispatcher

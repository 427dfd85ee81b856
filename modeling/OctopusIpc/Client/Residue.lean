import OctopusIpc.Client.ReceiveLoop

/-!
# What one connection leaves to the next

`ipc_receive_response_loop` keeps its buffer over a reconnect, so the bytes of an interrupted
frame stand in front of what the next connection brings. Two runs that receive the same on
the new connection pass on the same messages when what they have left behaves alike in front
of any continuation. Fewer bytes than a base part are left, and the places where a header
may start in them decide.
-/

namespace OctopusIpc.Client
open OctopusIpc.Protocol OctopusIpc.Socket

/-! ### What a run dispatches -/

/-- At most `fuel` rounds of the drain loop: still in the loop, or out of it. -/
def drainWithin : Nat → DrainState → DrainState ⊕ ReceiveState
  | 0, d => .inl d
  | fuel + 1, d =>
    match drainBody d with
    | .inl d' => drainWithin fuel d'
    | .inr s => .inr s

/-- The messages passed on over a sequence of results, `fuel` rounds being run of each drain
loop; a loop that is not out of it by then is not run further. -/
def dispatched (fuel : Nat) (s : ReceiveState) : List QueryResult → List (DataMessage × Nat)
  | [] => s.notified
  | .success c :: results =>
    match drainWithin fuel ⟨s.buffer ++ c.bytes, DataMessage.new, s.notified⟩ with
    | .inl d => d.notified
    | .inr s' => dispatched fuel s' results
  | .timeout :: results | .disconnected :: results | .error :: results =>
    dispatched fuel s results

/-- A loop that is left within the rounds is out. -/
theorem drainWithin_of_run {fuel : Nat} {d : DrainState} {s : ReceiveState}
    (h : Loop.run drainBody fuel d = some s) : drainWithin fuel d = .inr s := by
  induction fuel generalizing d with
  | zero => cases h
  | succ fuel ih =>
    rw [Loop.run] at h
    rw [drainWithin]
    cases hb : drainBody d with
    | inl d' =>
      rw [hb] at h
      exact ih h
    | inr s' =>
      rw [hb] at h
      exact congrArg _ (Option.some.inj h)

/-- Where the loop gets through the results, these are the messages it has passed on. -/
theorem dispatched_of_loop {fuel : Nat} {s s' : ReceiveState} {results : List QueryResult}
    (h : ipcReceiveResponseLoop fuel s results = some s') :
    dispatched fuel s results = s'.notified := by
  induction results generalizing s with
  | nil => exact congrArg ReceiveState.notified (Option.some.inj h)
  | cons r results ih =>
    rw [ipcReceiveResponseLoop, List.foldlM_cons] at h
    obtain ⟨t, ht, hrest⟩ := Option.bind_eq_some_iff.mp h
    cases r with
    | success c =>
      rw [dispatched, drainWithin_of_run ht]
      exact ih hrest
    | timeout | disconnected | error =>
      cases ht
      exact ih hrest

/-- What two runs dispatch from here on, finitely or infinitely many messages, is the same. -/
def SameDispatches (buffer buffer' : List UInt8) (results : List QueryResult) : Prop :=
  (∀ fuel, ∃ fuel', dispatched fuel ⟨buffer, []⟩ results <+: dispatched fuel' ⟨buffer', []⟩ results) ∧
    ∀ fuel, ∃ fuel', dispatched fuel ⟨buffer', []⟩ results <+: dispatched fuel' ⟨buffer, []⟩ results

/-- What is left does not matter to what is dispatched of any continuation. -/
def NoLeak (buffer buffer' : List UInt8) : Prop :=
  ∀ results, SameDispatches buffer buffer' results

variable {b b' c j j' t : List UInt8}

theorem NoLeak.symm (h : NoLeak b b') : NoLeak b' b := fun results ↦ (h results).symm

theorem noLeak_of_dispatched_eq
    (h : ∀ fuel results, dispatched fuel ⟨b, []⟩ results = dispatched fuel ⟨b', []⟩ results) :
    NoLeak b b' := by
  intro results
  refine ⟨fun fuel ↦ ⟨fuel, ?_⟩, fun fuel ↦ ⟨fuel, ?_⟩⟩
  · exact h fuel results ▸ List.prefix_refl _
  · exact (h fuel results).symm ▸ List.prefix_refl _

/-! ### The first message of a continuation -/

/-- What was passed on, in the loop or out of it. -/
private def passedOn : DrainState ⊕ ReceiveState → List (DataMessage × Nat)
  | .inl d => d.notified
  | .inr s => s.notified

private theorem dispatched_singleton (fuel : Nat) (c : Chunk) :
    dispatched fuel ⟨b, []⟩ [.success c] =
      passedOn (drainWithin fuel ⟨b ++ c.bytes, DataMessage.new, []⟩) := by
  rw [dispatched]
  cases drainWithin fuel ⟨b ++ c.bytes, DataMessage.new, []⟩ <;> rfl

/-- The drain loop only ever adds to what it has passed on. -/
private theorem notified_prefix_passedOn {d : DrainState} (fuel : Nat)
    (hq : d.queryMsg.isValid = true) : d.notified <+: passedOn (drainWithin fuel d) := by
  induction fuel generalizing d with
  | zero => exact List.prefix_refl _
  | succ fuel ih =>
    rw [drainWithin]
    by_cases hshort : d.buffer.length < 6
    · rw [drainBody_of_short hshort]
      exact List.prefix_refl _
    · obtain ⟨rest, o, hstep⟩ := packetStep_total d.buffer
      rw [drainBody_of_step hq (Nat.not_lt.mp hshort) hstep]
      have hround := ih
        (d := ⟨rest, returned d.queryMsg o, d.notified ++ [notification (returned d.queryMsg o)]⟩)
        (isValid_returned hq o)
      exact (List.prefix_append _ _).trans hround

/-- Too few bytes dispatch nothing. -/
private theorem dispatched_of_short (fuel : Nat) (c : Chunk)
    (h : (b ++ c.bytes).length < 6) : dispatched fuel ⟨b, []⟩ [.success c] = [] := by
  rw [dispatched_singleton]
  cases fuel with
  | zero => rfl
  | succ fuel =>
    rw [drainWithin, drainBody_of_short (by exact h)]
    rfl

/-- Enough bytes dispatch first what the first call on them returns. -/
private theorem head_of_dispatched (fuel : Nat) (c : Chunk) {rest : List UInt8}
    {o : Option ValidMessage} (h : 6 ≤ (b ++ c.bytes).length)
    (hstep : PacketStep (b ++ c.bytes) rest o) :
    [notification (returned DataMessage.new o)] <+:
      dispatched (fuel + 1) ⟨b, []⟩ [.success c] := by
  rw [dispatched_singleton, drainWithin, drainBody_of_step DataMessage.isValid_new h hstep]
  exact notified_prefix_passedOn
    (d := ⟨rest, returned DataMessage.new o, [notification (returned DataMessage.new o)]⟩) fuel
    (isValid_returned DataMessage.isValid_new o)

/-- Two buffers that dispatch the same have both enough bytes or both too few. -/
private theorem enough_of_same {c : Chunk} (h : SameDispatches b b' [.success c])
    (hb : 6 ≤ (b ++ c.bytes).length) : 6 ≤ (b' ++ c.bytes).length := by
  by_contra hshort
  obtain ⟨rest, o, hstep⟩ := packetStep_total (b ++ c.bytes)
  obtain ⟨fuel, hfuel⟩ := h.1 1
  rw [dispatched_of_short fuel c (Nat.not_le.mp hshort)] at hfuel
  have hhead := (head_of_dispatched 0 c hb hstep).trans hfuel
  cases List.eq_nil_of_prefix_nil hhead

/-- The first calls on two buffers that dispatch the same return the same message. -/
private theorem returned_eq_of_same {c : Chunk} (h : SameDispatches b b' [.success c])
    (hb : 6 ≤ (b ++ c.bytes).length) {rest rest' : List UInt8} {o o' : Option ValidMessage}
    (hstep : PacketStep (b ++ c.bytes) rest o) (hstep' : PacketStep (b' ++ c.bytes) rest' o') :
    returned DataMessage.new o = returned DataMessage.new o' := by
  have hb' := enough_of_same h hb
  obtain ⟨fuel, hfuel⟩ := h.1 1
  have hhead := (head_of_dispatched 0 c hb hstep).trans hfuel
  cases fuel with
  | zero =>
    rw [dispatched_singleton] at hhead
    cases List.eq_nil_of_prefix_nil hhead
  | succ fuel =>
    have hhead' := head_of_dispatched fuel c hb' hstep'
    have heq := List.prefix_of_prefix_length_le hhead hhead' (Nat.le_refl 1)
    exact congrArg Prod.fst (List.cons.inj (heq.eq_of_length rfl)).1

/-! ### Where a header may start -/

/-- From the first place on where a header stands, or may stand once more has arrived. -/
def headerTail : List UInt8 → List UInt8
  | [] => []
  | [b0] => if b0 = 0xA5 then [b0] else []
  | b0 :: b1 :: rest =>
    if b0 = 0xA5 ∧ b1 = 0xA5 then b0 :: b1 :: rest else headerTail (b1 :: rest)

/-- No header starts in the first part, whatever follows the second. -/
def Headerless (j t : List UInt8) : Prop :=
  ∀ c : List UInt8, ∀ i < j.length, ¬ HeaderAt (j ++ (t ++ c)) i

/-- Such a place is absent, the last byte, or two bytes before the end. -/
theorem headerTail_shape (b : List UInt8) :
    headerTail b = [] ∨ headerTail b = [0xA5] ∨ ∃ rest, headerTail b = 0xA5 :: 0xA5 :: rest := by
  fun_induction headerTail b with
  | case1 => exact .inl rfl
  | case2 => exact .inr (.inl rfl)
  | case3 => exact .inl rfl
  | case4 b0 b1 rest h =>
    obtain ⟨rfl, rfl⟩ := h
    exact .inr (.inr ⟨rest, rfl⟩)
  | case5 b0 b1 rest h ih => exact ih

private theorem Headerless.cons {b0 : UInt8} (h : Headerless j t)
    (h0 : ∀ c, ¬ HeaderAt (b0 :: (j ++ (t ++ c))) 0) : Headerless (b0 :: j) t := by
  intro c i hi
  cases i with
  | zero => exact h0 c
  | succ i =>
    rw [← headerAt_drop_zero, List.cons_append, List.drop_succ_cons, headerAt_drop_zero]
    exact h c i (Nat.lt_of_succ_lt_succ hi)

/-- A buffer is a part in which no header starts and its tail. -/
theorem exists_headerless (b : List UInt8) :
    ∃ j, b = j ++ headerTail b ∧ Headerless j (headerTail b) := by
  fun_induction headerTail b with
  | case1 => exact ⟨[], rfl, nofun⟩
  | case2 => exact ⟨[], rfl, nofun⟩
  | case3 b0 h =>
    refine ⟨[b0], rfl, Headerless.cons (j := []) nofun ?_⟩
    exact fun c hc ↦ h (Option.some.inj hc.1)
  | case4 => exact ⟨[], rfl, nofun⟩
  | case5 b0 b1 rest h ih =>
    obtain ⟨j, hj, hless⟩ := ih
    refine ⟨b0 :: j, congrArg _ hj, hless.cons fun c hc ↦ h ?_⟩
    rw [← List.append_assoc, ← hj] at hc
    exact ⟨Option.some.inj hc.1, Option.some.inj hc.2⟩

private theorem Headerless.append (h : Headerless j t) (c : List UInt8) :
    Headerless j (t ++ c) := by
  intro c' i hi
  rw [List.append_assoc]
  exact h (c ++ c') i hi

private theorem Headerless.not_headerAt (h : Headerless j t) {i : Nat} (hi : i < j.length) :
    ¬ HeaderAt (j ++ t) i := by
  have hnil := h [] i hi
  rwa [List.append_nil] at hnil

/-- A header at the front of the tail is the first one. -/
private theorem Headerless.firstHeader (h : Headerless j t) (h0 : HeaderAt t 0) :
    FirstHeader (j ++ t) j.length :=
  firstHeader_append (fun _ hi ↦ h.not_headerAt hi) h0

/-! ### Buffers that behave alike -/

/-- The first five bytes of a frame with more than 255 payload bytes, which no single read
completes. -/
def Stuck (t : List UInt8) : Prop := t.length = 5 ∧ t[4]? ≠ some 0

/-- Equally long, and the same from the first place on where a header may start, unless both
are stuck. -/
def Alike (b b' : List UInt8) : Prop :=
  b.length = b'.length ∧
    (headerTail b = headerTail b' ∨ Stuck (headerTail b) ∧ Stuck (headerTail b'))

private theorem drop_append_of_le {i : Nat} (hi : j.length ≤ i) :
    (j ++ t).drop i = t.drop (i - j.length) := by
  rw [List.drop_append, List.drop_of_length_le hi, List.nil_append]

private theorem drop_append_eq (hlen : j.length = j'.length) {i : Nat} (hi : j.length ≤ i) :
    (j ++ t).drop i = (j' ++ t).drop i := by
  rw [drop_append_of_le hi, drop_append_of_le (hlen ▸ hi), hlen]

private theorem length_append_eq (hlen : j.length = j'.length) :
    (j' ++ t).length = (j ++ t).length := by
  rw [List.length_append, List.length_append, hlen]

private theorem headerAt_append_iff (hlen : j.length = j'.length) {i : Nat} (hi : j.length ≤ i) :
    HeaderAt (j ++ t) i ↔ HeaderAt (j' ++ t) i := by
  rw [← headerAt_drop_zero, drop_append_eq hlen hi, headerAt_drop_zero]

/-- Headers start in the tail only, and there at the same places. -/
private theorem headerAt_iff_of_headerless (hlen : j.length = j'.length) (hj : Headerless j t)
    (hj' : Headerless j' t) (i : Nat) : HeaderAt (j ++ t) i ↔ HeaderAt (j' ++ t) i := by
  rcases Nat.lt_or_ge i j.length with hi | hi
  · exact iff_of_false (hj.not_headerAt hi) (hj'.not_headerAt (hlen ▸ hi))
  · exact headerAt_append_iff hlen hi

/-- A call with enough bytes takes the same path whatever headerless bytes stand in front. -/
private theorem PacketStep.congr_headerless (hlen : j.length = j'.length) (hj : Headerless j t)
    (hj' : Headerless j' t) (hmax : j.length ≤ maxScan) (hb : 6 ≤ (j ++ t).length)
    {rest : List UInt8} {o : Option ValidMessage} (h : PacketStep (j ++ t) rest o) :
    PacketStep (j' ++ t) rest o := by
  have hheader := headerAt_iff_of_headerless hlen hj hj'
  have htotal := length_append_eq (t := t) hlen
  have hfirst {i : Nat} (hi : FirstHeader (j ++ t) i) :
      FirstHeader (j' ++ t) i ∧ (j ++ t).drop i = (j' ++ t).drop i := by
    refine ⟨⟨(hheader i).mp hi.1, fun k hk hk' ↦ hi.2 k hk ((hheader k).mpr hk')⟩, ?_⟩
    exact drop_append_eq hlen (Nat.not_lt.mp fun hlt ↦ hj.not_headerAt hlt hi.1)
  cases h with
  | short hshort => exact absurd hshort (Nat.not_lt.mpr hb)
  | noHeader _ hnone =>
    rw [drop_append_eq hlen hmax]
    exact .noHeader (htotal ▸ hb) fun i hi hi' ↦ hnone i hi ((hheader i).mpr hi')
  | cutBase i _ hi hf hs =>
    obtain ⟨hf', hdrop⟩ := hfirst hf
    rw [hdrop] at hs ⊢
    exact .cutBase i (htotal ▸ hb) hi hf' hs
  | incomplete i hi hf hs hl =>
    obtain ⟨hf', hdrop⟩ := hfirst hf
    rw [hdrop] at hs hl ⊢
    exact .incomplete i hi hf' hs hl
  | frame i m hi hf hm =>
    obtain ⟨hf', hdrop⟩ := hfirst hf
    rw [hdrop] at hm ⊢
    exact .frame i m hi hf' hm

/-- Two buffers that differ in headerless bytes only dispatch the same. -/
private theorem dispatched_congr_headerless (hlen : j.length = j'.length) (hj : Headerless j t)
    (hj' : Headerless j' t) (hshort : (j ++ t).length < 6) (fuel : Nat)
    (n : List (DataMessage × Nat)) (results : List QueryResult) :
    dispatched fuel ⟨j ++ t, n⟩ results = dispatched fuel ⟨j' ++ t, n⟩ results := by
  induction results generalizing t n with
  | nil => rfl
  | cons r results ih =>
    cases r with
    | timeout | disconnected | error => exact ih hj hj' hshort n
    | success c =>
      rw [dispatched, dispatched]
      simp only [List.append_assoc]
      cases fuel with
      | zero => rfl
      | succ fuel =>
        rw [drainWithin, drainWithin]
        have hjc := hj.append c.bytes
        have hjc' := hj'.append c.bytes
        have htotal := length_append_eq (t := t ++ c.bytes) hlen
        by_cases hstill : (j ++ (t ++ c.bytes)).length < 6
        · rw [drainBody_of_short hstill, drainBody_of_short (htotal.symm ▸ hstill)]
          exact ih hjc hjc' hstill n
        · have hb := Nat.not_lt.mp hstill
          have hmax : j.length ≤ maxScan := by
            rw [List.length_append] at hshort
            unfold maxScan
            omega
          obtain ⟨rest, o, hstep⟩ := packetStep_total (j ++ (t ++ c.bytes))
          have hround := drainBody_of_step (s := ⟨j ++ (t ++ c.bytes), DataMessage.new, n⟩)
            DataMessage.isValid_new hb hstep
          have hround' := drainBody_of_step (s := ⟨j' ++ (t ++ c.bytes), DataMessage.new, n⟩)
            DataMessage.isValid_new (htotal.symm ▸ hb)
            (hstep.congr_headerless hlen hjc hjc' hmax hb)
          rw [hround, hround']

/-- Behind a stuck tail one read leaves an incomplete frame. -/
private theorem Stuck.incompleteFrame (h : Stuck (headerTail b)) (hb : b.length < 6) (c : Chunk) :
    IncompleteFrame (b ++ c.bytes) := by
  obtain ⟨j, hj, -⟩ := exists_headerless b
  obtain ⟨hlen, hne⟩ := h
  have hlength := congrArg List.length hj
  rw [List.length_append] at hlength
  have hnil : j = [] := List.eq_nil_of_length_eq_zero (by omega)
  rw [hnil, List.nil_append] at hj
  rcases headerTail_shape b with hs | hs | ⟨rest, hs⟩
  · rw [hs] at hlen
    cases hlen
  · rw [hs] at hlen
    cases hlen
  · rw [hs] at hj hlen hne
    subst hj
    match rest, hlen with
    | [b2, b3, b4], _ =>
      obtain ⟨x, xs, hx⟩ := List.exists_cons_of_ne_nil c.nonempty
      have hfits := c.fits
      have hpos : b4.toNat ≠ 0 := fun h0 ↦ hne (congrArg some (UInt8.toNat_inj.mp h0))
      rw [hx] at hfits ⊢
      refine ⟨⟨rfl, rfl⟩, ?_, ?_⟩
      · simp only [List.cons_append, List.nil_append, List.length_cons]
        omega
      · simp only [List.cons_append, List.nil_append, List.length_cons, peekLength,
          List.getD_cons_succ, List.getD_cons_zero, BigEndian.toNat_join, bufferSize] at hfits ⊢
        omega

/-- On an incomplete frame the loop passes on the same message in every round. -/
private theorem drainWithin_of_incomplete (h : IncompleteFrame b) (fuel : Nat) {q : DataMessage}
    (hq : q.isValid = true) (hreset : resetQueryMsg q = resetQueryMsg DataMessage.new)
    (n : List (DataMessage × Nat)) :
    ∃ q', drainWithin fuel ⟨b, q, n⟩ =
      .inl ⟨b, q', n ++ List.replicate fuel (notification (resetQueryMsg DataMessage.new))⟩ := by
  induction fuel generalizing q n with
  | zero => exact ⟨q, by rw [drainWithin, List.replicate_zero, List.append_nil]⟩
  | succ fuel ih =>
    have hnext : returned q none = resetQueryMsg DataMessage.new := hreset
    obtain ⟨q', hq'⟩ := ih (isValid_returned hq none) hreset (n ++ [notification (returned q none)])
    refine ⟨q', ?_⟩
    rw [drainWithin, drainBody_of_step (s := ⟨b, q, n⟩) hq h.2.1 h.step]
    refine hq'.trans ?_
    rw [hnext, List.append_assoc]
    rfl

/-- Two stuck buffers dispatch the same. -/
private theorem dispatched_congr_stuck (hb : b.length < 6) (hb' : b'.length < 6)
    (h : Stuck (headerTail b)) (h' : Stuck (headerTail b')) (fuel : Nat)
    (results : List QueryResult) :
    dispatched fuel ⟨b, []⟩ results = dispatched fuel ⟨b', []⟩ results := by
  induction results with
  | nil => rfl
  | cons r results ih =>
    cases r with
    | timeout | disconnected | error => exact ih
    | success c =>
      obtain ⟨q, hq⟩ := drainWithin_of_incomplete (h.incompleteFrame hb c) fuel
        DataMessage.isValid_new rfl []
      obtain ⟨q', hq'⟩ := drainWithin_of_incomplete (h'.incompleteFrame hb' c) fuel
        DataMessage.isValid_new rfl []
      rw [dispatched, dispatched, hq, hq']

/-- Alike buffers leak nothing. -/
theorem Alike.noLeak (h : Alike b b') (hb : b.length < 6) (hb' : b'.length < 6) : NoLeak b b' := by
  obtain ⟨hlen, htail | ⟨hstuck, hstuck'⟩⟩ := h
  · obtain ⟨j, hj, hless⟩ := exists_headerless b
    obtain ⟨j', hj', hless'⟩ := exists_headerless b'
    rw [← htail] at hj' hless'
    have hjlen : j.length = j'.length := by
      have hl := congrArg List.length hj
      have hl' := congrArg List.length hj'
      rw [List.length_append] at hl hl'
      omega
    refine noLeak_of_dispatched_eq fun fuel results ↦ ?_
    have hcongr := dispatched_congr_headerless hjlen hless hless' (hj ▸ hb) fuel [] results
    rwa [← hj, ← hj'] at hcongr
  · exact noLeak_of_dispatched_eq fun fuel results ↦
      dispatched_congr_stuck hb hb' hstuck hstuck' fuel results

/-! ### Telling buffers apart -/

/-- `A5 A5 00 00 00 01 07`, a frame with the payload byte 7. -/
def probe : List UInt8 := (DataMessage.ofPayload 0 0 [7]).serializeMessage

/-- The end of that frame, as one read. -/
private def probeFrom (k : Nat) (h : k < 7) : Chunk where
  bytes := probe.drop k
  nonempty := by
    have hlen : probe.length = 7 := rfl
    exact List.ne_nil_of_length_pos (by rw [List.length_drop]; omega)
  fits := by
    have hlen : probe.length = 7 := rfl
    have hsize : 7 ≤ bufferSize := by decide
    rw [List.length_drop]
    omega

private theorem serializeMessage_seven (g i : UInt8) :
    (DataMessage.ofPayload g i [7]).serializeMessage = [0xA5, 0xA5, g, i, 0, 1, 7] := by
  have hheader : BigEndian.high DataMessage.header = 0xA5 ∧ BigEndian.low DataMessage.header = 0xA5 :=
    ⟨rfl, rfl⟩
  have hlength : BigEndian.high (UInt16.ofNat 1) = 0 ∧ BigEndian.low (UInt16.ofNat 1) = 1 :=
    ⟨rfl, rfl⟩
  simp only [DataMessage.serializeMessage, DataMessage.ofPayload, List.length_singleton, hheader,
    hlength, List.cons_append, List.nil_append]

/-- A tail that is not stuck is completed to a frame with the payload byte 7. -/
private theorem exists_frame_of_not_stuck (hlen : (headerTail b).length ≤ 5)
    (h : ¬ Stuck (headerTail b)) :
    ∃ m : ValidMessage, m.val.data = [7] ∧
      headerTail b ++ probe.drop (headerTail b).length = m.val.serializeMessage := by
  rcases headerTail_shape b with hs | hs | ⟨rest, hs⟩
  · rw [hs]
    exact ⟨⟨DataMessage.ofPayload 0 0 [7], rfl⟩, rfl, rfl⟩
  · rw [hs]
    exact ⟨⟨DataMessage.ofPayload 0 0 [7], rfl⟩, rfl, rfl⟩
  · rw [hs] at h hlen ⊢
    match rest, hlen, h with
    | [], _, _ => exact ⟨⟨DataMessage.ofPayload 0 0 [7], rfl⟩, rfl, rfl⟩
    | [g], _, _ =>
      exact ⟨⟨DataMessage.ofPayload g 0 [7], rfl⟩, rfl, (serializeMessage_seven g 0).symm⟩
    | [g, i], _, _ =>
      exact ⟨⟨DataMessage.ofPayload g i [7], rfl⟩, rfl, (serializeMessage_seven g i).symm⟩
    | [g, i, l], _, h =>
      have hl : l = 0 := by
        by_contra hne
        exact h ⟨rfl, fun h0 ↦ hne (Option.some.inj h0)⟩
      subst hl
      exact ⟨⟨DataMessage.ofPayload g i [7], rfl⟩, rfl, (serializeMessage_seven g i).symm⟩

/-- The probe continues every tail that is at least as long with a header at the front. -/
private theorem headerAt_tail_probe {k : Nat} (hk : k ≤ (headerTail b).length) :
    HeaderAt (headerTail b ++ probe.drop k) 0 := by
  rcases headerTail_shape b with hs | hs | ⟨rest, hs⟩
  · rw [hs] at hk ⊢
    cases Nat.le_zero.mp hk
    decide
  · rw [hs] at hk ⊢
    rcases Nat.le_one_iff_eq_zero_or_eq_one.mp hk with rfl | rfl <;> decide
  · rw [hs]
    exact ⟨rfl, rfl⟩

/-- The payload byte stands behind a base part only where the tail is as long as assumed. -/
private theorem length_eq_of_probe {k : Nat} (hlen : t.length ≤ 5) (hk : k ≤ t.length)
    (h : (t ++ probe.drop k)[6]? = some 7) : k = t.length := by
  rw [List.getElem?_append_right (by omega), List.getElem?_drop] at h
  have hbyte : ∀ d ≤ 6, probe[d]? = some 7 → d = 6 := by decide
  have hd := hbyte (k + (6 - t.length)) (by omega) h
  omega

/-- Of two tails completed alike the longer one begins with the frame of the other only if they
are the same. -/
private theorem eq_of_probe_prefix {t' : List UInt8} (hlen : t.length ≤ 5)
    (hle : t'.length ≤ t.length)
    (h : t' ++ probe.drop t'.length <+: t ++ probe.drop t'.length) : t = t' := by
  have hprobe : probe.length = 7 := rfl
  have hbyte : (t ++ probe.drop t'.length)[6]? = some 7 := by
    obtain ⟨s, hs⟩ := h
    rw [← hs, List.append_assoc, List.getElem?_append_right (by omega),
      List.getElem?_append_left (by rw [List.length_drop]; omega), List.getElem?_drop,
      Nat.add_sub_cancel' (by omega)]
    rfl
  have hlength := length_eq_of_probe hlen hle hbyte
  rw [hlength] at h
  have hcancel := h.eq_of_length (by rw [List.length_append, List.length_append, hlength])
  exact (List.append_cancel_right hcancel).symm

/-- A buffer that leaks nothing against one whose tail is no longer and not stuck has the same
tail: completed with the probe, both dispatch the same frame. -/
private theorem NoLeak.headerTail_eq (h : NoLeak b b') (hb : b.length < 6) (hb' : b'.length < 6)
    (hstuck : ¬ Stuck (headerTail b'))
    (hle : (headerTail b').length ≤ (headerTail b).length) : headerTail b = headerTail b' := by
  obtain ⟨j, hj, hless⟩ := exists_headerless b
  obtain ⟨j', hj', hless'⟩ := exists_headerless b'
  have hl := congrArg List.length hj
  have hl' := congrArg List.length hj'
  rw [List.length_append] at hl hl'
  obtain ⟨m', hdata, hframe⟩ := exists_frame_of_not_stuck (by omega) hstuck
  generalize headerTail b' = t' at *
  let c := probeFrom t'.length (by omega)
  have hprobe : probe.length = 7 := rfl
  have henough : 6 ≤ (b ++ c.bytes).length := by
    change 6 ≤ (b ++ probe.drop t'.length).length
    rw [List.length_append, List.length_drop]
    omega
  have happend : b ++ c.bytes = j ++ (headerTail b ++ probe.drop t'.length) := by
    rw [← List.append_assoc, ← hj]
    rfl
  have happend' : b' ++ c.bytes = j' ++ m'.val.serializeMessage := by
    rw [← hframe, ← List.append_assoc, ← hj']
    rfl
  have hfirst := (hless.append _).firstHeader (headerAt_tail_probe hle)
  have hstep' : PacketStep (b' ++ c.bytes) [] (some m') := by
    have h0 := headerAt_serializeMessage m'.property []
    have hless'' := hless'.append (probe.drop t'.length)
    rw [hframe, ← List.append_nil m'.val.serializeMessage] at hless''
    rw [happend', ← List.append_nil m'.val.serializeMessage]
    exact PacketStep.of_frame (by unfold maxScan; omega) (hless''.firstHeader h0)
  obtain ⟨rest, o, hstep⟩ := packetStep_total (b ++ c.bytes)
  have hreturned := returned_eq_of_same (h [.success c]) henough hstep hstep'
  rw [happend] at hstep
  have hdata' := congrArg DataMessage.data hreturned
  rw [returned, hdata] at hdata'
  cases hstep with
  | frame i m hi hf hm =>
    cases firstHeader_unique hf hfirst
    rw [List.drop_left, show m.val = m'.val from hreturned, ← hframe] at hm
    exact eq_of_probe_prefix (by omega) hle hm
  | _ => cases hdata'

/-- A buffer that leaks nothing against another one is no longer: the other would need more
bytes for a first dispatch. -/
private theorem NoLeak.length_le (h : NoLeak b b') (hb : b.length < 6) : b.length ≤ b'.length := by
  by_contra hlt
  let c : Chunk := ⟨List.replicate (6 - b.length) 0,
    List.ne_nil_of_length_pos (by rw [List.length_replicate]; omega),
    by rw [List.length_replicate]; unfold bufferSize; omega⟩
  have hlen : c.bytes.length = 6 - b.length := List.length_replicate
  have henough := enough_of_same (h [.success c]) (by rw [List.length_append]; omega)
  rw [List.length_append] at henough
  omega

private theorem length_headerTail_le (b : List UInt8) : (headerTail b).length ≤ b.length := by
  obtain ⟨j, hj, -⟩ := exists_headerless b
  have hlen := congrArg List.length hj
  rw [List.length_append] at hlen
  omega

/-- The tails are the same or both stuck, the one that is no longer being told apart first. -/
private theorem NoLeak.tails (h : NoLeak b b') (hb : b.length < 6) (hb' : b'.length < 6)
    (hle : (headerTail b').length ≤ (headerTail b).length) :
    headerTail b = headerTail b' ∨ Stuck (headerTail b) ∧ Stuck (headerTail b') := by
  by_cases hstuck' : Stuck (headerTail b')
  · by_cases hstuck : Stuck (headerTail b)
    · exact .inr ⟨hstuck, hstuck'⟩
    · have hfive := hstuck'.1
      have htail := length_headerTail_le b
      exact .inl (h.symm.headerTail_eq hb' hb hstuck (by omega)).symm
  · exact .inl (h.headerTail_eq hb hb' hstuck' hle)

/-- Of buffers shorter than a base part exactly alike ones leak nothing. -/
theorem noLeak_iff_alike (hb : b.length < 6) (hb' : b'.length < 6) :
    NoLeak b b' ↔ Alike b b' := by
  refine ⟨fun h ↦ ⟨Nat.le_antisymm (h.length_le hb) (h.symm.length_le hb'), ?_⟩,
    fun h ↦ h.noLeak hb hb'⟩
  rcases Nat.le_total (headerTail b').length (headerTail b).length with hle | hle
  · exact h.tails hb hb' hle
  · exact (h.symm.tails hb' hb hle).imp Eq.symm And.symm

/-! ### Runs -/

private theorem length_lt_of_run {fuel : Nat} {d : DrainState} {s : ReceiveState}
    (hq : d.queryMsg.isValid = true) (h : Loop.run drainBody fuel d = some s) :
    s.buffer.length < 6 := by
  induction fuel generalizing d with
  | zero => cases h
  | succ fuel ih =>
    rw [Loop.run] at h
    by_cases hshort : d.buffer.length < 6
    · rw [drainBody_of_short hshort] at h
      cases h
      exact hshort
    · obtain ⟨rest, o, hstep⟩ := packetStep_total d.buffer
      rw [drainBody_of_step hq (Nat.not_lt.mp hshort) hstep] at h
      exact ih (d := ⟨rest, returned d.queryMsg o, _⟩) (isValid_returned hq o) h

/-- At the top of its loop the receiver has less than a base part in its buffer. -/
theorem length_lt_of_receives {s s' : ReceiveState} {results : List QueryResult}
    (hs : s.buffer.length < 6) (h : Receives s results s') : s'.buffer.length < 6 := by
  obtain ⟨fuel, h⟩ := h
  refine Loop.foldlM_invariant (I := fun t ↦ t.buffer.length < 6) ?_ hs h
  intro t r t' ht hiteration
  cases r with
  | success c => exact length_lt_of_run DataMessage.isValid_new hiteration
  | timeout | disconnected | error =>
    cases hiteration
    exact ht

/-- Two runs that have received anything up to a reconnect dispatch the same of everything
received after it exactly when the bytes they have left are alike. -/
theorem noLeak_reconnect_iff {old old' : List QueryResult} {s s' : ReceiveState}
    (h : Receives ReceiveState.init old s) (h' : Receives ReceiveState.init old' s') :
    (∀ results, SameDispatches s.buffer s'.buffer results) ↔ Alike s.buffer s'.buffer := by
  have hinit : ReceiveState.init.buffer.length < 6 := by decide
  exact noLeak_iff_alike (length_lt_of_receives hinit h) (length_lt_of_receives hinit h')

/-- A read of one byte. -/
private def oneByte (x : UInt8) : QueryResult :=
  .success ⟨[x], nofun, (by decide : 1 ≤ bufferSize)⟩

private theorem receives_oneByte (x : UInt8) :
    Receives ReceiveState.init [oneByte x, .disconnected] ⟨[x], []⟩ := ⟨1, rfl⟩

/-- Connections lost after one byte that is no header byte. -/
theorem noLeak_reconnect_junk : NoLeak [1] [2] :=
  (noLeak_reconnect_iff (receives_oneByte 1) (receives_oneByte 2)).mpr ⟨rfl, .inl rfl⟩

/-- A connection lost after the first byte of a frame, against one lost before it. -/
theorem not_noLeak_reconnect_cut :
    Receives ReceiveState.init [oneByte 0xA5, .disconnected] ⟨[0xA5], []⟩ ∧
      Receives ReceiveState.init [.disconnected] ⟨[], []⟩ ∧
      ¬ ∀ results, SameDispatches [0xA5] [] results := by
  refine ⟨receives_oneByte 0xA5, ⟨0, rfl⟩, fun h ↦ ?_⟩
  have hlen := (noLeak_iff_alike (by decide) (by decide)).mp h
  cases hlen.1

end OctopusIpc.Client

import OctopusIpc.Client.Residue

/-!
# What the receive loop makes of any stream

Whatever bytes arrive and however they are split into reads, valid frames or not, each of
them is still in the buffer, or lies in a frame that was passed on, or was discarded in a piece
of one scan window in which no header stands. What is passed on besides the frames repeats the
last of them with group and id overwritten. A drain loop that does not come back repeats it
without end, so that the loop gets through what arrives exactly when it passes on only so much.
-/

namespace OctopusIpc.Client
open OctopusIpc.Protocol OctopusIpc.Socket

/-- A piece that may be discarded. -/
def Discarded (piece : List UInt8) : Prop :=
  piece.length ≤ maxScan ∧ ∀ i, ¬ HeaderAt piece i

/-- The frames, in order, with what was discarded between them. -/
abbrev StreamOf : List ValidMessage → List UInt8 → Prop :=
  Segments (fun m ↦ m.val.serializeMessage) Discarded

/-- The message whose group and id the next call overwrites if it extracts nothing. -/
def Repeats (ms : List ValidMessage) (q : DataMessage) : Prop :=
  q = DataMessage.new ∨ ∃ m ∈ ms.getLast?, q = m.val

/-- The notifications made of the frames, and those that repeat the last one or the empty
message with group and id overwritten. -/
inductive PassedOn : List ValidMessage → List (DataMessage × Nat) → Prop
  | nil : PassedOn [] []
  | frame {ms : List ValidMessage} {ns : List (DataMessage × Nat)} (h : PassedOn ms ns)
    (m : ValidMessage) : PassedOn (ms ++ [m]) (ns ++ [notification m.val])
  | repeated {ms : List ValidMessage} {ns : List (DataMessage × Nat)} (h : PassedOn ms ns)
    (q : DataMessage) (hq : Repeats ms q) : PassedOn ms (ns ++ [notification (resetQueryMsg q)])

/-- What has been received, taken apart into what was passed on, what was discarded, and what
is in the buffer. -/
def Accounted (arrived : List UInt8) (notified : List (DataMessage × Nat)) (buffer : List UInt8)
    (ms : List ValidMessage) : Prop :=
  PassedOn ms notified ∧ ∃ cut, StreamOf ms cut ∧ cut ++ buffer = arrived

variable {b rest arrived : List UInt8} {m : ValidMessage} {d : DrainState} {s s' : ReceiveState}
  {results : List QueryResult}

/-! ### What one call discards -/

/-- What stands in front of the first header, as far as the window reaches. -/
private theorem discarded_take {i : Nat} (hi : i ≤ maxScan) (h : ∀ j < i, ¬ HeaderAt b j) :
    Discarded (b.take i) := by
  refine ⟨Nat.le_trans (List.length_take_le i b) hi, fun j hj ↦ ?_⟩
  obtain ⟨h0, h1⟩ := hj
  have hlt : j < i := by
    have := (List.getElem?_eq_some_iff.mp h0).1
    rw [List.length_take] at this
    omega
  have hlt' : j + 1 < i := by
    have := (List.getElem?_eq_some_iff.mp h1).1
    rw [List.length_take] at this
    omega
  rw [List.getElem?_take_of_lt hlt] at h0
  rw [List.getElem?_take_of_lt hlt'] at h1
  exact h j hlt ⟨h0, h1⟩

private theorem discarded_nil : Discarded [] := by
  refine ⟨Nat.zero_le _, fun i hi ↦ ?_⟩
  cases hi.1

/-- A call that extracts nothing discards a piece in front of what it leaves. -/
theorem PacketStep.exists_discarded (h : PacketStep b rest none) :
    ∃ g, Discarded g ∧ g ++ rest = b := by
  cases h with
  | short => exact ⟨[], discarded_nil, rfl⟩
  | noHeader _ hj =>
    exact ⟨_, discarded_take (Nat.le_refl maxScan) hj, List.take_append_drop maxScan b⟩
  | cutBase i _ hi hf | incomplete i hi hf =>
    exact ⟨_, discarded_take (Nat.le_of_lt hi) hf.2, List.take_append_drop i b⟩

/-- A call that extracts a message discards a piece in front of its frame. -/
theorem PacketStep.exists_discarded_frame (h : PacketStep b rest (some m)) :
    ∃ g, Discarded g ∧ g ++ (m.val.serializeMessage ++ rest) = b := by
  cases h with
  | frame i m hi hf hm =>
    refine ⟨_, discarded_take (Nat.le_of_lt hi) hf.2, ?_⟩
    obtain ⟨s, hs⟩ := hm
    rw [← hs, ← DataMessage.length_serializeMessage, List.drop_left, hs, List.take_append_drop]

/-- Unless it leaves the buffer as it is, a call takes bytes away; a frame at the front whose
rest is missing is what it leaves. -/
theorem PacketStep.length_lt {o : Option ValidMessage} (h : PacketStep b rest o)
    (hb : 6 ≤ b.length) (hr : ¬ IncompleteFrame rest) : rest.length < b.length := by
  cases h with
  | short hs => omega
  | noHeader => rw [List.length_drop, maxScan]; omega
  | cutBase i _ _ _ hs => omega
  | incomplete i hi hf hs hl => exact absurd ⟨(headerAt_drop_zero b i).mpr hf.1, hs, hl⟩ hr
  | frame i m hi hf hm =>
    have hle := hm.length_le
    have hbase := m.val.base_le_length_serializeMessage
    rw [DataMessage.length_serializeMessage, List.length_drop] at hle
    rw [DataMessage.length_serializeMessage] at hbase
    rw [List.length_drop, List.length_drop]
    omega

/-! ### The rounds of the drain loop -/

/-- The invariant rule for the drain loop. -/
theorem drainWithin_invariant {I : DrainState → Prop}
    (step : ∀ d rest o, I d → d.queryMsg.isValid = true → 6 ≤ d.buffer.length →
      PacketStep d.buffer rest o →
      I ⟨rest, returned d.queryMsg o, d.notified ++ [notification (returned d.queryMsg o)]⟩)
    (fuel : Nat) (hd : I d) (hq : d.queryMsg.isValid = true) :
    match drainWithin fuel d with
    | .inl d' => I d' ∧ d'.queryMsg.isValid = true
    | .inr s => ∃ q, I ⟨s.buffer, q, s.notified⟩ := by
  induction fuel generalizing d with
  | zero => exact ⟨hd, hq⟩
  | succ fuel ih =>
    rw [drainWithin]
    by_cases hshort : d.buffer.length < 6
    · rw [drainBody_of_short hshort]
      exact ⟨d.queryMsg, hd⟩
    · obtain ⟨rest, o, hstep⟩ := packetStep_total d.buffer
      rw [drainBody_of_step hq (Nat.not_lt.mp hshort) hstep]
      exact ih (step d rest o hd hq (Nat.not_lt.mp hshort) hstep) (isValid_returned hq o)

/-- The account while the drain loop runs, and the message in its hand. -/
private def DrainAccount (arrived : List UInt8) (d : DrainState) : Prop :=
  ∃ ms, Accounted arrived d.notified d.buffer ms ∧
    ∃ q, Repeats ms q ∧ resetQueryMsg d.queryMsg = resetQueryMsg q

private theorem DrainAccount.step {o : Option ValidMessage} (h : DrainAccount arrived d)
    (hs : PacketStep d.buffer rest o) :
    DrainAccount arrived
      ⟨rest, returned d.queryMsg o, d.notified ++ [notification (returned d.queryMsg o)]⟩ := by
  obtain ⟨ms, ⟨hpassed, cut, hcut, harrived⟩, q, hq, hreset⟩ := h
  cases o with
  | none =>
    obtain ⟨g, hg, hbuffer⟩ := hs.exists_discarded
    have hreturned : returned d.queryMsg none = resetQueryMsg q := hreset
    refine ⟨ms, ⟨?_, cut ++ g, hcut.gap hg, ?_⟩, q, hq, hreset⟩
    · rw [hreturned]
      exact hpassed.repeated q hq
    · rw [List.append_assoc, hbuffer, harrived]
  | some m =>
    obtain ⟨g, hg, hbuffer⟩ := hs.exists_discarded_frame
    refine ⟨ms ++ [m], ⟨hpassed.frame m, _, (hcut.gap hg).item m, ?_⟩, m.val, ?_, rfl⟩
    · rw [List.append_assoc, List.append_assoc, hbuffer, harrived]
    · exact .inr ⟨m, List.getLast?_concat, rfl⟩

/-- A read leaves an account of all that has arrived, in the loop or out of it. -/
private theorem accounted_drainWithin (fuel : Nat) (c : Chunk) {ms : List ValidMessage}
    (h : Accounted arrived s.notified s.buffer ms) :
    match drainWithin fuel ⟨s.buffer ++ c.bytes, DataMessage.new, s.notified⟩ with
    | .inl d => ∃ ms, Accounted (arrived ++ c.bytes) d.notified d.buffer ms
    | .inr t => ∃ ms, Accounted (arrived ++ c.bytes) t.notified t.buffer ms := by
  obtain ⟨hpassed, cut, hcut, harrived⟩ := h
  have hstart : DrainAccount (arrived ++ c.bytes)
      ⟨s.buffer ++ c.bytes, DataMessage.new, s.notified⟩ := by
    refine ⟨ms, ⟨hpassed, cut, hcut, ?_⟩, DataMessage.new, .inl rfl, rfl⟩
    rw [← List.append_assoc, harrived]
  have hrounds := drainWithin_invariant (I := DrainAccount (arrived ++ c.bytes))
    (fun _ _ _ hd _ _ hs ↦ hd.step hs) fuel hstart DataMessage.isValid_new
  cases hd : drainWithin fuel ⟨s.buffer ++ c.bytes, DataMessage.new, s.notified⟩ with
  | inl d =>
    rw [hd] at hrounds
    obtain ⟨⟨ms', haccount, -⟩, -⟩ := hrounds
    exact ⟨ms', haccount⟩
  | inr t =>
    rw [hd] at hrounds
    obtain ⟨q, ms', haccount, -⟩ := hrounds
    exact ⟨ms', haccount⟩

/-! ### The whole run -/

private theorem accounted_init :
    Accounted [] ReceiveState.init.notified ReceiveState.init.buffer [] :=
  ⟨.nil, [], .nil, rfl⟩

private theorem exists_accounted_dispatched (fuel : Nat) {ms : List ValidMessage}
    (h : Accounted arrived s.notified s.buffer ms) :
    ∃ ms' cut, PassedOn ms' (dispatched fuel s results) ∧ StreamOf ms' cut ∧
      cut <+: arrived ++ received results := by
  induction results generalizing s arrived ms with
  | nil =>
    obtain ⟨hpassed, cut, hcut, harrived⟩ := h
    refine ⟨ms, cut, hpassed, hcut, s.buffer, ?_⟩
    rw [received_nil, List.append_nil, harrived]
  | cons r results ih =>
    have hcons (r : QueryResult) : arrived ++ received (r :: results) =
        (arrived ++ r.data) ++ received results := by
      rw [List.append_assoc]
      rfl
    cases r with
    | success c =>
      have hread := accounted_drainWithin fuel c h
      rw [dispatched, hcons]
      cases hd : drainWithin fuel ⟨s.buffer ++ c.bytes, DataMessage.new, s.notified⟩ with
      | inl d =>
        rw [hd] at hread
        obtain ⟨ms', hpassed, cut, hcut, harrived⟩ := hread
        refine ⟨ms', cut, hpassed, hcut, d.buffer ++ received results, ?_⟩
        rw [← List.append_assoc, harrived]
        rfl
      | inr t =>
        rw [hd] at hread
        obtain ⟨ms', haccount⟩ := hread
        exact ih haccount
    | timeout | disconnected | error => exact ih h

/-- A loop that is left has passed on at most one message for each byte it took. -/
private theorem length_of_run {fuel : Nat} (hq : d.queryMsg.isValid = true)
    (h : Loop.run drainBody fuel d = some s) :
    s.notified.length + s.buffer.length ≤ d.notified.length + d.buffer.length := by
  induction fuel generalizing d with
  | zero => cases h
  | succ fuel ih =>
    rw [Loop.run] at h
    by_cases hshort : d.buffer.length < 6
    · rw [drainBody_of_short hshort] at h
      cases h
      exact Nat.le_refl _
    · obtain ⟨rest, o, hstep⟩ := packetStep_total d.buffer
      rw [drainBody_of_step hq (Nat.not_lt.mp hshort) hstep] at h
      have hvalid := isValid_returned hq o
      have hcomes : ¬ IncompleteFrame rest := fun hrest ↦ hrest.not_halts rfl hvalid ⟨s, fuel, h⟩
      have hless := hstep.length_lt (Nat.not_lt.mp hshort) hcomes
      have hrounds := ih (d := ⟨rest, returned d.queryMsg o, _⟩) hvalid h
      simp only [List.length_append, List.length_singleton] at hrounds
      omega

private theorem accounted_of_run {fuel : Nat} {c : Chunk} {ms : List ValidMessage}
    (h : Accounted arrived s.notified s.buffer ms)
    (hr : Loop.run drainBody fuel ⟨s.buffer ++ c.bytes, DataMessage.new, s.notified⟩ = some s') :
    ∃ ms', Accounted (arrived ++ c.bytes) s'.notified s'.buffer ms' := by
  have hread := accounted_drainWithin fuel c h
  rw [drainWithin_of_run hr] at hread
  exact hread

private theorem accounted_of_receives {fuel : Nat} {ms : List ValidMessage}
    (h : Accounted arrived s.notified s.buffer ms)
    (hr : ipcReceiveResponseLoop fuel s results = some s') :
    (∃ ms', Accounted (arrived ++ received results) s'.notified s'.buffer ms') ∧
      s'.notified.length + s'.buffer.length ≤
        s.notified.length + s.buffer.length + (received results).length := by
  induction results generalizing s arrived ms with
  | nil =>
    cases hr
    exact ⟨⟨ms, by rw [received_nil, List.append_nil]; exact h⟩, Nat.le_refl _⟩
  | cons r results ih =>
    rw [ipcReceiveResponseLoop, List.foldlM_cons] at hr
    obtain ⟨t, ht, hrest⟩ := Option.bind_eq_some_iff.mp hr
    have hcons : received (r :: results) = r.data ++ received results := rfl
    rw [hcons, ← List.append_assoc, List.length_append]
    cases r with
    | success c =>
      obtain ⟨ms', haccount⟩ := accounted_of_run h ht
      obtain ⟨hend, hbound⟩ := ih haccount hrest
      have hread := length_of_run DataMessage.isValid_new ht
      simp only [List.length_append] at hread
      refine ⟨hend, ?_⟩
      simp only [QueryResult.data]
      omega
    | timeout | disconnected | error =>
      cases ht
      have hsame : Accounted (arrived ++ []) s.notified s.buffer ms := by
        rw [List.append_nil]
        exact h
      obtain ⟨hend, hbound⟩ := ih hsame hrest
      exact ⟨hend, by simpa [QueryResult.data] using hbound⟩

/-- What was passed on when a number of rounds have been run stays passed on. -/
private theorem drainWithin_add (n k : Nat) (d : DrainState) :
    drainWithin (n + k) d =
      match drainWithin n d with
      | .inl d' => drainWithin k d'
      | .inr s => .inr s := by
  induction n generalizing d with
  | zero => rw [Nat.zero_add, drainWithin]
  | succ n ih =>
    rw [Nat.add_right_comm, drainWithin, drainWithin]
    cases drainBody d with
    | inl d' => exact ih d'
    | inr s => rfl

private theorem notified_prefix_drainWithin (fuel : Nat) (hq : d.queryMsg.isValid = true) :
    match drainWithin fuel d with
    | .inl d' => d.notified <+: d'.notified ∧ d'.queryMsg.isValid = true
    | .inr s => d.notified <+: s.notified := by
  have hrounds := drainWithin_invariant (I := fun d' ↦ d.notified <+: d'.notified)
    (fun _ _ _ hd _ _ _ ↦ hd.trans (List.prefix_append _ _)) fuel (List.prefix_refl _) hq
  cases hd : drainWithin fuel d with
  | inl d' =>
    rw [hd] at hrounds
    exact hrounds
  | inr s =>
    rw [hd] at hrounds
    exact hrounds.elim fun _ h ↦ h

private theorem notified_prefix_dispatched (fuel : Nat) (s : ReceiveState)
    (results : List QueryResult) : s.notified <+: dispatched fuel s results := by
  induction results generalizing s with
  | nil => exact List.prefix_refl _
  | cons r results ih =>
    cases r with
    | success c =>
      have hread := notified_prefix_drainWithin fuel
        (d := ⟨s.buffer ++ c.bytes, DataMessage.new, s.notified⟩) DataMessage.isValid_new
      rw [dispatched]
      cases hd : drainWithin fuel ⟨s.buffer ++ c.bytes, DataMessage.new, s.notified⟩ with
      | inl d =>
        rw [hd] at hread
        exact hread.1
      | inr t =>
        rw [hd] at hread
        exact List.IsPrefix.trans hread (ih t)
    | timeout | disconnected | error => exact ih s

/-- More rounds pass on the same and perhaps more. -/
theorem dispatched_mono {fuel fuel' : Nat} (hf : fuel ≤ fuel') (s : ReceiveState)
    (results : List QueryResult) : dispatched fuel s results <+: dispatched fuel' s results := by
  obtain ⟨k, rfl⟩ := Nat.exists_eq_add_of_le hf
  induction results generalizing s with
  | nil => exact List.prefix_refl _
  | cons r results ih =>
    cases r with
    | success c =>
      have hstart := notified_prefix_drainWithin fuel
        (d := ⟨s.buffer ++ c.bytes, DataMessage.new, s.notified⟩) DataMessage.isValid_new
      rw [dispatched, dispatched, drainWithin_add]
      cases hd : drainWithin fuel ⟨s.buffer ++ c.bytes, DataMessage.new, s.notified⟩ with
      | inr t => exact ih t
      | inl d =>
        rw [hd] at hstart
        have hmore := notified_prefix_drainWithin k (d := d) hstart.2
        dsimp only
        cases hd' : drainWithin k d with
        | inl d' =>
          rw [hd'] at hmore
          exact hmore.1
        | inr t =>
          rw [hd'] at hmore
          exact List.IsPrefix.trans hmore (notified_prefix_dispatched (fuel + k) t results)
    | timeout | disconnected | error => exact ih s

/-- A loop that is never left passes on one message in each round. -/
private theorem length_of_not_halts (hq : d.queryMsg.isValid = true)
    (h : ¬ Loop.Halts drainBody d) (fuel : Nat) :
    ∃ d', drainWithin fuel d = .inl d' ∧ d'.notified.length = d.notified.length + fuel := by
  induction fuel generalizing d with
  | zero => exact ⟨d, rfl, rfl⟩
  | succ fuel ih =>
    by_cases hshort : d.buffer.length < 6
    · exact absurd (Loop.halts_of_leave (drainBody_of_short hshort)) h
    · obtain ⟨rest, o, hstep⟩ := packetStep_total d.buffer
      have hbody := drainBody_of_step hq (Nat.not_lt.mp hshort) hstep
      obtain ⟨d', hd', hlen⟩ :=
        ih (isValid_returned hq o) fun hh ↦ h ((Loop.halts_iff_of_next hbody).mpr hh)
      refine ⟨d', ?_, ?_⟩
      · rw [drainWithin, hbody]
        exact hd'
      · rw [hlen, List.length_append, List.length_singleton]
        omega

/-- One result, and then the others. -/
private theorem receives_cons {fuel : Nat} {t : ReceiveState} {r : QueryResult}
    (ht : receiveIteration fuel s r = some t) (h : Receives t results s') :
    Receives s (r :: results) s' := by
  obtain ⟨fuel', h⟩ := h
  have hfirst : ipcReceiveResponseLoop fuel s [r] = some t := by
    rw [ipcReceiveResponseLoop, List.foldlM_cons, ht]
    rfl
  have hfirst' := ipcReceiveResponseLoop_mono (Nat.le_max_left fuel fuel') hfirst
  refine ⟨max fuel fuel', ?_⟩
  have hsplit : r :: results = [r] ++ results := rfl
  rw [ipcReceiveResponseLoop, hsplit, List.foldlM_append]
  exact Option.bind_eq_some_iff.mpr
    ⟨t, hfirst', ipcReceiveResponseLoop_mono (Nat.le_max_right fuel fuel') h⟩

private theorem floods_of_not_receives (h : ¬ ∃ s', Receives s results s') (n : Nat) :
    ∃ fuel, n ≤ (dispatched fuel s results).length := by
  induction results generalizing s with
  | nil => exact absurd ⟨s, receives_nil s⟩ h
  | cons r results ih =>
    cases r with
    | success c =>
      by_cases hhalts : Loop.Halts drainBody ⟨s.buffer ++ c.bytes, DataMessage.new, s.notified⟩
      · obtain ⟨t, fuel, hrun⟩ := hhalts
        obtain ⟨fuel', hn⟩ := ih (s := t) fun ⟨s', hs'⟩ ↦
          h ⟨s', receives_cons (r := .success c) hrun hs'⟩
        refine ⟨max fuel fuel', ?_⟩
        rw [dispatched, drainWithin_of_run (Loop.run_mono (Nat.le_max_left _ _) hrun)]
        exact Nat.le_trans hn (dispatched_mono (Nat.le_max_right _ _) t results).length_le
      · obtain ⟨d, hd, hlen⟩ := length_of_not_halts DataMessage.isValid_new hhalts n
        refine ⟨n, ?_⟩
        rw [dispatched, hd]
        exact Nat.le_trans (Nat.le_add_left _ _) (Nat.le_of_eq hlen.symm)
    | timeout | disconnected | error =>
      refine ih fun ⟨s', hs'⟩ ↦ h ⟨s', ?_⟩
      exact receives_cons (show receiveIteration 0 s _ = some s from rfl) hs'

/-- For any results of its reads, the client gets back to the top of its loop exactly when the
number of messages it passes on is bounded: it never just stops, it floods its callbacks. -/
theorem receives_iff_dispatched_bounded (results : List QueryResult) :
    (∃ s, Receives ReceiveState.init results s) ↔
      ∃ n, ∀ fuel, (dispatched fuel ReceiveState.init results).length ≤ n := by
  constructor
  · rintro ⟨s, fuel, hrun⟩
    refine ⟨s.notified.length, fun fuel' ↦ ?_⟩
    have hmore := dispatched_mono (Nat.le_max_left fuel' fuel) ReceiveState.init results
    have hloop := ipcReceiveResponseLoop_mono (Nat.le_max_right fuel' fuel) hrun
    rw [dispatched_of_loop hloop] at hmore
    exact hmore.length_le
  · rintro ⟨n, hn⟩
    by_contra h
    obtain ⟨fuel, hfuel⟩ := floods_of_not_receives h (n + 1)
    exact absurd (hn fuel) (Nat.not_le.mpr hfuel)

end OctopusIpc.Client

import OctopusIpc.Server.Descriptors

/-!
# The registry while descriptor numbers are reused

A handler thread closes its descriptor before it removes its record. In between the kernel
may hand the number out again, and then adding the new connection changes nothing, because a
record with its number is present, and the removal that follows takes the record away. The
registry is accurate in all runs in which no connection is added at such a moment.
-/

namespace OctopusIpc.Server.Process

variable {s s' : Process}

/-- Every connection that was added and not closed yet has exactly one record under its
number, and it is the one it should have. -/
def RegistryAccurate (s : Process) : Prop :=
  ∀ c, (s.conns c).phase.stage = .serving →
    s.clients.elems.filter (fun r ↦ r.fd = (s.conns c).fd) = [(s.conns c).expected]

/-- No connection is added while the handler of an earlier one with its number is between
closing it and removing its record, and no sender fails in the way that closes. -/
def AddsApart (s : Process) (a : Action) : Prop :=
  s.NoClosingFailure a ∧
    match a with
    | .addClient c => ∀ k, (s.conns k).phase.stage = .closed → (s.conns k).fd ≠ (s.conns c).fd
    | _ => True

private theorem expected_setPhase (s : Process) (c k : Nat) (phase : Phase) :
    ((s.setPhase c phase).conns k).expected = (s.conns k).expected := by
  rw [setPhase_conns]
  by_cases h : k = c
  · rw [if_pos h, h]
  · rw [if_neg h]

private theorem expected_setSender (r : Sender) (t : Thread) (o : Option SendPc) (k : Nat) :
    ((s.setSender r t o).conns k).expected = (s.conns k).expected := by
  cases t with
  | handler c => cases o <;> exact expected_setPhase ..
  | push p => cases o <;> rfl

private theorem expected_closeNumber (owner : Nat) (fd : Int) (k : Nat) :
    ((s.closeNumber owner fd).conns k).expected = (s.conns k).expected := by
  simp only [closeNumber, Function.update_apply]
  split <;> simp only [*]

/-- The record a connection should have is the one it was added with, changed by the
configuration commands on its number since. -/
theorem expected_apply {a : Action} (he : s.Enabled a) {k : Nat}
    (hk : (s.conns k).phase.stage = .serving) :
    ((s.apply a).conns k).expected =
      match a with
      | .configure _ fd u =>
        if (s.conns k).fd = fd then u.onRecord (s.conns k).expected else (s.conns k).expected
      | _ => (s.conns k).expected := by
  have hne (c : Nat) (hc : (s.conns c).phase = .absent ∨ (s.conns c).phase = .accepted) :
      k ≠ c := by
    rintro rfl
    rcases hc with hc | hc <;> rw [hc] at hk <;> cases hk
  cases a with
  | accept c fd => simp only [apply, Function.update_of_ne (hne c (Or.inl he.1))]
  | addClient c => simp only [apply, Function.update_of_ne (hne c (Or.inr he))]
  | configure c fd u =>
    simp only [apply]
    split <;> rfl
  | closeFailed t =>
    obtain ⟨r, hr, -⟩ := he
    simp only [apply, Option.mem_def.mp hr, expected_setSender, expected_closeNumber]
  | close c => exact (expected_setPhase ..).trans (expected_closeNumber ..)
  | remove c => exact expected_setPhase s c k .gone
  | poll c outcome => exact (sameView_of_internal (a := .poll c outcome) trivial he).expected k
  | read c ok => exact (sameView_of_internal (a := .read c ok) trivial he).expected k
  | send c kind => exact (sameView_of_internal (a := .send c kind) trivial he).expected k
  | next c => exact (sameView_of_internal (a := .next c) trivial he).expected k
  | visit p fd => exact (sameView_of_internal (a := .visit p fd) trivial he).expected k
  | lock t => exact (sameView_of_internal (a := .lock t) trivial he).expected k
  | write t outcome => exact (sameView_of_internal (a := .write t outcome) trivial he).expected k

/-- What runs keep in which connections are added apart from such moments. -/
structure Recorded (s : Process) : Prop where
  recorded : ∀ c, (s.conns c).phase.stage = .serving →
    s.clients.find? (s.conns c).fd = some (s.conns c).expected
  known : ∀ fd r, s.clients.find? fd = some r → ∃ c, (s.conns c).fd = fd ∧
    ((s.conns c).phase.stage = .serving ∨ (s.conns c).phase.stage = .closed)
  apart : ∀ c c', (s.conns c).phase.stage = .closed → (s.conns c').phase.stage = .serving →
    (s.conns c).fd ≠ (s.conns c').fd

theorem recorded_init : Recorded init :=
  ⟨fun _ h ↦ (nomatch h), fun _ _ h ↦ (nomatch h), fun _ _ h ↦ (nomatch h)⟩

private theorem Recorded.of_sameView (h : Recorded s) (hv : SameView s s') : Recorded s' where
  recorded c hc := by
    rw [hv.stage] at hc
    rw [hv.clients, hv.fd, hv.expected]
    exact h.recorded c hc
  known fd r hr := by
    rw [hv.clients] at hr
    obtain ⟨c, hf, hs⟩ := h.known fd r hr
    exact ⟨c, by rw [hv.fd, hf], by rwa [hv.stage]⟩
  apart c c' hc hc' := by
    rw [hv.stage] at hc hc'
    rw [hv.fd, hv.fd]
    exact h.apart c c' hc hc'

/-- One connection changes, to `x`. -/
private theorem Recorded.of_conn (h : Recorded s) {c : Nat} {x : Connection}
    (hc : s'.conns = Function.update s.conns c x)
    (hrecord : x.phase.stage = .serving → s'.clients.find? x.fd = some x.expected)
    (hkeep : ∀ k, k ≠ c → (s.conns k).phase.stage = .serving →
      s'.clients.find? (s.conns k).fd = s.clients.find? (s.conns k).fd)
    (hknown : ∀ fd r, s'.clients.find? fd = some r →
      x.fd = fd ∧ (x.phase.stage = .serving ∨ x.phase.stage = .closed) ∨
      ∃ k, k ≠ c ∧ (s.conns k).fd = fd ∧
        ((s.conns k).phase.stage = .serving ∨ (s.conns k).phase.stage = .closed))
    (hclosed : x.phase.stage = .closed →
      ∀ k, k ≠ c → (s.conns k).phase.stage = .serving → x.fd ≠ (s.conns k).fd)
    (hserving : x.phase.stage = .serving →
      ∀ k, k ≠ c → (s.conns k).phase.stage = .closed → (s.conns k).fd ≠ x.fd) :
    Recorded s' := by
  have hself : s'.conns c = x := by rw [hc, Function.update_self]
  have hother (k : Nat) (hk : k ≠ c) : s'.conns k = s.conns k := by
    rw [hc, Function.update_of_ne hk]
  refine ⟨fun k hk ↦ ?_, fun fd r hr ↦ ?_, fun k k' hk hk' ↦ ?_⟩
  · by_cases he : k = c
    · subst he
      rw [hself] at hk ⊢
      exact hrecord hk
    · rw [hother k he] at hk ⊢
      rw [hkeep k he hk]
      exact h.recorded k hk
  · rcases hknown fd r hr with hx | ⟨k, he, hk⟩
    · exact ⟨c, by rwa [hself]⟩
    · exact ⟨k, by rwa [hother k he]⟩
  · by_cases he : k = c <;> by_cases he' : k' = c
    · subst he he'
      rw [hk] at hk'
      cases hk'
    · subst he
      rw [hself] at hk ⊢
      rw [hother k' he'] at hk' ⊢
      exact hclosed hk k' he' hk'
    · subst he'
      rw [hself] at hk' ⊢
      rw [hother k he] at hk ⊢
      exact hserving hk' k he hk
    · rw [hother k he] at hk ⊢
      rw [hother k' he'] at hk' ⊢
      exact h.apart k k' hk hk'

/-- A record belongs to a connection other than one that has no record. -/
private theorem Recorded.known_ne (h : Recorded s) {c : Nat}
    (hc : ¬ ((s.conns c).phase.stage = .serving ∨ (s.conns c).phase.stage = .closed))
    {fd : Int} {r : ClientInfo} (hr : s.clients.find? fd = some r) :
    ∃ k, k ≠ c ∧ (s.conns k).fd = fd ∧
      ((s.conns k).phase.stage = .serving ∨ (s.conns k).phase.stage = .closed) := by
  obtain ⟨k, hf, hs⟩ := h.known fd r hr
  refine ⟨k, ?_, hf, hs⟩
  rintro rfl
  exact hc hs

private theorem Recorded.accept (h : Recorded s) {c : Nat} {fd : Int}
    (he : s.Enabled (.accept c fd)) : Recorded (s.apply (.accept c fd)) := by
  have hphase : (s.conns c).phase = .absent := he.1
  refine h.of_conn rfl (fun hx ↦ nomatch hx) (fun _ _ _ ↦ rfl) (fun fd' r hr ↦ ?_)
    (fun hx ↦ nomatch hx) (fun hx ↦ nomatch hx)
  exact Or.inr (h.known_ne (by rw [hphase]; decide) hr)

private theorem Recorded.addClient (h : Recorded s) (hc : Coherent s) {c : Nat}
    (hg : s.AddsApart (.addClient c)) (he : s.Enabled (.addClient c)) :
    Recorded (s.apply (.addClient c)) := by
  have hphase : (s.conns c).phase = .accepted := he
  have hapart (k : Nat) (hk : k ≠ c) (hs : (s.conns k).phase.stage = .serving) :
      (s.conns c).fd ≠ (s.conns k).fd := fun hf ↦
    hk (hc.eq_of_fd_eq (by rw [hs]; rfl) (by rw [hphase]; rfl) hf.symm)
  have hfree : s.clients.find? (s.conns c).fd = none := by
    refine Option.eq_none_iff_forall_ne_some.mpr fun r hr ↦ ?_
    obtain ⟨k, hk, hf, hs | hs⟩ := h.known_ne (by rw [hphase]; decide) hr
    · exact hapart k hk hs hf.symm
    · exact hg.2 k hs hf
  have hfind (fd : Int) : (s.apply (.addClient c)).clients.find? fd =
      if (s.conns c).fd = fd ∧ s.clients.find? fd = none then some ⟨(s.conns c).fd, true, []⟩
      else s.clients.find? fd := find?_ipcServerAddClient ..
  refine h.of_conn rfl (fun _ ↦ ?_) (fun k hk hs ↦ ?_) (fun fd r hr ↦ ?_)
    (fun hx ↦ nomatch hx) (fun _ k _ hs ↦ hg.2 k hs)
  · rw [hfind, if_pos ⟨rfl, hfree⟩]
  · rw [hfind, if_neg fun hx ↦ hapart k hk hs hx.1]
  · rw [hfind] at hr
    split at hr
    · next hx => exact Or.inl ⟨hx.1, Or.inl rfl⟩
    · exact Or.inr (h.known_ne (by rw [hphase]; decide) hr)

private theorem Recorded.configure (h : Recorded s) (c : Nat) (fd : Int) (u : Update) :
    Recorded (s.apply (.configure c fd u)) := by
  have hconn (k : Nat) : (s.apply (.configure c fd u)).conns k =
      if (s.conns k).fd = fd then
        { s.conns k with expected := u.onRecord (s.conns k).expected } else s.conns k := rfl
  have hfd (k : Nat) : ((s.apply (.configure c fd u)).conns k).fd = (s.conns k).fd := by
    rw [hconn]
    split <;> rfl
  have hstage (k : Nat) : ((s.apply (.configure c fd u)).conns k).phase.stage =
      (s.conns k).phase.stage := by
    rw [hconn]
    split <;> rfl
  have hfind (k : Int) : (s.apply (.configure c fd u)).clients.find? k =
      if fd = k then (s.clients.find? k).map u.onRecord else s.clients.find? k :=
    find?_onClients ..
  refine ⟨fun k hk ↦ ?_, fun fd' r hr ↦ ?_, fun k k' hk hk' ↦ ?_⟩
  · rw [hstage] at hk
    rw [hfd, hfind, h.recorded k hk, hconn]
    by_cases hf : fd = (s.conns k).fd
    · rw [if_pos hf, if_pos hf.symm, Option.map_some]
    · rw [if_neg hf, if_neg (Ne.symm hf)]
  · have hold : ∃ r, s.clients.find? fd' = some r := by
      rw [hfind] at hr
      split at hr
      · obtain ⟨r', hr', -⟩ := Option.map_eq_some_iff.mp hr
        exact ⟨r', hr'⟩
      · exact ⟨r, hr⟩
    obtain ⟨r', hr'⟩ := hold
    obtain ⟨k, hf, hs⟩ := h.known fd' r' hr'
    exact ⟨k, by rw [hfd, hf], by rwa [hstage]⟩
  · rw [hstage] at hk hk'
    rw [hfd, hfd]
    exact h.apart k k' hk hk'

private theorem Recorded.close (h : Recorded s) (hc : Coherent s) {c : Nat}
    (he : s.Enabled (.close c)) : Recorded (s.apply (.close c)) := by
  have hphase : (s.conns c).phase = .ending := he
  have hconns : (s.apply (.close c)).conns = Function.update s.conns c
      { s.conns c with phase := .closed, closes := (s.conns c).closes + 1 } := by
    simp only [apply, setPhase, closeNumber, Function.update_self, Function.update_idem]
  refine h.of_conn hconns (fun hx ↦ by cases hx) (fun _ _ _ ↦ rfl) (fun fd r hr ↦ ?_)
    (fun _ k hk hs hf ↦ ?_) (fun hx ↦ by cases hx)
  · obtain ⟨k, hf, hs⟩ := h.known fd r hr
    by_cases hk : k = c
    · subst hk
      exact Or.inl ⟨hf, Or.inr rfl⟩
    · exact Or.inr ⟨k, hk, hf, hs⟩
  · exact hk (hc.eq_of_fd_eq (by rw [hs]; rfl) (by rw [hphase]; rfl) hf.symm)

private theorem Recorded.remove (h : Recorded s) {c : Nat} (he : s.Enabled (.remove c)) :
    Recorded (s.apply (.remove c)) := by
  have hphase : (s.conns c).phase.stage = .closed := by
    rw [show (s.conns c).phase = _ from he]
    rfl
  have hfind (fd : Int) : (s.apply (.remove c)).clients.find? fd =
      if (s.conns c).fd = fd then none else s.clients.find? fd := find?_ipcServerRemoveClient ..
  refine h.of_conn rfl (fun hx ↦ by cases hx) (fun k _ hs ↦ ?_) (fun fd r hr ↦ ?_)
    (fun hx ↦ by cases hx) (fun hx ↦ by cases hx)
  · rw [hfind, if_neg (h.apart c k hphase hs)]
  · rw [hfind] at hr
    split at hr
    · cases hr
    · next hne =>
      obtain ⟨k, hf, hs⟩ := h.known fd r hr
      exact Or.inr ⟨k, by rintro rfl; exact hne hf, hf, hs⟩

/-- Adding connections apart from such moments keeps the records in order. -/
theorem Recorded.step (h : Recorded s) (hn : NoClosing s) (hc : Coherent s) {a : Action}
    (hg : s.AddsApart a) (he : s.Enabled a) : Recorded (s.apply a) := by
  cases a with
  | accept c fd => exact h.accept he
  | addClient c => exact h.addClient hc hg he
  | configure c fd u => exact h.configure c fd u
  | closeFailed t =>
    obtain ⟨r, hr, hp⟩ := he
    exact absurd hp (hn.sender hr)
  | close c => exact h.close hc he
  | remove c => exact h.remove he
  | poll c outcome => exact h.of_sameView (sameView_of_internal trivial he)
  | read c ok => exact h.of_sameView (sameView_of_internal trivial he)
  | send c kind => exact h.of_sameView (sameView_of_internal trivial he)
  | next c => exact h.of_sameView (sameView_of_internal trivial he)
  | visit p fd => exact h.of_sameView (sameView_of_internal trivial he)
  | lock t => exact h.of_sameView (sameView_of_internal trivial he)
  | write t outcome => exact h.of_sameView (sameView_of_internal trivial he)

theorem Recorded.accurate (h : Recorded s) : RegistryAccurate s := by
  intro c hc
  rw [KeyedSet.filter_key_eq_toList, h.recorded c hc]
  rfl

/-- In every run in which writes do not fail and no connection is added while the handler of
an earlier one with its number is between its close and its removal, the registry is
accurate in every state. -/
theorem registryAccurate_of_addsApart (h : system.ReachableUnder AddsApart s) :
    RegistryAccurate s := by
  have hinv : (NoClosing s ∧ Coherent s) ∧ Recorded s := by
    refine StepSystem.ReachableUnder.invariant_of_commands
      (I := fun t ↦ (NoClosing t ∧ Coherent t) ∧ Recorded t)
      ⟨⟨owned_init.noClosing, coherent_init⟩, recorded_init⟩ (fun t a ht hg he ↦ ?_) h
    obtain ⟨⟨hn, hc⟩, hr⟩ := ht
    exact ⟨⟨hn.step hg.1 he, hc.step hn he⟩, hr.step hn hc hg he⟩
  exact hinv.2.accurate

/-- Connection 0 is cleaned up. Connection 2 gets its number, which connection 1 unsubscribes. -/
def removedBefore : List Action :=
  [.accept 0 5, .addClient 0, .accept 1 6, .addClient 1, .poll 0 .hangup, .close 0, .remove 0,
    .accept 2 5, .addClient 2, .poll 1 .readable, .read 1 true, .configure 1 5 (.flag false)]

theorem registryAccurate_removedBefore :
    let t := removedBefore.foldl apply init
    t.clients.elems = [⟨5, false, []⟩, ⟨6, true, []⟩] ∧ RegistryAccurate t := by
  have hinit : system.ReachableUnder AddsApart init := StepSystem.ReachableUnder.init
  have h0 : system.ReachableUnder AddsApart ((removedBefore.take 2).foldl apply init) :=
    (hinit.command (.accept 0 5) ⟨trivial, trivial⟩ (by decide)).command (.addClient 0)
      ⟨trivial, fun k hk ↦ match k, hk with
        | 0, hk => nomatch hk
        | k + 1, hk => nomatch hk⟩ (by decide)
  have h1 : system.ReachableUnder AddsApart ((removedBefore.take 4).foldl apply init) :=
    (h0.command (.accept 1 6) ⟨trivial, trivial⟩ (by decide)).command (.addClient 1)
      ⟨trivial, fun k hk ↦ match k, hk with
        | 0, hk => nomatch hk
        | 1, hk => nomatch hk
        | k + 2, hk => nomatch hk⟩ (by decide)
  have hremoved : system.ReachableUnder AddsApart ((removedBefore.take 7).foldl apply init) :=
    ((h1.command (.poll 0 .hangup) ⟨trivial, trivial⟩ (by decide)).command (.close 0)
      ⟨trivial, trivial⟩ (by decide)).command (.remove 0) ⟨trivial, trivial⟩ (by decide)
  have hreused : system.ReachableUnder AddsApart ((removedBefore.take 9).foldl apply init) :=
    (hremoved.command (.accept 2 5) ⟨trivial, trivial⟩ (by decide)).command (.addClient 2)
      ⟨trivial, fun k hk ↦ match k, hk with
        | 0, hk => nomatch hk
        | 1, hk => nomatch hk
        | 2, hk => nomatch hk
        | k + 3, hk => nomatch hk⟩ (by decide)
  exact ⟨by decide, registryAccurate_of_addsApart (((hreused.command (.poll 1 .readable)
    ⟨trivial, trivial⟩ (by decide)).command (.read 1 true) ⟨trivial, trivial⟩ (by decide)).command
      (.configure 1 5 (.flag false)) ⟨trivial, trivial⟩ (by decide))⟩

/-- Connection 1 gets the number of connection 0 and is added before the record of
connection 0 is removed. -/
def addedBetween : List Action :=
  [.accept 0 5, .addClient 0, .poll 0 .hangup, .close 0, .accept 1 5, .addClient 1, .remove 0]

/-- A connection in service has no record. -/
theorem not_registryAccurate_addedBetween :
    ∃ t : Process, system.Reachable t ∧ ¬ RegistryAccurate t := by
  have hrun : ∃ t, system.run (fun _ _ ↦ True) init addedBetween = some t ∧
      (t.conns 1).phase = .atTop ∧ t.clients.elems = [] := ⟨_, rfl, rfl, rfl⟩
  obtain ⟨t, ht, hphase, hempty⟩ := hrun
  refine ⟨t, StepSystem.reachableUnder_of_run ht, fun h ↦ ?_⟩
  have h1 := h 1 (by rw [hphase]; rfl)
  rw [hempty] at h1
  cases h1

end OctopusIpc.Server.Process

import OctopusIpc.Server.Threads

/-!
# Who acts on whose descriptor

As long as no sender closes a descriptor, the kernel's table and the handler threads agree:
a number is open exactly for the connection that holds it and has not closed it yet. On top
of that the module settles when every operation reaches the connection it is issued for. A
sender that closes after a failed `write()` leaves the handler thread with a number that may
be someone else's by the time it is read, written or closed again, and so does a push that
still holds the number of a record while the number changes hands.
-/

namespace OctopusIpc.Server

/-- A connection of this stage has its descriptor open. -/
def Stage.isOpen : Stage → Bool
  | accepted | serving => true
  | absent | closed | gone => false

/-- How many closes should have been issued at this stage. -/
def Stage.closes : Stage → Nat
  | absent | accepted | serving => 0
  | closed | gone => 1

namespace Process

variable {s s' : Process}

/-! ### No sender closes -/

/-- No sender is about to close the descriptor it writes to. -/
structure NoClosing (s : Process) : Prop where
  handler : ∀ c kind, (s.conns c).phase ≠ .sending kind .closing
  push : ∀ p r, s.pushes p = some r → r.pc ≠ .closing

theorem NoClosing.sender (h : NoClosing s) {t : Thread} {r : Sender} (hr : s.sender t = some r) :
    r.pc ≠ .closing := by
  intro hc
  cases t with
  | handler c =>
    obtain ⟨hp, -, -⟩ := sender_handler_eq_some hr
    rw [hc] at hp
    exact h.handler c r.kind hp
  | push p => exact h.push p r hr hc

private theorem NoClosing.of_conn (h : NoClosing s) {c : Nat} {x : Connection}
    (hc : s'.conns = Function.update s.conns c x) (hx : ∀ kind, x.phase ≠ .sending kind .closing)
    (hp : s'.pushes = s.pushes) : NoClosing s' := by
  refine ⟨fun k kind ↦ ?_, hp ▸ h.push⟩
  rw [hc, Function.update_apply]
  by_cases hk : k = c
  · rw [if_pos hk]
    exact hx kind
  · rw [if_neg hk]
    exact h.handler k kind

private theorem NoClosing.of_push (h : NoClosing s) {p : Nat} {o : Option Sender}
    (hc : s'.conns = s.conns) (hp : s'.pushes = Function.update s.pushes p o)
    (ho : ∀ r, o = some r → r.pc ≠ .closing) : NoClosing s' := by
  refine ⟨hc ▸ h.handler, fun q r hq ↦ ?_⟩
  rw [hp, Function.update_apply] at hq
  by_cases hk : q = p
  · rw [if_pos hk] at hq
    exact ho r hq
  · rw [if_neg hk] at hq
    exact h.push q r hq

private theorem NoClosing.setSender (h : NoClosing s) {r : Sender} {t : Thread}
    {o : Option SendPc} (ho : o ≠ some .closing) : NoClosing (s.setSender r t o) := by
  cases t with
  | handler c =>
    cases o with
    | none => exact h.of_conn rfl (fun _ hp ↦ nomatch hp) rfl
    | some pc =>
      refine h.of_conn rfl (fun kind hp ↦ ?_) rfl
      cases hp
      exact ho rfl
  | push p =>
    cases o with
    | none => exact h.of_push rfl rfl fun _ hr ↦ nomatch hr
    | some pc =>
      refine h.of_push rfl rfl fun x hx hp ↦ ?_
      cases hx
      exact ho (congrArg some hp)

/-- Without a closing failure no sender gets to the point of closing. -/
theorem NoClosing.step (h : NoClosing s) {a : Action} (hg : s.NoClosingFailure a)
    (he : s.Enabled a) : NoClosing (s.apply a) := by
  cases a with
  | accept c fd => exact h.of_conn rfl (fun _ hp ↦ by cases hp) rfl
  | addClient c => exact h.of_conn rfl (fun _ hp ↦ by cases hp) rfl
  | poll c outcome => exact h.of_conn rfl (fun _ hp ↦ by cases outcome <;> cases hp) rfl
  | read c ok => exact h.of_conn rfl (fun _ hp ↦ by cases ok <;> cases hp) rfl
  | configure c fd u =>
    refine ⟨fun k kind hp ↦ h.handler k kind (Eq.trans ?_ hp), h.push⟩
    change _ = Connection.phase (if _ then _ else _)
    split <;> rfl
  | send c kind => exact h.of_conn rfl (fun _ hp ↦ by cases hp) rfl
  | next c => exact h.of_conn rfl (fun _ hp ↦ by cases hp) rfl
  | visit p fd =>
    refine h.of_push rfl rfl fun r hr hp ↦ ?_
    cases hr
    cases hp
  | lock t =>
    obtain ⟨-, r, hr, -⟩ := he
    simp only [apply, Option.mem_def.mp hr]
    have hs : NoClosing (s.setSender r t (some .writing)) := h.setSender (by decide)
    exact ⟨hs.handler, hs.push⟩
  | write t outcome =>
    obtain ⟨r, hr, -⟩ := he
    simp only [apply, Option.mem_def.mp hr]
    have ho : NoClosing (s.operate r.owner r.fd) := ⟨h.handler, h.push⟩
    have hs := ho.setSender (r := r) (t := t) (hg r hr)
    exact ⟨hs.handler, hs.push⟩
  | closeFailed t =>
    obtain ⟨r, hr, hp⟩ := he
    exact absurd hp (h.sender hr)
  | close c =>
    have hc : NoClosing (s.closeNumber c (s.conns c).fd) := h.of_conn rfl (h.handler c) rfl
    exact hc.of_conn rfl (fun _ hp ↦ by cases hp) rfl
  | remove c => exact h.of_conn rfl (fun _ hp ↦ by cases hp) rfl

/-! ### The kernel's table and the threads agree -/

/-- A number is open for the connection that holds it and has not closed it, and as many
closes have been issued for a connection as its stage calls for. -/
structure Coherent (s : Process) : Prop where
  kernel_iff : ∀ fd c,
    s.kernel fd = some c ↔ (s.conns c).fd = fd ∧ (s.conns c).phase.stage.isOpen = true
  closes_eq : ∀ c, (s.conns c).closes = (s.conns c).phase.stage.closes

theorem coherent_init : Coherent init := by
  refine ⟨fun fd c ↦ ?_, fun c ↦ rfl⟩
  simp [init, Phase.stage, Stage.isOpen]

/-- Two connections with one number are not both open. -/
theorem Coherent.eq_of_fd_eq (h : Coherent s) {c c' : Nat}
    (hc : (s.conns c).phase.stage.isOpen = true) (hc' : (s.conns c').phase.stage.isOpen = true)
    (hf : (s.conns c).fd = (s.conns c').fd) : c = c' := by
  have hk := (h.kernel_iff _ c).mpr ⟨rfl, hc⟩
  have hk' := (h.kernel_iff _ c').mpr ⟨rfl, hc'⟩
  rw [hf, hk'] at hk
  exact (Option.some.inj hk).symm

/-- A descriptor that its connection has not closed is open under its number. -/
theorem Coherent.kernel_eq (h : Coherent s) {c : Nat}
    (hc : (s.conns c).phase.stage.isOpen = true) : s.kernel (s.conns c).fd = some c :=
  (h.kernel_iff _ c).mpr ⟨rfl, hc⟩

private theorem Coherent.of_conns (h : Coherent s) (hk : s'.kernel = s.kernel)
    (hc : ∀ k, (s'.conns k).fd = (s.conns k).fd ∧
      (s'.conns k).phase.stage.isOpen = (s.conns k).phase.stage.isOpen ∧
      (s'.conns k).closes = (s.conns k).closes ∧
      (s'.conns k).phase.stage.closes = (s.conns k).phase.stage.closes) : Coherent s' := by
  refine ⟨fun fd c ↦ ?_, fun c ↦ ?_⟩
  · rw [hk, (hc c).1, (hc c).2.1]
    exact h.kernel_iff fd c
  · rw [(hc c).2.2.1, (hc c).2.2.2]
    exact h.closes_eq c

theorem Coherent.of_sameView (h : Coherent s) (hv : SameView s s') : Coherent s' :=
  h.of_conns hv.kernel fun k ↦ ⟨hv.fd k, by rw [hv.stage], hv.closes k, by rw [hv.stage]⟩

private theorem Coherent.accept (h : Coherent s) {c : Nat} {fd : Int}
    (he : s.Enabled (.accept c fd)) : Coherent (s.apply (.accept c fd)) := by
  obtain ⟨hp, -, -, hfree⟩ := he
  refine ⟨fun fd' k ↦ ?_, fun k ↦ ?_⟩
  · simp only [apply, Function.update_apply]
    by_cases hf : fd' = fd <;> by_cases hk : k = c
    · simp [hf, hk, Phase.stage, Stage.isOpen]
    · have hno := h.kernel_iff fd k
      rw [hfree] at hno
      simpa [hf, hk, Ne.symm hk] using hno
    · have hno := h.kernel_iff fd' c
      rw [hp] at hno
      simpa [hf, hk, Ne.symm hf, Phase.stage, Stage.isOpen] using hno
    · simpa [hf, hk] using h.kernel_iff fd' k
  · simp only [apply, Function.update_apply]
    by_cases hk : k = c
    · rw [if_pos hk]
      rfl
    · rw [if_neg hk]
      exact h.closes_eq k

private theorem Coherent.close (h : Coherent s) {c : Nat} (he : s.Enabled (.close c)) :
    Coherent (s.apply (.close c)) := by
  have hopen : (s.conns c).phase.stage.isOpen = true := by
    rw [show (s.conns c).phase = _ from he]
    rfl
  have hzero : (s.conns c).closes = 0 := by
    rw [h.closes_eq, show (s.conns c).phase = _ from he]
    rfl
  refine ⟨fun fd k ↦ ?_, fun k ↦ ?_⟩
  · simp only [apply, setPhase, closeNumber, operate, Function.update_self,
      Function.update_idem, Function.update_apply]
    by_cases hf : fd = (s.conns c).fd <;> by_cases hk : k = c
    · simp [hf, hk, Phase.stage, Stage.isOpen]
    · -- nobody else has the number open
      simp only [hf, hk, if_true, if_false, reduceCtorEq, false_iff, not_and]
      exact fun he' ho ↦ hk (h.eq_of_fd_eq ho hopen he')
    · have hno := h.kernel_iff fd c
      simpa [hf, hk, Ne.symm hf, Phase.stage, Stage.isOpen] using hno
    · simpa [hf, hk] using h.kernel_iff fd k
  · simp only [apply, setPhase, closeNumber, operate, Function.update_self,
      Function.update_idem, Function.update_apply]
    by_cases hk : k = c
    · simp [hk, hzero, Phase.stage, Stage.closes]
    · simpa [hk] using h.closes_eq k

/-- Without closing senders every step keeps kernel and threads in agreement. -/
theorem Coherent.step (h : Coherent s) (hn : NoClosing s) {a : Action} (he : s.Enabled a) :
    Coherent (s.apply a) := by
  cases a with
  | accept c fd => exact h.accept he
  | addClient c =>
    refine h.of_conns rfl fun k ↦ ?_
    simp only [apply, Function.update_apply]
    by_cases hk : k = c
    · rw [if_pos hk, hk, show (s.conns c).phase = _ from he]
      exact ⟨rfl, rfl, rfl, rfl⟩
    · rw [if_neg hk]
      exact ⟨rfl, rfl, rfl, rfl⟩
  | configure c fd u =>
    refine h.of_conns rfl fun k ↦ ?_
    simp only [apply]
    split <;> exact ⟨rfl, rfl, rfl, rfl⟩
  | closeFailed t =>
    obtain ⟨r, hr, hp⟩ := he
    exact absurd hp (hn.sender hr)
  | close c => exact h.close he
  | remove c =>
    refine h.of_conns rfl fun k ↦ ?_
    simp only [apply, setPhase_conns]
    by_cases hk : k = c
    · rw [if_pos hk, hk, show (s.conns c).phase = _ from he]
      exact ⟨rfl, rfl, rfl, rfl⟩
    · rw [if_neg hk]
      exact ⟨rfl, rfl, rfl, rfl⟩
  | poll c outcome => exact h.of_sameView (sameView_of_internal trivial he)
  | read c ok => exact h.of_sameView (sameView_of_internal trivial he)
  | send c kind => exact h.of_sameView (sameView_of_internal trivial he)
  | next c => exact h.of_sameView (sameView_of_internal trivial he)
  | visit p fd => exact h.of_sameView (sameView_of_internal trivial he)
  | lock t => exact h.of_sameView (sameView_of_internal trivial he)
  | write t outcome => exact h.of_sameView (sameView_of_internal trivial he)

/-! ### Every operation reaches the connection it is for -/

/-- What was issued on behalf of a connection went to it, or to nothing open. -/
def OwnDescriptors (s : Process) : Prop :=
  ∀ op ∈ s.operations, ∀ c, op.hit = some c → c = op.owner

/-- A connection that its handler has cleaned up was closed once and is not open any more,
and any other was not closed. -/
def ClosedOnce (s : Process) : Prop :=
  ∀ c, (s.conns c).closes = (s.conns c).phase.stage.closes ∧
    ((s.conns c).phase.stage.closes = 1 → ∀ fd, s.kernel fd ≠ some c)

/-- A number a push has in hand is open for the connection the push is for, or not open. -/
def PushesOwn (s : Process) : Prop :=
  ∀ p r, s.pushes p = some r → ∀ c, s.kernel r.fd = some c → c = r.owner

/-- The step is not a failure after which a sender closes; an accept takes no number that a
push has in hand; and a push visits no record whose number is open for another connection
than the one the record was inserted for. -/
def KeepsOwnership (s : Process) (a : Action) : Prop :=
  s.NoClosingFailure a ∧
    match a with
    | .accept _ fd => ∀ p r, s.pushes p = some r → r.fd ≠ fd
    | .visit _ fd => ∀ c, s.kernel fd = some c → c = s.recordOwner fd
    | _ => True

private theorem PushesOwn.of_pushes (h : PushesOwn s)
    (hk : ∀ fd c, s'.kernel fd = some c → s.kernel fd = some c) (hp : s'.pushes = s.pushes) :
    PushesOwn s' :=
  fun p r hr c hc ↦ h p r (hp ▸ hr) c (hk _ _ hc)

private theorem PushesOwn.of_push (h : PushesOwn s) {p : Nat} {o : Option Sender}
    (hk : s'.kernel = s.kernel) (hp : s'.pushes = Function.update s.pushes p o)
    (ho : ∀ r, o = some r → ∀ c, s.kernel r.fd = some c → c = r.owner) : PushesOwn s' := by
  intro q r hq c hc
  rw [hk] at hc
  rw [hp, Function.update_apply] at hq
  by_cases hqp : q = p
  · rw [if_pos hqp] at hq
    exact ho r hq c hc
  · rw [if_neg hqp] at hq
    exact h q r hq c hc

private theorem PushesOwn.setSender (h : PushesOwn s) {t : Thread} {r : Sender}
    {o : Option SendPc} (hr : s.sender t = some r) : PushesOwn (s.setSender r t o) := by
  cases t with
  | handler c => cases o <;> exact h.of_pushes (fun _ _ ↦ id) rfl
  | push p =>
    cases o with
    | none => exact h.of_push rfl rfl fun _ hx ↦ nomatch hx
    | some pc =>
      refine h.of_push rfl rfl fun x hx ↦ ?_
      cases hx
      exact h p r hr

private theorem PushesOwn.step (h : PushesOwn s) (hn : NoClosing s) {a : Action}
    (hg : s.KeepsOwnership a) (he : s.Enabled a) : PushesOwn (s.apply a) := by
  cases a with
  | accept c fd =>
    intro p r hr k hk
    have hne : r.fd ≠ fd := hg.2 p r hr
    simp only [apply, Function.update_of_ne hne] at hk
    exact h p r hr k hk
  | visit p fd =>
    refine h.of_push rfl rfl fun r hr ↦ ?_
    cases hr
    exact hg.2
  | lock t =>
    obtain ⟨-, r, hr, -⟩ := he
    simp only [apply, Option.mem_def.mp hr]
    exact (h.setSender hr).of_pushes (fun _ _ ↦ id) rfl
  | write t outcome =>
    obtain ⟨r, hr, -⟩ := he
    simp only [apply, Option.mem_def.mp hr]
    have ho : PushesOwn (s.operate r.owner r.fd) := h
    have hr' : (s.operate r.owner r.fd).sender t = some r := by
      rw [← Option.mem_def.mp hr]
      cases t <;> rfl
    exact (ho.setSender hr').of_pushes (fun _ _ ↦ id) rfl
  | closeFailed t =>
    obtain ⟨r, hr, hp⟩ := he
    exact absurd hp (hn.sender hr)
  | close c =>
    refine h.of_pushes (fun fd k hk ↦ ?_) rfl
    simp only [apply, setPhase, closeNumber, operate, Function.update_apply] at hk
    split at hk
    · cases hk
    · exact hk
  | _ => exact h.of_pushes (fun _ _ ↦ id) rfl

/-- The number a thread sends to is open for the connection it sends for, or not open. -/
private theorem owner_of_sender (hc : Coherent s) (hp : PushesOwn s) {t : Thread} {r : Sender}
    (hr : s.sender t = some r) {c : Nat} (hk : s.kernel r.fd = some c) : c = r.owner := by
  cases t with
  | handler c' =>
    obtain ⟨hphase, hfd, howner⟩ := sender_handler_eq_some hr
    have hopen : (s.conns c').phase.stage.isOpen = true := by
      rw [hphase]
      rfl
    rw [hfd, hc.kernel_eq hopen] at hk
    rw [howner]
    exact (Option.some.inj hk).symm
  | push p => exact hp p r hr c hk

private theorem OwnDescriptors.cons (h : OwnDescriptors s) {owner : Nat} {fd : Int}
    (ho : ∀ c, s.kernel fd = some c → c = owner)
    (hops : s'.operations = ⟨owner, s.kernel fd⟩ :: s.operations) : OwnDescriptors s' := by
  intro op hop
  rw [hops] at hop
  rcases List.mem_cons.mp hop with rfl | hop
  · exact ho
  · exact h op hop

private theorem OwnDescriptors.step (h : OwnDescriptors s) (hn : NoClosing s) (hc : Coherent s)
    (hp : PushesOwn s) {a : Action} (he : s.Enabled a) : OwnDescriptors (s.apply a) := by
  have hown (c : Nat) (hopen : (s.conns c).phase.stage.isOpen = true) (k : Nat)
      (hk : s.kernel (s.conns c).fd = some k) : k = c := by
    rw [hc.kernel_eq hopen] at hk
    exact (Option.some.inj hk).symm
  cases a with
  | read c ok =>
    have hphase : (s.conns c).phase = .readable := he.1
    exact h.cons (hown c (by rw [hphase]; rfl)) rfl
  | close c =>
    have hphase : (s.conns c).phase = .ending := he
    exact h.cons (hown c (by rw [hphase]; rfl)) rfl
  | write t outcome =>
    obtain ⟨r, hr, -⟩ := he
    have hr := Option.mem_def.mp hr
    refine h.cons (fun c hk ↦ owner_of_sender hc hp hr hk) ?_
    simp only [apply, hr]
    exact setSender_operations ..
  | lock t =>
    obtain ⟨-, r, hr, -⟩ := he
    have hops : (s.apply (.lock t)).operations = s.operations := by
      simp only [apply, Option.mem_def.mp hr]
      exact setSender_operations ..
    exact fun op hop ↦ h op (hops ▸ hop)
  | closeFailed t =>
    obtain ⟨r, hr, hpc⟩ := he
    exact absurd hpc (hn.sender hr)
  | _ => exact h

/-- What runs keep whose steps all keep ownership. -/
structure Owned (s : Process) : Prop where
  noClosing : NoClosing s
  coherent : Coherent s
  pushesOwn : PushesOwn s
  ownDescriptors : OwnDescriptors s

theorem owned_init : Owned init :=
  ⟨⟨fun _ _ h ↦ (nomatch h), fun _ _ h ↦ (nomatch h)⟩, coherent_init, fun _ _ h ↦ (nomatch h),
    fun _ h ↦ absurd h List.not_mem_nil⟩

theorem Owned.step (h : Owned s) {a : Action} (hg : s.KeepsOwnership a) (he : s.Enabled a) :
    Owned (s.apply a) where
  noClosing := h.noClosing.step hg.1 he
  coherent := h.coherent.step h.noClosing he
  pushesOwn := h.pushesOwn.step h.noClosing hg he
  ownDescriptors := h.ownDescriptors.step h.noClosing h.coherent h.pushesOwn he

theorem Coherent.closedOnce (h : Coherent s) : ClosedOnce s := by
  refine fun c ↦ ⟨h.closes_eq c, fun hone fd hk ↦ ?_⟩
  have hopen := ((h.kernel_iff fd c).mp hk).2
  cases hs : (s.conns c).phase.stage <;> rw [hs] at hone hopen <;> cases hone <;> cases hopen

/-- A handler at the label `cleanup` can close and then remove, whatever other threads have done,
and its connection is closed once then. -/
theorem Owned.cleanup (h : Owned s) {c : Nat} (hc : (s.conns c).phase = .ending) :
    s.Enabled (.close c) ∧ (s.apply (.close c)).Enabled (.remove c) ∧
      (((s.apply (.close c)).apply (.remove c)).conns c).closes = 1 ∧
      ∀ fd, ((s.apply (.close c)).apply (.remove c)).kernel fd ≠ some c := by
  have hclosed : ((s.apply (.close c)).conns c).phase = .closed := by
    simp only [apply, setPhase_conns, if_true]
  have hgone : (((s.apply (.close c)).apply (.remove c)).conns c).phase = .gone := by
    simp only [apply, setPhase_conns, if_true]
  have hfirst := h.step (a := .close c) ⟨trivial, trivial⟩ hc
  have hboth := hfirst.step (a := .remove c) ⟨trivial, trivial⟩ hclosed
  obtain ⟨hcloses, hkernel⟩ := hboth.coherent.closedOnce c
  rw [hgone] at hcloses hkernel
  exact ⟨hc, hclosed, hcloses, hkernel rfl⟩

/-- In every run whose steps keep ownership, every state has this: each read, write and
close went to the connection it was issued for or to nothing open, and each connection is
closed once, by its handler. -/
theorem descriptors_owned (h : system.ReachableUnder KeepsOwnership s) :
    OwnDescriptors s ∧ ClosedOnce s := by
  have howned : Owned s := h.invariant_of_commands owned_init fun _ _ ht hg he ↦ ht.step hg he
  exact ⟨howned.ownDescriptors, howned.coherent.closedOnce⟩

/-- Connection 0 is hung up and cleaned up. Connection 1 gets its number, is pushed a message and
sends one. -/
def reusedNumber : List Action :=
  [.accept 0 5, .addClient 0, .poll 0 .hangup, .close 0, .remove 0, .accept 1 5, .addClient 1,
    .visit 0 5, .lock (.push 0), .write (.push 0) (.accepted true), .poll 1 .readable,
    .read 1 true]

theorem descriptors_owned_reusedNumber :
    let t := reusedNumber.foldl apply init
    t.operations = [⟨1, some 1⟩, ⟨1, some 1⟩, ⟨0, some 0⟩] ∧ OwnDescriptors t ∧
      ClosedOnce t := by
  have hwrite (s : Process) (t : Thread) : s.NoClosingFailure (.write t (.accepted true)) := by
    intro r _
    cases r.kind <;> decide
  have hinit : system.ReachableUnder KeepsOwnership init := StepSystem.ReachableUnder.init
  have hclosed : system.ReachableUnder KeepsOwnership ((reusedNumber.take 5).foldl apply init) :=
    ((((hinit.command (.accept 0 5) ⟨trivial, fun _ _ h ↦ nomatch h⟩ (by decide)).command
      (.addClient 0) ⟨trivial, trivial⟩ (by decide)).command (.poll 0 .hangup)
        ⟨trivial, trivial⟩ (by decide)).command (.close 0) ⟨trivial, trivial⟩ (by decide)).command
          (.remove 0) ⟨trivial, trivial⟩ (by decide)
  have hreused : system.ReachableUnder KeepsOwnership ((reusedNumber.take 7).foldl apply init) :=
    (hclosed.command (.accept 1 5) ⟨trivial, fun _ _ h ↦ nomatch h⟩ (by decide)).command
      (.addClient 1) ⟨trivial, trivial⟩ (by decide)
  have hpushed : system.ReachableUnder KeepsOwnership ((reusedNumber.take 10).foldl apply init) :=
    ((hreused.command (.visit 0 5) ⟨trivial, fun _ hc ↦ (Option.some.inj hc).symm⟩
      (by decide)).command (.lock (.push 0)) ⟨trivial, trivial⟩ (by decide)).command
        (.write (.push 0) (.accepted true)) ⟨hwrite _ _, trivial⟩ (by decide)
  exact ⟨by decide, descriptors_owned ((hpushed.command (.poll 1 .readable) ⟨trivial, trivial⟩
    (by decide)).command (.read 1 true) ⟨trivial, trivial⟩ (by decide))⟩

/-- The handler of connection 0 fails to answer and closes descriptor 5, connection 1 gets
the number, and the handler of connection 0 reads from it. -/
def failedResponse : List Action :=
  [.accept 0 5, .addClient 0, .poll 0 .readable, .read 0 true, .send 0 .response,
    .lock (.handler 0), .write (.handler 0) .peerGone, .closeFailed (.handler 0),
    .accept 1 5, .next 0, .poll 0 .readable, .read 0 true]

/-- After a failed answer a handler thread reads from another connection. -/
theorem not_ownDescriptors_failedResponse :
    ∃ t : Process, system.Reachable t ∧ ⟨0, some 1⟩ ∈ t.operations ∧ ¬ OwnDescriptors t := by
  have hrun : ∃ t, system.run (fun _ _ ↦ True) init failedResponse = some t ∧
      ⟨0, some 1⟩ ∈ t.operations := ⟨_, rfl, by decide⟩
  obtain ⟨t, ht, hop⟩ := hrun
  refine ⟨t, StepSystem.reachableUnder_of_run ht, hop, fun h ↦ ?_⟩
  exact absurd (h _ hop 1 rfl) (by decide)

end Process
end OctopusIpc.Server

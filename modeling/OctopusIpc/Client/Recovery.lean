import OctopusIpc.Client.OpenSockets
import OctopusIpc.Socket.Query

/-!
# Coming back after a lost connection

The client and the server's ends of its connections, at which bytes are written and which are
closed at any time. The client's sockets are registered with `EPOLLET`: what happened at the
other end is reported once and answered by one read, so that a close that was reported together
with bytes is never found. From the states at the top of the loop that are recoverable the
client can get to a connection that is open at both ends, from the others it cannot.
-/

namespace OctopusIpc.Client

/-- The other end of a connection, and what of it has come to the client's socket. -/
structure ServerEnd where
  closed : Bool
  /-- The number of bytes that the client has not read. -/
  unread : Nat
  /-- Bytes have come, or the end was closed, since the socket was last reported. -/
  news : Bool
  deriving DecidableEq, Repr

/-- The client process, and the other end of the connection under each number. -/
structure ServedClient where
  client : ClientProcess
  serverEnd : Int → ServerEnd

/-- What happens. -/
inductive ServedAction where
  /-- A step of the client. -/
  | client (a : ClientAction)
  /-- The server writes bytes. -/
  | arrive (fd : Int) (count : Nat)
  /-- The server closes its end. -/
  | hangUp (fd : Int)

namespace ServedClient

/-- The client starts without a connection. -/
def init : ServedClient := ⟨ClientProcess.init, fun _ ↦ ⟨true, 0, false⟩⟩

/-- The number is that of a socket of the client that was connected. -/
def Joined (s : ServedClient) (fd : Int) : Prop :=
  ∃ x ∈ s.client.kernel fd, x.connected = true

instance (s : ServedClient) (fd : Int) : Decidable (s.Joined fd) :=
  inferInstanceAs (Decidable (∃ x ∈ _, _))

/-- The other end of the stored number. -/
def current (s : ServedClient) : ServerEnd := s.serverEnd s.client.socketClient

/-- `epoll_wait` has to report the stored number: something has happened since the last report,
and there are bytes or the end of the file to read. -/
def Reportable (s : ServedClient) : Prop :=
  s.Joined s.client.socketClient ∧ s.current.news = true ∧
    (0 < s.current.unread ∨ s.current.closed = true)

instance (s : ServedClient) : Decidable s.Reportable :=
  inferInstanceAs (Decidable (_ ∧ _ ∧ (_ ∨ _)))

/-- The outcomes of the client's calls that the other end allows. A read is given what bytes
there are; it fails at the end of the file or if its number is not that of a connection. -/
def Allows (s : ServedClient) : ClientAction → Prop
  | .poll .readable => s.Reportable
  | .poll .timeout => ¬ s.Reportable
  | .read true => 0 < s.current.unread
  | .read false =>
    s.Joined s.client.socketClient → s.current.closed = true ∧ s.current.unread = 0
  | .write _ fd true => (s.serverEnd fd).closed = false
  | _ => True

instance (s : ServedClient) : (a : ClientAction) → Decidable (s.Allows a)
  | .poll .readable => inferInstanceAs (Decidable s.Reportable)
  | .poll .timeout => inferInstanceAs (Decidable (¬ _))
  | .read true => inferInstanceAs (Decidable (_ < _))
  | .read false => inferInstanceAs (Decidable (_ → _ ∧ _))
  | .write _ _ true => inferInstanceAs (Decidable (_ = _))
  | .poll .failed | .write _ _ false | .testConnection | .initEpoll _ | .closeOld
  | .checkServer _ _ | .openSocket _ | .register _ _ _ | .closeUnregistered _ | .store _
  | .connect _ _ | .closeUnconnected _ | .testSend _ | .loadSend _ | .closeSend _ _ =>
    inferInstanceAs (Decidable True)

/-- When a step can be taken. -/
def Enabled (s : ServedClient) : ServedAction → Prop
  | .client a => s.client.Enabled a ∧ s.Allows a
  | .arrive fd count => 0 < count ∧ s.Joined fd ∧ (s.serverEnd fd).closed = false
  | .hangUp fd => s.Joined fd ∧ (s.serverEnd fd).closed = false

instance (s : ServedClient) : (a : ServedAction) → Decidable (s.Enabled a)
  | .client _ => inferInstanceAs (Decidable (_ ∧ _))
  | .arrive _ _ => inferInstanceAs (Decidable (_ ∧ _ ∧ _))
  | .hangUp _ => inferInstanceAs (Decidable (_ ∧ _))

/-- What the client's calls do to the other ends: a report is made once, a read takes what its
buffer holds, and a connection is new. -/
def endsAfter (s : ServedClient) : ClientAction → Int → ServerEnd
  | .poll .readable =>
    Function.update s.serverEnd s.client.socketClient { s.current with news := false }
  | .read true =>
    Function.update s.serverEnd s.client.socketClient
      { s.current with unread := s.current.unread - Socket.bufferSize }
  | .connect fd true => Function.update s.serverEnd fd ⟨false, 0, false⟩
  | _ => s.serverEnd

/-- What a step does. -/
def apply (s : ServedClient) : ServedAction → ServedClient
  | .client a => ⟨s.client.apply a, s.endsAfter a⟩
  | .arrive fd count =>
    { s with
      serverEnd := Function.update s.serverEnd fd
        { s.serverEnd fd with unread := (s.serverEnd fd).unread + count, news := true } }
  | .hangUp fd =>
    { s with
      serverEnd := Function.update s.serverEnd fd
        { s.serverEnd fd with closed := true, news := true } }

/-- The client and the other ends as a transition system. -/
def system : StepSystem ServedClient ServedAction := StepSystem.ofCommands init Enabled apply

variable {s s' : ServedClient} {a : ServedAction} {fd : Int}

/-! ### What is claimed -/

/-- `epoll_wait` fails. -/
def FailsToPoll : ServedAction → Bool
  | .client (.poll .failed) => true
  | _ => false

/-- A sender whose write failed closes the stored number between its report and the read. -/
def ClosesReported (s : ServedClient) : ServedAction → Bool
  | .client (.closeSend _ fd) => s.client.loop == .reading && fd == s.client.socketClient
  | _ => false

/-- `epoll_wait` does not fail. -/
def PollsCleanly (_ : ServedClient) (a : ServedAction) : Prop := FailsToPoll a = false

/-- Nor is a reported number closed before it is read. -/
def ReadsReported (s : ServedClient) (a : ServedAction) : Prop :=
  FailsToPoll a = false ∧ s.ClosesReported a = false

instance (s : ServedClient) (a : ServedAction) : Decidable (s.PollsCleanly a) :=
  inferInstanceAs (Decidable (_ = _))

instance (s : ServedClient) (a : ServedAction) : Decidable (s.ReadsReported a) :=
  inferInstanceAs (Decidable (_ ∧ _))

/-- Some run leads to the top of the loop with a connection that is open at both ends. -/
def CanConnect (G : ServedClient → ServedAction → Prop) [∀ s a, Decidable (G s a)]
    (s : ServedClient) : Prop :=
  ∃ as s', system.run G s as = some s' ∧ s'.client.loop = .top ∧
    s'.client.Live s'.client.socketClient ∧ s'.current.closed = false

/-- A reconnect will be attempted, or the stored socket is open, connected and registered, and
its other end is open or its close is still to be reported, with nothing to read before it. -/
def Recoverable (s : ServedClient) : Prop :=
  s.client.socketClient < 0 ∨ s.client.Live s.client.socketClient ∧
    (s.current.closed = false ∨ s.current.news = true ∧ s.current.unread = 0)

/-- The receiver thread goes round its loop with a stored number. -/
structure Polls (s : ServedClient) : Prop where
  loop : s.client.loop = .top ∨ s.client.loop = .polling
  nonneg : 0 ≤ s.client.socketClient
  initialized : s.client.epollInitialized = true

/-- The stored number is not that of a connection, or the other end is closed and this has been
reported. -/
def Lost (s : ServedClient) : Prop :=
  s.Polls ∧ (s.Joined s.client.socketClient → s.current.closed = true ∧ s.current.news = false)

/-- The client is lost, or will be after its next read: the close is reported with bytes. -/
def Doomed (s : ServedClient) : Prop :=
  s.Polls ∧ (s.Joined s.client.socketClient →
      s.current.closed = true ∧ (s.current.news = true → 0 < s.current.unread)) ∨
    s.client.loop = .reading ∧ 0 ≤ s.client.socketClient ∧ s.client.epollInitialized = true ∧
      s.Joined s.client.socketClient ∧ s.current.closed = true ∧ s.current.news = false ∧
        0 < s.current.unread

/-! ### A close that was reported is not found -/

/-- What happens at the other end of other numbers, or of an end that is not closed, does not
change one that is closed. -/
private theorem current_setEnd {e : ServerEnd} (hjoined : s.Joined fd)
    (hopen : (s.serverEnd fd).closed = false)
    (hclosed : s.Joined s.client.socketClient → s.current.closed = true) :
    Function.update s.serverEnd fd e s.client.socketClient = s.current := by
  refine Function.update_of_ne ?_ _ _
  rintro rfl
  cases hopen.symm.trans (hclosed hjoined)

/-- A number that some sender closes is not that of a connection afterwards, and the others are
as they were. -/
private theorem joined_of_closeSend {p : Nat} {n : Int}
    (h : (s.apply (.client (.closeSend p fd))).Joined n) : n ≠ fd ∧ s.Joined n := by
  obtain ⟨x, hx, hconnected⟩ := h
  have hx : Function.update s.client.kernel fd none n = some x := hx
  by_cases hn : n = fd
  · rw [hn, Function.update_self] at hx
    cases hx
  · rw [Function.update_of_ne hn] at hx
    exact ⟨hn, x, hx, hconnected⟩

/-- A client that polls a connection closed at the other end, or none, goes on polling it as it
is, or is told of it. -/
private theorem Polls.step (h : s.Polls)
    (hclosed : s.Joined s.client.socketClient → s.current.closed = true)
    (hg : FailsToPoll a = false) (he : s.Enabled a) :
    (s.apply a).client.socketClient = s.client.socketClient ∧
      ((s.apply a).Polls ∧ (s.apply a).current = s.current ∧
          ((s.apply a).Joined s.client.socketClient → s.Joined s.client.socketClient) ∨
        (s.apply a).client.loop = .reading ∧ (s.apply a).client.epollInitialized = true ∧
          s.Reportable ∧ (s.apply a).Joined s.client.socketClient ∧
            (s.apply a).current = { s.current with news := false }) := by
  obtain ⟨hloop, hpos, hinit⟩ := h
  have hnot {pc : LoopPc} (hl : s.client.loop = pc) (htop : pc ≠ .top) (hpolling : pc ≠ .polling) :
      False := hloop.elim (fun h ↦ htop (hl.symm.trans h)) fun h ↦ hpolling (hl.symm.trans h)
  cases a with
  | arrive fd count =>
    exact ⟨rfl, .inl ⟨⟨hloop, hpos, hinit⟩, current_setEnd he.2.1 he.2.2 hclosed, id⟩⟩
  | hangUp fd => exact ⟨rfl, .inl ⟨⟨hloop, hpos, hinit⟩, current_setEnd he.1 he.2 hclosed, id⟩⟩
  | client a =>
    obtain ⟨he, hallows⟩ := he
    cases a with
    | testConnection =>
      refine ⟨rfl, .inl ⟨⟨?_, hpos, hinit⟩, rfl, id⟩⟩
      simp only [apply, ClientProcess.apply, if_neg (Int.not_lt.mpr hpos), or_true]
    | initEpoll created => cases he.2.1.symm.trans hinit
    | poll event =>
      cases event with
      | timeout => exact ⟨rfl, .inl ⟨⟨.inl rfl, hpos, hinit⟩, rfl, id⟩⟩
      | failed => cases hg
      | readable =>
        exact ⟨rfl, .inr ⟨rfl, hinit, hallows, hallows.1, Function.update_self ..⟩⟩
    | read ok => exact (hnot he.1 (by decide) (by decide)).elim
    | closeOld => exact (hnot he (by decide) (by decide)).elim
    | checkServer running started => exact (hnot he (by decide) (by decide)).elim
    | openSocket fd => exact (hnot he.1 (by decide) (by decide)).elim
    | register fd created ok => exact (hnot he.1 (fun h ↦ by cases h) fun h ↦ by cases h).elim
    | closeUnregistered fd | store fd | closeUnconnected fd =>
      exact (hnot he (fun h ↦ by cases h) fun h ↦ by cases h).elim
    | connect fd ok => exact (hnot he.1 (fun h ↦ by cases h) fun h ↦ by cases h).elim
    | testSend p | loadSend p | write p fd ok =>
      exact ⟨rfl, .inl ⟨⟨hloop, hpos, hinit⟩, rfl, id⟩⟩
    | closeSend p fd =>
      exact ⟨rfl, .inl ⟨⟨hloop, hpos, hinit⟩, rfl, fun hj ↦ (joined_of_closeSend hj).2⟩⟩

/-- What is known to have been closed is not reported, and nothing else makes the loop
reconnect. -/
theorem Lost.step (h : s.Lost) (hg : s.PollsCleanly a) (he : s.Enabled a) :
    (s.apply a).Lost := by
  obtain ⟨hpolls, hclosed⟩ := h
  obtain ⟨hsame, ⟨hpolls', hcurrent, hjoined⟩ | ⟨-, -, hreportable, -, -⟩⟩ :=
    hpolls.step (fun hj ↦ (hclosed hj).1) hg he
  · refine ⟨hpolls', fun hj ↦ ?_⟩
    rw [hcurrent]
    exact hclosed (hjoined (hsame ▸ hj))
  · cases (hclosed hreportable.1).2.symm.trans hreportable.2.1

/-- A client that is told of a close and of bytes reads the bytes. -/
private theorem doomed_of_reading (hloop : s.client.loop = .reading)
    (hpos : 0 ≤ s.client.socketClient) (hinit : s.client.epollInitialized = true)
    (hjoined : s.Joined s.client.socketClient) (hclosed : s.current.closed = true)
    (hnews : s.current.news = false) (hunread : 0 < s.current.unread)
    (hg : s.ReadsReported a) (he : s.Enabled a) : (s.apply a).Doomed := by
  have hnot {pc : LoopPc} (hl : s.client.loop = pc) (hpc : pc ≠ .reading) : False :=
    hpc (hl.symm.trans hloop)
  have hsame {e : ServerEnd} {fd : Int} (hj : s.Joined fd)
      (hopen : (s.serverEnd fd).closed = false) :
      Function.update s.serverEnd fd e s.client.socketClient = s.current :=
    current_setEnd hj hopen fun _ ↦ hclosed
  have hstays (t : ServedClient) (hclient : t.client = s.client)
      (hcurrent : t.serverEnd s.client.socketClient = s.current) : t.Doomed := by
    refine .inr ?_
    simp only [current, Joined, hclient, hcurrent]
    exact ⟨hloop, hpos, hinit, hjoined, hclosed, hnews, hunread⟩
  cases a with
  | arrive fd count => exact hstays _ rfl (hsame he.2.1 he.2.2)
  | hangUp fd => exact hstays _ rfl (hsame he.1 he.2)
  | client a =>
    obtain ⟨he, hallows⟩ := he
    cases a with
    | read ok =>
      cases ok with
      | true =>
        have hread : (s.apply (.client (.read true))).current =
            { s.current with unread := s.current.unread - Socket.bufferSize } :=
          Function.update_self ..
        refine .inl ⟨⟨.inl rfl, hpos, hinit⟩, fun _ ↦ ?_⟩
        rw [hread]
        exact ⟨hclosed, fun hn ↦ by cases hnews.symm.trans hn⟩
      | false => exact absurd (hallows hjoined).2 (Nat.ne_of_gt hunread)
    | testSend p | loadSend p | write p fd ok =>
      exact .inr ⟨hloop, hpos, hinit, hjoined, hclosed, hnews, hunread⟩
    | closeSend p fd =>
      have hother : fd ≠ s.client.socketClient := by
        simpa [ClosesReported, hloop] using hg.2
      have hkernel : Function.update s.client.kernel fd none s.client.socketClient =
          s.client.kernel s.client.socketClient := Function.update_of_ne hother.symm _ _
      obtain ⟨x, hx, hconnected⟩ := hjoined
      exact .inr ⟨hloop, hpos, hinit, ⟨x, hkernel.trans hx, hconnected⟩, hclosed, hnews, hunread⟩
    | testConnection | closeOld | checkServer running started | closeUnregistered fd | store fd
    | closeUnconnected fd => exact (hnot he fun h ↦ by cases h).elim
    | initEpoll created | poll event | openSocket fd | register fd created ok | connect fd ok =>
      exact (hnot he.1 fun h ↦ by cases h).elim

/-- A doomed client stays so. -/
theorem Doomed.step (h : s.Doomed) (hg : s.ReadsReported a) (he : s.Enabled a) :
    (s.apply a).Doomed := by
  obtain ⟨hpolls, hclosed⟩ | ⟨hloop, hpos, hinit, hjoined, hclosed, hnews, hunread⟩ := h
  · obtain ⟨hsame, ⟨hpolls', hcurrent, hjoined⟩ |
        ⟨hreading, hinit, hreportable, hjoined, hcurrent⟩⟩ :=
      hpolls.step (fun hj ↦ (hclosed hj).1) hg.1 he
    · refine .inl ⟨hpolls', fun hj ↦ ?_⟩
      rw [hcurrent]
      exact hclosed (hjoined (hsame ▸ hj))
    · obtain ⟨hend, hbytes⟩ := hclosed hreportable.1
      refine .inr ⟨hreading, hsame ▸ hpolls.nonneg, hinit, hsame ▸ hjoined, ?_⟩
      rw [hcurrent]
      exact ⟨hend, rfl, hbytes hreportable.2.1⟩
  · exact doomed_of_reading hloop hpos hinit hjoined hclosed hnews hunread hg he

/-- A lost or doomed client has no live connection that is open at the other end. -/
private theorem Doomed.not_connected (h : s.Doomed)
    (hlive : s.client.Live s.client.socketClient) : s.current.closed = true := by
  obtain ⟨-, hclosed⟩ | ⟨-, -, -, -, hclosed, -⟩ := h
  · exact (hclosed ⟨_, hlive, rfl⟩).1
  · exact hclosed

private theorem Lost.doomed (h : s.Lost) : s.Doomed :=
  .inl ⟨h.1, fun hj ↦ ⟨(h.2 hj).1, fun hn ↦ by cases (h.2 hj).2.symm.trans hn⟩⟩

theorem tracked_of_reachable (h : system.Reachable s) : s.client.Tracked := by
  refine h.invariant_of_commands (I := fun t : ServedClient ↦ t.client.Tracked)
    ClientProcess.tracked_init fun t a ht _ he ↦ ?_
  cases a with
  | client a => exact ClientProcess.Tracked.step ht he.1
  | arrive fd count | hangUp fd => exact ht

/-- A client at the top of its loop that is not recoverable is doomed. -/
private theorem doomed_of_not_recoverable (h : s.client.Tracked) (htop : s.client.loop = .top)
    (hnot : ¬ s.Recoverable) : s.Doomed := by
  obtain ⟨hneg, hends⟩ := not_or.mp hnot
  have hpos := Int.not_lt.mp hneg
  refine .inl ⟨⟨.inl htop, hpos, h.initialized hpos⟩, ?_⟩
  rintro ⟨x, hx, -⟩
  have hplaced : 0 ≤ s.client.socketClient →
      s.client.IfOpen s.client.socketClient (· = ⟨true, true⟩) := (h.at htop).placed
  have hlive : s.client.Live s.client.socketClient := hx.trans (congrArg some (hplaced hpos x hx))
  obtain ⟨hclosed, hnews⟩ := not_or.mp fun hor ↦ hends ⟨hlive, hor⟩
  exact ⟨by simpa using hclosed, fun hn ↦ Nat.pos_of_ne_zero fun hz ↦ hnews ⟨hn, hz⟩⟩

/-! ### A reconnect that succeeds -/

/-- The steps of one. -/
def reconnect (fd : Int) : List ServedAction :=
  [.client .closeOld, .client (.checkServer true false), .client (.openSocket (some fd)),
    .client (.register fd true true), .client (.store fd), .client (.connect fd true)]

/-- A step leads to what can connect. -/
private theorem CanConnect.cons {G : ServedClient → ServedAction → Prop}
    [∀ s a, Decidable (G s a)] (hg : G s a) (he : s.Enabled a) (h : (s.apply a).CanConnect G) :
    s.CanConnect G := by
  obtain ⟨as, s', hrun, hend⟩ := h
  exact ⟨a :: as, s', StepSystem.run_cons_of_commands_iff.mpr ⟨hg, he, hrun⟩, hend⟩

/-- A client that reconnects can succeed, with any number that is free then. -/
private theorem canConnect_of_closingOld (hloop : s.client.loop = .closingOld) (hfd : 0 ≤ fd)
    (hfree : Function.update s.client.kernel s.client.socketClient none fd = none) :
    s.CanConnect ReadsReported := by
  have hopened : (((reconnect fd).take 3).foldl apply s).client.kernel fd =
      some ⟨false, false⟩ := by
    simp [reconnect, apply, ClientProcess.apply, ClientProcess.setSocket]
  have hregistered : (((reconnect fd).take 5).foldl apply s).client.kernel fd =
      some ⟨false, true⟩ := by
    simp [reconnect, apply, ClientProcess.apply, ClientProcess.setSocket]
  have hlive : ((reconnect fd).foldl apply s).client.Live fd := by
    simp [reconnect, apply, ClientProcess.apply, ClientProcess.setSocket, ClientProcess.Live]
  have hopen : (((reconnect fd).foldl apply s).serverEnd fd).closed = false := by
    simp [reconnect, apply, endsAfter]
  have hnumber (n : Int) (hn : n ∈ some fd) :
      0 ≤ n ∧ (((reconnect fd).take 2).foldl apply s).client.kernel n = none := by
    cases hn
    exact ⟨hfd, hfree⟩
  refine CanConnect.cons (a := .client .closeOld) ⟨rfl, rfl⟩ ⟨hloop, trivial⟩ ?_
  refine CanConnect.cons (a := .client (.checkServer true false)) ⟨rfl, rfl⟩ ⟨rfl, trivial⟩ ?_
  refine CanConnect.cons (a := .client (.openSocket (some fd))) ⟨rfl, rfl⟩
    ⟨⟨rfl, hnumber⟩, trivial⟩ ?_
  refine CanConnect.cons (a := .client (.register fd true true)) ⟨rfl, rfl⟩
    ⟨⟨rfl, fun _ ↦ ⟨Bool.or_true _, Option.isSome_of_eq_some hopened⟩⟩, trivial⟩ ?_
  refine CanConnect.cons (a := .client (.store fd)) ⟨rfl, rfl⟩ ⟨rfl, trivial⟩ ?_
  refine CanConnect.cons (a := .client (.connect fd true)) ⟨rfl, rfl⟩
    ⟨⟨rfl, fun _ ↦ Option.isSome_of_eq_some hregistered⟩, trivial⟩ ?_
  exact ⟨[], _, rfl, rfl, hlive, hopen⟩

/-- A close that is reported by itself is found by the read, which has nothing else to return. -/
private theorem canConnect_of_close (htracked : s.client.Tracked) (htop : s.client.loop = .top)
    (hlive : s.client.Live s.client.socketClient) (hclosed : s.current.closed = true)
    (hnews : s.current.news = true) (hunread : s.current.unread = 0) :
    s.CanConnect ReadsReported := by
  have hpos : 0 ≤ s.client.socketClient := by
    by_contra hneg
    cases (htracked.at htop).unstored (Int.not_le.mp hneg) _ _ hlive
  have hpolling : (s.apply (.client .testConnection)).client.loop = .polling :=
    if_neg (Int.not_lt.mpr hpos)
  have htold : ((s.apply (.client .testConnection)).apply (.client (.poll .readable))).current =
      { s.current with news := false } := Function.update_self ..
  refine CanConnect.cons (a := .client .testConnection) ⟨rfl, rfl⟩ ⟨htop, trivial⟩ ?_
  refine CanConnect.cons (a := .client (.poll .readable)) ⟨rfl, rfl⟩
    ⟨⟨hpolling, htracked.initialized hpos, fun _ ↦ ⟨_, hlive, rfl⟩⟩,
      ⟨_, hlive, rfl⟩, hnews, .inr hclosed⟩ ?_
  refine CanConnect.cons (a := .client (.read false)) ⟨rfl, rfl⟩
    ⟨⟨rfl, fun hok ↦ by cases hok⟩, fun _ ↦ ?_⟩ ?_
  · rw [htold]
    exact ⟨hclosed, hunread⟩
  · exact canConnect_of_closingOld rfl hpos (Function.update_self ..)

/-- A client that can recover does. -/
private theorem Recoverable.canConnect (h : s.Recoverable) (htracked : s.client.Tracked)
    (htop : s.client.loop = .top) : s.CanConnect ReadsReported := by
  obtain hneg | ⟨hlive, hopen | ⟨hnews, hunread⟩⟩ := h
  · have hfree : s.client.kernel 0 = none := by
      cases hk : s.client.kernel 0 with
      | none => rfl
      | some x => cases (htracked.at htop).unstored hneg 0 x hk
    refine CanConnect.cons (a := .client .testConnection) ⟨rfl, rfl⟩ ⟨htop, trivial⟩ ?_
    refine canConnect_of_closingOld (if_pos hneg) (Int.le_refl 0) ?_
    change Function.update s.client.kernel s.client.socketClient none 0 = none
    rw [Function.update_apply, hfree, ite_self]
  · exact ⟨[], s, rfl, htop, hlive, hopen⟩
  · by_cases hclosed : s.current.closed = false
    · exact ⟨[], s, rfl, htop, hlive, hclosed⟩
    · exact canConnect_of_close htracked htop hlive (by simpa using hclosed) hnews hunread

/-- At the top of its loop the client can get to a connection that is open at both ends exactly
if it is recoverable, in runs in which `epoll_wait` does not fail and no reported number is
closed before it is read. From a state in which it is lost no run leads there in which
`epoll_wait` does not fail, whatever the server, the kernel and the senders do. -/
theorem canConnect_iff (h : system.Reachable s) (htop : s.client.loop = .top) :
    (s.CanConnect ReadsReported ↔ s.Recoverable) ∧ (s.Lost → ¬ s.CanConnect PollsCleanly) := by
  have htracked := tracked_of_reachable h
  refine ⟨⟨?_, fun hr ↦ hr.canConnect htracked htop⟩, ?_⟩
  · rintro ⟨as, s', hrun, -, hlive, hopen⟩
    by_contra hnot
    have hdoomed : s'.Doomed := StepSystem.invariant_of_run (I := Doomed) (fun t a t' ht hg hs ↦ by
      obtain ⟨he, rfl⟩ := StepSystem.ofCommands_step_eq_some_iff.mp hs
      exact ht.step hg he) (doomed_of_not_recoverable htracked htop hnot) hrun
    cases hopen.symm.trans (hdoomed.not_connected hlive)
  · rintro hlost ⟨as, s', hrun, -, hlive, hopen⟩
    have hlost' : s'.Lost := StepSystem.invariant_of_run (I := Lost) (fun t a t' ht hg hs ↦ by
      obtain ⟨he, rfl⟩ := StepSystem.ofCommands_step_eq_some_iff.mp hs
      exact ht.step hg he) hlost hrun
    cases hopen.symm.trans (hlost'.doomed.not_connected hlive)

/-- A client connects, and the server closes its end before the client polls. -/
def closeAlone : List ServedAction :=
  .client .testConnection :: reconnect 3 ++ [.hangUp 3]

/-- The server has written a frame before it closes, and both are reported at once. -/
def closeWithFrame : List ServedAction :=
  .client .testConnection :: reconnect 3 ++ [.arrive 3 7, .hangUp 3, .client .testConnection,
    .client (.poll .readable), .client (.read true)]

/-- The first client finds the close and connects again, the second one never does. -/
theorem canConnect_closeWithFrame :
    (∃ t, system.run (fun _ _ ↦ True) init closeAlone = some t ∧ t.CanConnect ReadsReported) ∧
    ∃ t, system.run (fun _ _ ↦ True) init closeWithFrame = some t ∧ t.client.Live 3 ∧
      ¬ t.CanConnect PollsCleanly := by
  have halone : ∃ t, system.run (fun _ _ ↦ True) init closeAlone = some t ∧
      t.client.loop = .top ∧ t.client.socketClient = 3 ∧ t.client.Live 3 ∧
      t.serverEnd 3 = ⟨true, 0, true⟩ := ⟨_, rfl, rfl, rfl, rfl, rfl⟩
  have hframe : ∃ t, system.run (fun _ _ ↦ True) init closeWithFrame = some t ∧
      t.client.loop = .top ∧ t.client.socketClient = 3 ∧ t.client.epollInitialized = true ∧
      t.client.Live 3 ∧ t.serverEnd 3 = ⟨true, 0, false⟩ := ⟨_, rfl, rfl, rfl, rfl, rfl, rfl⟩
  obtain ⟨t, ht, htop, hsocket, hlive, hend⟩ := halone
  obtain ⟨u, hu, htop', hsocket', hinit, hlive', hend'⟩ := hframe
  have hcurrent : t.current = ⟨true, 0, true⟩ := by rw [current, hsocket, hend]
  have hcurrent' : u.current = ⟨true, 0, false⟩ := by rw [current, hsocket', hend']
  have hpolls : u.Polls := ⟨.inl htop', by rw [hsocket']; decide, hinit⟩
  refine ⟨⟨t, ht, ?_⟩, u, hu, hlive', ?_⟩
  · refine (canConnect_iff (StepSystem.reachableUnder_of_run ht) htop).1.mpr (.inr ⟨?_, .inr ?_⟩)
    · rwa [hsocket]
    · rw [hcurrent]
      exact ⟨rfl, rfl⟩
  · refine (canConnect_iff (StepSystem.reachableUnder_of_run hu) htop').2 ⟨hpolls, fun _ ↦ ?_⟩
    rw [hcurrent']
    exact ⟨rfl, rfl⟩

end ServedClient
end OctopusIpc.Client

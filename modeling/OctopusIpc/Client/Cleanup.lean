import OctopusIpc.Base.DescriptorTable
import OctopusIpc.Client.Connection

/-!
# Closing the client's descriptors

The calls of the app client that open, use and close sockets, one after another, each with
its outcome. `socket_client` keeps the number it has when a call closes the socket under it.
The cleanup runs from the handler of `SIGINT` and, as the process exits, once more; the
`return` behind its message that it was already performed is disabled.
-/

namespace OctopusIpc.Client

/-- How an attempt to reconnect ends. -/
inductive ReconnectOutcome where
  /-- The server does not run and cannot be started. -/
  | noServer
  | noSocket
  /-- With whether an epoll instance was created. -/
  | notRegistered (fd : Int) (created : Bool)
  | refused (fd : Int) (created : Bool)
  | connected (fd : Int) (created : Bool)
  deriving DecidableEq, Repr

/-- A call with its outcome. -/
inductive ClientCall where
  /-- `ipc_reconnect_to_server`. -/
  | reconnect (outcome : ReconnectOutcome)
  /-- `get_response_with_epoll`, with whether the socket is reported and read. -/
  | receive (created readable : Bool)
  /-- A sending function with what `write` says. -/
  | sendQuery (ok : Bool)
  /-- `ipc_exit_cleanup`. -/
  | exitCleanup
  deriving DecidableEq, Repr

namespace ClientCall

/-- The call stores the number of a new socket. -/
def stores : ClientCall → Bool
  | reconnect (.refused _ _) | reconnect (.connected _ _) => true
  | _ => false

/-- The call leaves the number of a closed socket behind: it stores one that is refused, or it
closes the stored one, if a number is stored, and stores no other. -/
def strands (stored : Bool) : ClientCall → Bool
  | reconnect (.connected _ _) => false
  | reconnect (.refused _ _) => true
  | reconnect _ => stored
  | receive _ _ => false
  | sendQuery ok => stored && !ok
  | exitCleanup => stored

/-- The call is a wait of the loop. -/
def waits : ClientCall → Bool
  | receive _ _ => true
  | _ => false

/-- In a sequence of calls, only waits of the loop come after the first that leaves the number
of a closed socket behind. -/
def QuietOnceStranded (stored : Bool) : List ClientCall → Prop
  | [] => True
  | call :: calls =>
    if call.strands stored then ∀ c ∈ calls, c.waits = true
    else QuietOnceStranded (stored || call.stores) calls

end ClientCall

/-- The variables of the client and its open sockets. -/
structure ClientSockets where
  socketClient : Int
  epollInitialized : Bool
  socketRunning : Bool
  table : DescriptorTable

namespace ClientSockets

/-- `src/APP/octopus_ipc_app_client.cpp:33–34`. -/
def init : ClientSockets := ⟨-1, false, true, DescriptorTable.empty⟩

/-- `src/IPC/octopus_ipc_socket.cpp:186–191`. -/
def closeSocket (s : ClientSockets) (fd : Int) : ClientSockets :=
  { s with table := s.table.close fd }

/-- `src/IPC/octopus_ipc_socket.cpp:165–182`. -/
def openSocket (s : ClientSockets) (fd : Int) : ClientSockets :=
  { s with table := s.table.acquire fd }

/-- `init_epoll` and `register_socket_fd`, which calls `epoll_ctl` only with an instance;
`src/IPC/octopus_ipc_socket.cpp:97–145`. -/
def registerSocketFd (s : ClientSockets) (fd : Int) (created : Bool) : ClientSockets :=
  if s.epollInitialized || created then
    { s with epollInitialized := true, table := s.table.use fd }
  else s

/-- `src/APP/octopus_ipc_app_client.cpp:366–415`. -/
def reconnect (s : ClientSockets) : ReconnectOutcome → ClientSockets
  | .noServer => s.closeSocket s.socketClient
  | .noSocket => s.closeSocket s.socketClient
  | .notRegistered fd created =>
    (((s.closeSocket s.socketClient).openSocket fd).registerSocketFd fd created).closeSocket fd
  | .refused fd created =>
    -- `connect_to_socket` closes the socket that is already stored
    { ((s.closeSocket s.socketClient).openSocket fd).registerSocketFd fd created with
      socketClient := fd }.closeSocket fd
  | .connected fd created =>
    { ((s.closeSocket s.socketClient).openSocket fd).registerSocketFd fd created with
      socketClient := fd }

/-- The read of the loop, with the registration in case there is no instance yet;
`src/IPC/octopus_ipc_socket.cpp:504–542`. -/
def receive (s : ClientSockets) (created readable : Bool) : ClientSockets :=
  let s :=
    if !s.epollInitialized && created then
      { s with epollInitialized := true, table := s.table.use s.socketClient }
    else s
  if readable then { s with table := s.table.use s.socketClient } else s

/-- `src/APP/octopus_ipc_app_client.cpp:205–222` and `src/IPC/octopus_ipc_socket.cpp:467–485`. -/
def sendQuery (s : ClientSockets) (ok : Bool) : ClientSockets :=
  if s.socketClient < 0 then s
  else
    let written := { s with table := s.table.use s.socketClient }
    if ok then written else written.closeSocket s.socketClient

/-- `src/APP/octopus_ipc_app_client.cpp:641–698`. -/
def exitCleanup (s : ClientSockets) : ClientSockets :=
  { s.closeSocket s.socketClient with socketRunning := false }

/-- What a call does. -/
def apply (s : ClientSockets) : ClientCall → ClientSockets
  | .reconnect outcome => s.reconnect outcome
  | .receive created readable => s.receive created readable
  | .sendQuery ok => s.sendQuery ok
  | .exitCleanup => s.exitCleanup

/-- The number a reconnect obtains, if it does, is free when the old socket is closed. -/
def Obtains (s : ClientSockets) : ReconnectOutcome → Prop
  | .noServer | .noSocket => True
  | .notRegistered fd _ => (s.table.close s.socketClient).Fresh fd
  | .refused fd created | .connected fd created =>
    (s.table.close s.socketClient).Fresh fd ∧ (s.epollInitialized || created) = true

instance (s : ClientSockets) : (outcome : ReconnectOutcome) → Decidable (s.Obtains outcome)
  | .noServer | .noSocket => inferInstanceAs (Decidable True)
  | .notRegistered _ _ => inferInstanceAs (Decidable (DescriptorTable.Fresh _ _))
  | .refused _ _ | .connected _ _ => inferInstanceAs (Decidable (_ ∧ _))

/-- When a call can end like this. The loop reads only with a number stored, and what is not
open is not reported. -/
def Enabled (s : ClientSockets) : ClientCall → Prop
  | .reconnect outcome => s.Obtains outcome
  | .receive _ readable =>
    0 ≤ s.socketClient ∧ (readable = true → s.table.opened s.socketClient = true)
  | .sendQuery _ | .exitCleanup => True

instance (s : ClientSockets) : (call : ClientCall) → Decidable (s.Enabled call)
  | .reconnect outcome => inferInstanceAs (Decidable (s.Obtains outcome))
  | .receive _ _ => inferInstanceAs (Decidable (_ ∧ (_ → _)))
  | .sendQuery _ | .exitCleanup => inferInstanceAs (Decidable True)

/-- The calls as a transition system. -/
def system : StepSystem ClientSockets ClientCall := StepSystem.ofCommands init Enabled apply

variable {s s' : ClientSockets} {p p' : ClientProcess} {call : ClientCall}
  {calls : List ClientCall} {stored : Bool}

/-! ### Sequences of calls -/

/-- The variables agree with the number of a socket having been stored, the socket under it
being open. -/
def Settled (s : ClientSockets) (stored : Bool) : Prop :=
  s.table.proper = true ∧ (stored = true ↔ 0 ≤ s.socketClient) ∧
    (stored = true → s.table.opened s.socketClient = true ∧ s.epollInitialized = true)

/-- The number of a closed socket is stored. -/
def Stranded (s : ClientSockets) : Prop :=
  0 ≤ s.socketClient ∧ s.table.opened s.socketClient = false ∧ s.epollInitialized = true

/-- The first thing an attempt to reconnect does is to close the stored number. -/
theorem proper_closeSocket_of_reconnect {outcome : ReconnectOutcome}
    (h : (s.reconnect outcome).table.proper = true) :
    (s.closeSocket s.socketClient).table.proper = true := by
  have hregister {fd : Int} {created : Bool}
      (h : (((s.closeSocket s.socketClient).openSocket fd).registerSocketFd fd
        created).table.proper = true) : (s.closeSocket s.socketClient).table.proper = true := by
    unfold registerSocketFd at h
    split at h
    · exact (DescriptorTable.proper_use_iff.mp h).1
    · exact h
  cases outcome with
  | noServer | noSocket => exact h
  | notRegistered | refused => exact hregister (DescriptorTable.proper_close_iff.mp h).1
  | connected => exact hregister h

/-- A table that is proper after a call was proper before it. -/
theorem proper_of_apply (h : (s.apply call).table.proper = true) : s.table.proper = true := by
  have huse {t : DescriptorTable} {fd : Int} (h : (t.use fd).proper = true) :
      t.proper = true := (DescriptorTable.proper_use_iff.mp h).1
  cases call with
  | reconnect outcome => exact huse (proper_closeSocket_of_reconnect h)
  | receive created readable =>
    simp only [apply, receive] at h
    split at h <;> split at h
    · exact huse (huse h)
    · exact huse h
    · exact huse h
    · exact h
  | sendQuery ok =>
    simp only [apply, sendQuery] at h
    split at h
    · exact h
    · split at h
      · exact huse h
      · exact huse (huse h)
  | exitCleanup => exact huse h

theorem proper_of_run (h : system.run (fun _ _ ↦ True) s calls = some s')
    (hproper : s'.table.proper = true) : s.table.proper = true := by
  induction calls generalizing s with
  | nil =>
    cases h
    exact hproper
  | cons call calls ih =>
    obtain ⟨-, -, hrun⟩ := StepSystem.run_cons_of_commands_iff.mp h
    exact proper_of_apply (ih hrun)

@[simp] theorem opened_registerSocketFd (fd : Int) (created : Bool) :
    (s.registerSocketFd fd created).table.opened = s.table.opened := by
  unfold registerSocketFd
  split <;> rfl

@[simp] theorem socketClient_registerSocketFd (fd : Int) (created : Bool) :
    (s.registerSocketFd fd created).socketClient = s.socketClient := by
  unfold registerSocketFd
  split <;> rfl

theorem epollInitialized_registerSocketFd (fd : Int) (created : Bool) :
    (s.registerSocketFd fd created).epollInitialized = (s.epollInitialized || created) := by
  unfold registerSocketFd
  split
  · next h => exact h.symm
  · next h =>
    have hnone := Bool.eq_false_iff.mpr h
    rw [hnone]
    exact (Bool.or_eq_false_iff.mp hnone).1

/-- A new socket may be registered. -/
theorem proper_registerSocketFd_openSocket (h : s.table.proper = true) (fd : Int)
    (created : Bool) :
    ((s.openSocket fd).registerSocketFd fd created).table.proper = true := by
  unfold registerSocketFd
  split
  · exact DescriptorTable.proper_use_iff.mpr ⟨h, .inr DescriptorTable.opened_acquire_self⟩
  · exact h

/-- The stored number may be used and closed while it is settled. -/
theorem Settled.usable (h : s.Settled stored) :
    s.socketClient < 0 ∨ s.table.opened s.socketClient = true := by
  obtain ⟨-, hstored, hopen⟩ := h
  rcases Int.lt_or_le s.socketClient 0 with hneg | hpos
  · exact .inl hneg
  · exact .inr (hopen (hstored.mpr hpos)).1

/-- An attempt that closes the stored socket and stores no other strands its number. -/
private theorem Settled.of_closed (h : s.Settled stored) (t : ClientSockets)
    (hproper : t.table.proper = true) (hsame : t.socketClient = s.socketClient)
    (hclosed : t.table.opened = (s.table.close s.socketClient).opened)
    (hepoll : s.epollInitialized = true → t.epollInitialized = true) :
    if stored = true then t.table.proper = true ∧ t.Stranded else t.Settled false := by
  obtain ⟨-, hstored, hopen⟩ := h
  split
  · next hs =>
    refine ⟨hproper, hsame ▸ hstored.mp hs, ?_, hepoll (hopen hs).2⟩
    rw [hclosed, hsame]
    exact DescriptorTable.opened_close_self
  · next hs =>
    refine ⟨hproper, ?_, nofun⟩
    rw [hsame]
    exact iff_of_false nofun fun hpos ↦ hs (hstored.mpr hpos)

private theorem Settled.reconnect {outcome : ReconnectOutcome} (h : s.Settled stored)
    (he : s.Obtains outcome) :
    if (ClientCall.reconnect outcome).strands stored = true then
      (s.reconnect outcome).table.proper = true ∧ (s.reconnect outcome).Stranded
    else (s.reconnect outcome).Settled (stored || (ClientCall.reconnect outcome).stores) := by
  have hclosed : (s.closeSocket s.socketClient).table.proper = true :=
    DescriptorTable.proper_close_iff.mpr ⟨h.1, h.usable⟩
  cases outcome with
  | noServer | noSocket =>
    have hfails := h.of_closed (s.closeSocket s.socketClient) hclosed rfl rfl id
    cases stored <;> exact hfails
  | notRegistered fd created =>
    have hregistered := proper_registerSocketFd_openSocket hclosed fd created
    have hfails := h.of_closed (s.reconnect (.notRegistered fd created)) ?_ ?_ ?_ ?_
    · cases stored <;> exact hfails
    · exact DescriptorTable.proper_close_iff.mpr
        ⟨hregistered, .inr (by
          rw [opened_registerSocketFd]
          exact DescriptorTable.opened_acquire_self)⟩
    · exact socketClient_registerSocketFd fd created
    · have hopened := DescriptorTable.opened_close_acquire he.2
      rw [← hopened]
      exact congrArg (Function.update · fd false) (opened_registerSocketFd fd created)
    · intro hepoll
      have hinit := epollInitialized_registerSocketFd fd created
        (s := (s.closeSocket s.socketClient).openSocket fd)
      rw [show ((s.closeSocket s.socketClient).openSocket fd).epollInitialized = true from hepoll]
        at hinit
      exact hinit
  | refused fd created =>
    obtain ⟨hfresh, hinit⟩ := he
    have hregistered := proper_registerSocketFd_openSocket hclosed fd created
    refine ⟨DescriptorTable.proper_close_iff.mpr ⟨hregistered, .inr ?_⟩, hfresh.1,
      DescriptorTable.opened_close_self, ?_⟩
    · rw [opened_registerSocketFd]
      exact DescriptorTable.opened_acquire_self
    · exact (epollInitialized_registerSocketFd fd created).trans hinit
  | connected fd created =>
    obtain ⟨hfresh, hinit⟩ := he
    have hregistered := proper_registerSocketFd_openSocket hclosed fd created
    have hsettled : (s.reconnect (.connected fd created)).Settled true := by
      refine ⟨hregistered, iff_of_true rfl hfresh.1, fun _ ↦ ⟨?_, ?_⟩⟩
      · rw [show (s.reconnect (.connected fd created)).table.opened = _ from
          opened_registerSocketFd fd created]
        exact DescriptorTable.opened_acquire_self
      · exact (epollInitialized_registerSocketFd fd created).trans hinit
    cases stored <;> exact hsettled

/-- A call from a settled state leaves a settled or a stranded state, as it says. -/
theorem Settled.apply (h : s.Settled stored) (he : s.Enabled call) :
    if call.strands stored = true then
      (s.apply call).table.proper = true ∧ (s.apply call).Stranded
    else (s.apply call).Settled (stored || call.stores) := by
  cases call with
  | reconnect outcome => exact h.reconnect he
  | receive created readable =>
    have hs : stored = true := h.2.1.mpr he.1
    obtain ⟨hopen, hinit⟩ := h.2.2 hs
    have hread : (s.table.use s.socketClient).proper = true :=
      DescriptorTable.proper_use_iff.mpr ⟨h.1, .inr hopen⟩
    subst hs
    cases readable with
    | false =>
      simp only [ClientSockets.apply, receive, hinit]
      exact h
    | true =>
      simp only [ClientSockets.apply, receive, hinit]
      exact ⟨hread, h.2⟩
  | sendQuery ok =>
    cases stored with
    | false =>
      have hneg : s.socketClient < 0 := by
        have hpos : ¬ 0 ≤ s.socketClient := fun hpos ↦ Bool.false_ne_true (h.2.1.mpr hpos)
        omega
      simp only [ClientSockets.apply, sendQuery, if_pos hneg]
      exact h
    | true =>
      have hpos : 0 ≤ s.socketClient := h.2.1.mp rfl
      obtain ⟨hopen, hinit⟩ := h.2.2 rfl
      have hwrite : (s.table.use s.socketClient).proper = true :=
        DescriptorTable.proper_use_iff.mpr ⟨h.1, .inr hopen⟩
      simp only [ClientSockets.apply, sendQuery, if_neg (Int.not_lt.mpr hpos)]
      cases ok with
      | true => exact ⟨hwrite, h.2⟩
      | false =>
        exact ⟨DescriptorTable.proper_close_iff.mpr ⟨hwrite, .inr hopen⟩, hpos,
          DescriptorTable.opened_close_self, hinit⟩
  | exitCleanup =>
    have hclosed : (s.closeSocket s.socketClient).table.proper = true :=
      DescriptorTable.proper_close_iff.mpr ⟨h.1, h.usable⟩
    have hfails := h.of_closed s.exitCleanup hclosed rfl rfl id
    cases stored <;> exact hfails

/-- Every call but a wait uses the stranded number. -/
theorem Stranded.not_proper (h : s.Stranded) (hcall : call.waits = false) :
    ¬ (s.apply call).table.proper = true := by
  obtain ⟨hpos, hclosed, -⟩ := h
  have hbad : ¬ (s.closeSocket s.socketClient).table.proper = true :=
    DescriptorTable.not_proper_use hpos hclosed
  cases call with
  | receive => cases hcall
  | exitCleanup => exact hbad
  | sendQuery ok =>
    have hwrite : ¬ (s.table.use s.socketClient).proper = true :=
      DescriptorTable.not_proper_use hpos hclosed
    simp only [ClientSockets.apply, sendQuery, if_neg (Int.not_lt.mpr hpos)]
    cases ok with
    | true => exact hwrite
    | false => exact fun h ↦ hwrite (DescriptorTable.proper_close_iff.mp h).1
  | reconnect outcome =>
    exact fun hproper ↦ hbad (proper_closeSocket_of_reconnect hproper)

/-- A wait on a stranded number reports nothing and changes nothing. -/
theorem Stranded.apply_wait (h : s.Stranded) (hcall : call.waits = true) (he : s.Enabled call) :
    s.apply call = s := by
  cases call with
  | receive created readable =>
    cases readable with
    | true => cases (h.2.1.symm.trans (he.2 rfl))
    | false => simp only [ClientSockets.apply, receive, h.2.2]; rfl
  | _ => cases hcall

/-- Behind a stranded number only waits keep the table proper. -/
theorem Stranded.proper_iff (h : s.Stranded) (hproper : s.table.proper = true)
    (hrun : system.run (fun _ _ ↦ True) s calls = some s') :
    s'.table.proper = true ↔ ∀ c ∈ calls, c.waits = true := by
  induction calls with
  | nil =>
    cases hrun
    exact iff_of_true hproper fun _ hc ↦ absurd hc List.not_mem_nil
  | cons call calls ih =>
    obtain ⟨-, he, hrun⟩ := StepSystem.run_cons_of_commands_iff.mp hrun
    rw [List.forall_mem_cons]
    cases hcall : call.waits with
    | true =>
      rw [h.apply_wait hcall he] at hrun
      exact (ih hrun).trans (and_iff_right rfl).symm
    | false =>
      refine iff_of_false (fun hproper' ↦ ?_) fun hwaits ↦ Bool.false_ne_true hwaits.1
      exact h.not_proper hcall (proper_of_run hrun hproper')

/-- From a settled state the table stays proper exactly in the quiet sequences. -/
theorem Settled.proper_iff (h : s.Settled stored)
    (hrun : system.run (fun _ _ ↦ True) s calls = some s') :
    s'.table.proper = true ↔ ClientCall.QuietOnceStranded stored calls := by
  induction calls generalizing s stored with
  | nil =>
    cases hrun
    exact iff_of_true h.1 trivial
  | cons call calls ih =>
    obtain ⟨-, he, hrun⟩ := StepSystem.run_cons_of_commands_iff.mp hrun
    have hnext := h.apply he
    rw [ClientCall.QuietOnceStranded]
    split
    · next hs =>
      rw [if_pos hs] at hnext
      exact hnext.2.proper_iff hnext.1 hrun
    · next hs =>
      rw [if_neg hs] at hnext
      exact ih hnext hrun

theorem settled_init : init.Settled false := ⟨rfl, iff_of_false nofun (by decide), nofun⟩

/-- Whatever sequence of calls is made with whatever outcomes: every number that is handed to
the kernel is that of an open socket, so that none is closed twice or used when it is closed,
if and only if the sequence is quiet once a number is stranded. -/
theorem proper_iff_quietOnceStranded (hrun : system.run (fun _ _ ↦ True) init calls = some s) :
    s.table.proper = true ↔ ClientCall.QuietOnceStranded false calls :=
  settled_init.proper_iff hrun

/-- Two connections, with a message sent over each, and the cleanup. -/
def cleanedOnce : List ClientCall :=
  [.reconnect (.connected 3 true), .sendQuery true, .receive false true,
    .reconnect (.connected 4 false), .sendQuery true, .exitCleanup, .receive false false]

theorem proper_cleanedOnce :
    ∃ s, system.run (fun _ _ ↦ True) init cleanedOnce = some s ∧ s.table.proper = true := by
  have hrun : ∃ s, system.run (fun _ _ ↦ True) init cleanedOnce = some s := ⟨_, rfl⟩
  obtain ⟨s, hs⟩ := hrun
  refine ⟨s, hs, (proper_iff_quietOnceStranded hs).mpr ?_⟩
  simp [cleanedOnce, ClientCall.QuietOnceStranded, ClientCall.strands, ClientCall.stores,
    ClientCall.waits]

/-- An interrupt runs the cleanup twice, and the second closes the number again; a refused
connection, or a failed send, is closed again by the next attempt. -/
theorem not_proper_closedTwice :
    (∃ s, system.run (fun _ _ ↦ True) init
        [.reconnect (.connected 3 true), .exitCleanup, .exitCleanup] = some s ∧
      s.table.proper = false) ∧
      (∃ s, system.run (fun _ _ ↦ True) init
        [.reconnect (.refused 3 true), .reconnect (.connected 4 false)] = some s ∧
      s.table.proper = false) ∧
      ∃ s, system.run (fun _ _ ↦ True) init
        [.reconnect (.connected 3 true), .sendQuery false, .reconnect (.connected 4 false)] =
          some s ∧ s.table.proper = false :=
  ⟨⟨_, rfl, rfl⟩, ⟨_, rfl, rfl⟩, _, rfl, rfl⟩

/-! ### The calls and the threads -/

/-- The variables and the open sockets of the process are those of the calls. -/
def Agrees (s : ClientSockets) (p : ClientProcess) : Prop :=
  p.socketClient = s.socketClient ∧ p.epollInitialized = s.epollInitialized ∧
    ∀ fd, (p.kernel fd).isSome = s.table.opened fd

/-- The steps of the receiver thread in an attempt to reconnect. -/
def reconnectSteps : ReconnectOutcome → List ClientAction
  | .noServer => [.closeOld, .checkServer false false]
  | .noSocket => [.closeOld, .checkServer true false, .openSocket none]
  | .notRegistered fd created =>
    [.closeOld, .checkServer true false, .openSocket (some fd), .register fd created false,
      .closeUnregistered fd]
  | .refused fd created =>
    [.closeOld, .checkServer true false, .openSocket (some fd), .register fd created true,
      .store fd, .connect fd false, .closeUnconnected fd]
  | .connected fd created =>
    [.closeOld, .checkServer true false, .openSocket (some fd), .register fd created true,
      .store fd, .connect fd true]

private theorem isSome_update {kernel : Int → Option ClientSocket} {opened : Int → Bool}
    (h : ∀ fd, (kernel fd).isSome = opened fd) (fd : Int) (x : Option ClientSocket) (k : Int) :
    (Function.update kernel fd x k).isSome = Function.update opened fd x.isSome k := by
  by_cases hk : k = fd
  · rw [hk, Function.update_self, Function.update_self]
  · rw [Function.update_of_ne hk, Function.update_of_ne hk]
    exact h k

/-- Closing a number closes the socket under it. -/
private theorem Agrees.closeSocket (h : s.Agrees p) (fd : Int) :
    (s.closeSocket fd).Agrees (p.setSocket fd none) :=
  ⟨h.1, h.2.1, isSome_update h.2.2 fd none⟩

/-- What the kernel notes of an open socket does not matter to the calls. -/
private theorem Agrees.noteSocket (h : s.Agrees p) (fd : Int) (f : ClientSocket → ClientSocket) :
    s.Agrees (p.setSocket fd ((p.kernel fd).map f)) := by
  refine ⟨h.1, h.2.1, fun k ↦ ?_⟩
  have hset := isSome_update h.2.2 fd ((p.kernel fd).map f) k
  rw [Option.isSome_map, h.2.2 fd, Function.update_eq_self] at hset
  exact hset

/-- The number of the new socket is stored. -/
private theorem Agrees.store (h : s.Agrees p) (fd : Int) :
    { s with socketClient := fd }.Agrees (p.apply (.store fd)) :=
  ⟨rfl, h.2⟩

/-- The old socket is closed and a new one opened. -/
private theorem Agrees.reopen (h : s.Agrees p) (fd : Int) :
    ((s.closeSocket s.socketClient).openSocket fd).Agrees
      (((p.apply .closeOld).apply (.checkServer true false)).apply (.openSocket (some fd))) := by
  have hclosed : (s.closeSocket s.socketClient).Agrees (p.setSocket p.socketClient none) :=
    h.1 ▸ h.closeSocket p.socketClient
  exact ⟨h.1, h.2.1, isSome_update hclosed.2.2 fd (some ⟨false, false⟩)⟩

/-- The new socket is registered, or is not. -/
private theorem Agrees.register (h : s.Agrees p) (fd : Int) (created ok : Bool) :
    (s.registerSocketFd fd created).Agrees (p.apply (.register fd created ok)) := by
  have hnoted : s.Agrees (p.setSocket fd ((p.kernel fd).map fun x ↦ { x with registered := true })) :=
    h.noteSocket fd _
  have hinit : (p.epollInitialized || created) = (s.registerSocketFd fd created).epollInitialized := by
    rw [epollInitialized_registerSocketFd, h.2.1]
  have hsocket := socketClient_registerSocketFd (s := s) fd created
  have hopened := opened_registerSocketFd (s := s) fd created
  cases ok with
  | true => exact ⟨hsocket ▸ h.1, hinit, fun k ↦ hopened ▸ hnoted.2.2 k⟩
  | false => exact ⟨hsocket ▸ h.1, hinit, fun k ↦ hopened ▸ h.2.2 k⟩

private theorem run_apply {a : ClientAction} {as : List ClientAction} (he : p.Enabled a)
    (hrun : ClientProcess.system.run (fun _ _ ↦ True) (p.apply a) as = some p') :
    ClientProcess.system.run (fun _ _ ↦ True) p (a :: as) = some p' :=
  StepSystem.run_cons_of_commands_iff.mpr ⟨trivial, he, hrun⟩

/-- An attempt to reconnect is a run of the receiver thread that nobody interrupts. -/
theorem agrees_reconnect {outcome : ReconnectOutcome} (h : s.Agrees p)
    (hloop : p.loop = .closingOld) (he : s.Obtains outcome) :
    ∃ p', ClientProcess.system.run (fun _ _ ↦ True) p (reconnectSteps outcome) = some p' ∧
      p'.loop = .top ∧ (s.reconnect outcome).Agrees p' := by
  have hclosed : (s.closeSocket s.socketClient).Agrees (p.setSocket p.socketClient none) :=
    h.1 ▸ h.closeSocket p.socketClient
  have hfree {fd : Int} (hfresh : (s.table.close s.socketClient).Fresh fd) :
      ∀ n ∈ some fd, 0 ≤ n ∧ (p.setSocket p.socketClient none).kernel n = none := by
    intro n hn
    cases hn
    have hnone := (hclosed.2.2 fd).trans hfresh.2
    rw [Option.isSome_eq_false_iff, Option.isNone_iff_eq_none] at hnone
    exact ⟨hfresh.1, hnone⟩
  cases outcome with
  | noServer => exact ⟨_, run_apply hloop (run_apply rfl rfl), rfl, hclosed⟩
  | noSocket =>
    exact ⟨_, run_apply hloop (run_apply rfl (run_apply ⟨rfl, nofun⟩ rfl)), rfl, hclosed⟩
  | notRegistered fd created =>
    refine ⟨_, run_apply hloop (run_apply rfl (run_apply ⟨rfl, hfree he⟩
      (run_apply ⟨rfl, nofun⟩ (run_apply rfl rfl)))), rfl, ?_⟩
    exact ((h.reopen fd).register fd created false).closeSocket fd
  | refused fd created =>
    obtain ⟨hfresh, hinit⟩ := he
    have hready : (p.epollInitialized || created) = true := h.2.1 ▸ hinit
    have hregistered := (h.reopen fd).register fd created true
    refine ⟨_, run_apply hloop (run_apply rfl (run_apply ⟨rfl, hfree hfresh⟩
      (run_apply ⟨rfl, fun _ ↦ ⟨hready, ?_⟩⟩ (run_apply rfl (run_apply ⟨rfl, nofun⟩
        (run_apply rfl rfl)))))), rfl, ?_⟩
    · exact ((h.reopen fd).2.2 fd).trans DescriptorTable.opened_acquire_self
    · exact (hregistered.store fd).closeSocket fd
  | connected fd created =>
    obtain ⟨hfresh, hinit⟩ := he
    have hready : (p.epollInitialized || created) = true := h.2.1 ▸ hinit
    have hregistered := (h.reopen fd).register fd created true
    have hopen := ((h.reopen fd).2.2 fd).trans DescriptorTable.opened_acquire_self
    refine ⟨_, run_apply hloop (run_apply rfl (run_apply ⟨rfl, hfree hfresh⟩
      (run_apply ⟨rfl, fun _ ↦ ⟨hready, hopen⟩⟩ (run_apply rfl (run_apply ⟨rfl, fun _ ↦ ?_⟩
        rfl))))), rfl, ?_⟩
    · refine (hregistered.2.2 fd).trans ?_
      rw [opened_registerSocketFd]
      exact DescriptorTable.opened_acquire_self
    · exact (hregistered.store fd).noteSocket fd _

end ClientSockets

end OctopusIpc.Client

import Mathlib.Logic.Function.Basic
import OctopusIpc.Base.StepSystem
import OctopusIpc.Server.Registry

/-!
# The threads of the server process

The accept loop, one handler thread for each accepted connection, and the threads in which
the library calls the push callback, interleaved at the points where they act on descriptor
numbers, on the registry or on `server_mutex`. The kernel maps a number to the connection
that is open under it and may hand a closed number out again at the next accept. What a
thread does on behalf of a connection goes to whatever is open under the number it holds,
and is recorded with both. A connection also carries, for the specification only, the record
that it should have in the registry.
-/

namespace OctopusIpc.Server

/-- `Socket::send_response` and `Socket::send_buff`. -/
inductive SendKind where
  | response
  | buff
  deriving DecidableEq, Repr

/-- What one `write()` does: take some or all of the bytes, or fail with `EINTR`, with
`EAGAIN` or `EWOULDBLOCK`, with `EPIPE` or `ECONNRESET`, or with another error. -/
inductive WriteOutcome where
  | accepted (all : Bool)
  | interrupted
  | wouldBlock
  | peerGone
  | failed
  deriving DecidableEq, Repr

/-- Where a thread is inside a send: before `server_mutex`, before the next `write()`, or
before the `close_socket` that follows a failure. -/
inductive SendPc where
  | waiting
  | writing
  | closing
  deriving DecidableEq, Repr

/-- Where a send goes on after a `write()`, nowhere if it returns;
`src/IPC/octopus_ipc_socket.cpp:345–354,361–395`. -/
def afterWrite : SendKind → WriteOutcome → Option SendPc
  | .response, .accepted _ => none
  | .response, _ => some .closing
  | .buff, .accepted all => if all then none else some .writing
  | .buff, .interrupted | .buff, .wouldBlock => some .writing
  | .buff, .peerGone => some .closing
  | .buff, .failed => none

/-- Where the life of a connection is, in the accept loop and then in its handler thread. -/
inductive Phase where
  | absent
  /-- Accepted, `ipc_server_add_client` not yet called. -/
  | accepted
  /-- Before `get_query`. -/
  | atTop
  /-- In `get_query`, the poll having reported data. -/
  | readable
  /-- Inside a handler, or after it. -/
  | handling
  /-- Inside a send to its client. -/
  | sending (kind : SendKind) (pc : SendPc)
  /-- At the label `cleanup`. -/
  | ending
  /-- After `close`, before `ipc_server_remove_client`. -/
  | closed
  | gone
  deriving DecidableEq, Repr

/-- The stages of that life that others can tell apart. -/
inductive Stage where
  | absent
  | accepted
  | serving
  | closed
  | gone
  deriving DecidableEq, Repr

/-- The stage of a phase. -/
def Phase.stage : Phase → Stage
  | absent => .absent
  | accepted => .accepted
  | atTop | readable | handling | sending _ _ | ending => .serving
  | closed => .closed
  | gone => .gone

/-- A connection: its descriptor number, its phase, how many closes were issued on its
behalf, and the record it should have. -/
structure Connection where
  fd : Int
  phase : Phase
  closes : Nat
  expected : ClientInfo

/-- A handler thread, by its connection, or a thread of the push callback. -/
inductive Thread where
  | handler (c : Nat)
  | push (p : Nat)
  deriving DecidableEq, Repr

/-- A thread inside a send: the number it holds, the connection it sends to, and where in
the send it is. -/
structure Sender where
  fd : Int
  owner : Nat
  kind : SendKind
  pc : SendPc

/-- A read, write or close: the connection on whose behalf it is issued, and the one that
is open under the number it is issued on, if any. -/
structure Operation where
  owner : Nat
  hit : Option Nat
  deriving DecidableEq, Repr

/-- The server process and the part of the kernel it acts on. -/
structure Process where
  kernel : Int → Option Nat
  clients : ActiveClients
  /-- The connection that inserted the record of a number. -/
  recordOwner : Int → Nat
  conns : Nat → Connection
  /-- The connection the accept loop has in hand. -/
  acceptor : Option Nat
  serverMutex : Option Thread
  pushes : Nat → Option Sender
  operations : List Operation

/-- What the poll in `get_query` reports. -/
inductive PollOutcome where
  | timeout
  | hangup
  | error
  | readable
  deriving DecidableEq, Repr

/-- The steps of the process. A choice of the kernel, of a peer or of a client's message is
part of the step. -/
inductive Action where
  /-- The kernel gives an accepted connection a free number;
  `src/IPC/octopus_ipc_server.cpp:1021`. -/
  | accept (c : Nat) (fd : Int)
  /-- The accept loop adds the client and starts its handler thread;
  `src/IPC/octopus_ipc_server.cpp:1035–1042`. -/
  | addClient (c : Nat)
  /-- The poll of `get_query`; `src/IPC/octopus_ipc_socket.cpp:260–277` and
  `src/IPC/octopus_ipc_server.cpp:369–390`. -/
  | poll (c : Nat) (outcome : PollOutcome)
  /-- The read of `get_query`; `src/IPC/octopus_ipc_socket.cpp:279–286`. -/
  | read (c : Nat) (ok : Bool)
  /-- A handler updates the record of a number, which may be another client's;
  `src/IPC/octopus_ipc_server.cpp:495,513`. -/
  | configure (c : Nat) (fd : Int) (u : Update)
  /-- A handler calls a send. -/
  | send (c : Nat) (kind : SendKind)
  /-- The client loop goes round. -/
  | next (c : Nat)
  /-- A push comes to a record whose flag is set; `src/IPC/octopus_ipc_server.cpp:275–302`. -/
  | visit (p : Nat) (fd : Int)
  /-- A sender locks `server_mutex`. -/
  | lock (t : Thread)
  /-- One `write()` of a send; `src/IPC/octopus_ipc_socket.cpp:345,363`. -/
  | write (t : Thread) (outcome : WriteOutcome)
  /-- The close after a failed write; `src/IPC/octopus_ipc_socket.cpp:351,384`. -/
  | closeFailed (t : Thread)
  /-- The handler's own close; `src/IPC/octopus_ipc_server.cpp:447`. -/
  | close (c : Nat)
  /-- `src/IPC/octopus_ipc_server.cpp:448`. -/
  | remove (c : Nat)

namespace Process

/-- No connection yet. -/
def init : Process where
  kernel _ := none
  clients := KeyedSet.empty
  recordOwner _ := 0
  conns _ := ⟨0, .absent, 0, ⟨0, true, []⟩⟩
  acceptor := none
  serverMutex := none
  pushes _ := none
  operations := []

/-- A connection enters a phase. -/
def setPhase (s : Process) (c : Nat) (phase : Phase) : Process :=
  { s with conns := Function.update s.conns c { s.conns c with phase := phase } }

/-- The send a thread is inside of. -/
def sender (s : Process) : Thread → Option Sender
  | .handler c =>
    match (s.conns c).phase with
    | .sending kind pc => some ⟨(s.conns c).fd, c, kind, pc⟩
    | _ => none
  | .push p => s.pushes p

/-- A thread inside a send goes on at another place of it, or returns from it. -/
def setSender (s : Process) (r : Sender) : Thread → Option SendPc → Process
  | .handler c, some pc => s.setPhase c (.sending r.kind pc)
  | .handler c, none => s.setPhase c .handling
  | .push p, some pc =>
    { s with pushes := Function.update s.pushes p (some { r with pc := pc }) }
  | .push p, none => { s with pushes := Function.update s.pushes p none }

/-- An operation is issued on a number on behalf of a connection. -/
def operate (s : Process) (owner : Nat) (fd : Int) : Process :=
  { s with operations := ⟨owner, s.kernel fd⟩ :: s.operations }

/-- A close is issued on a number on behalf of a connection. -/
def closeNumber (s : Process) (owner : Nat) (fd : Int) : Process :=
  { s.operate owner fd with
    kernel := Function.update s.kernel fd none
    conns := Function.update s.conns owner
      { s.conns owner with closes := (s.conns owner).closes + 1 } }

/-- When a step can be taken. -/
def Enabled (s : Process) : Action → Prop
  | .accept c fd =>
    (s.conns c).phase = .absent ∧ s.acceptor = none ∧ 0 ≤ fd ∧ s.kernel fd = none
  | .addClient c => (s.conns c).phase = .accepted
  | .poll c outcome =>
    (s.conns c).phase = .atTop ∧ (s.kernel (s.conns c).fd = none → outcome = .hangup)
  | .read c ok => (s.conns c).phase = .readable ∧ (s.kernel (s.conns c).fd = none → ok = false)
  | .configure c _ _ => (s.conns c).phase = .handling
  | .send c _ => (s.conns c).phase = .handling
  | .next c => (s.conns c).phase = .handling
  | .visit p fd => s.pushes p = none ∧ ∃ r ∈ s.clients.find? fd, r.flag = true
  | .lock t => s.serverMutex = none ∧ ∃ r ∈ s.sender t, r.pc = .waiting
  | .write t outcome =>
    ∃ r ∈ s.sender t, r.pc = .writing ∧ (s.kernel r.fd = none → outcome = .failed)
  | .closeFailed t => ∃ r ∈ s.sender t, r.pc = .closing
  | .close c => (s.conns c).phase = .ending
  | .remove c => (s.conns c).phase = .closed

instance (s : Process) : (a : Action) → Decidable (s.Enabled a)
  | .accept _ _ => inferInstanceAs (Decidable (_ ∧ _ ∧ _ ∧ _))
  | .addClient _ => inferInstanceAs (Decidable (_ = _))
  | .poll _ _ => inferInstanceAs (Decidable (_ ∧ (_ → _)))
  | .read _ _ => inferInstanceAs (Decidable (_ ∧ (_ → _)))
  | .configure _ _ _ => inferInstanceAs (Decidable (_ = _))
  | .send _ _ => inferInstanceAs (Decidable (_ = _))
  | .next _ => inferInstanceAs (Decidable (_ = _))
  | .visit p _ => inferInstanceAs (Decidable (s.pushes p = none ∧ ∃ r ∈ _, _))
  | .lock _ => inferInstanceAs (Decidable (_ ∧ ∃ r ∈ _, _))
  | .write _ _ => inferInstanceAs (Decidable (∃ r ∈ _, _))
  | .closeFailed _ => inferInstanceAs (Decidable (∃ r ∈ _, _))
  | .close _ => inferInstanceAs (Decidable (_ = _))
  | .remove _ => inferInstanceAs (Decidable (_ = _))

/-- What a step does. -/
def apply (s : Process) : Action → Process
  | .accept c fd =>
    { s with
      kernel := Function.update s.kernel fd (some c)
      acceptor := some c
      conns := Function.update s.conns c ⟨fd, .accepted, 0, ⟨fd, true, []⟩⟩ }
  | .addClient c =>
    let fd := (s.conns c).fd
    { s with
      clients := ipcServerAddClient s.clients fd [] true
      recordOwner :=
        if s.clients.find? fd = none then Function.update s.recordOwner fd c else s.recordOwner
      acceptor := none
      conns := Function.update s.conns c
        { s.conns c with phase := .atTop, expected := ⟨fd, true, []⟩ } }
  | .poll c outcome =>
    s.setPhase c (match outcome with
      | .timeout => .atTop
      | .hangup | .error => .ending
      | .readable => .readable)
  | .read c ok => (s.operate c (s.conns c).fd).setPhase c (if ok then .handling else .ending)
  | .configure _ fd u =>
    { s with
      clients := u.onClients s.clients fd
      conns := fun k ↦
        if (s.conns k).fd = fd then
          { s.conns k with expected := u.onRecord (s.conns k).expected }
        else s.conns k }
  | .send c kind => s.setPhase c (.sending kind .waiting)
  | .next c => s.setPhase c .atTop
  | .visit p fd =>
    { s with pushes := Function.update s.pushes p (some ⟨fd, s.recordOwner fd, .buff, .waiting⟩) }
  | .lock t =>
    match s.sender t with
    | some r => { s.setSender r t (some .writing) with serverMutex := some t }
    | none => s
  | .write t outcome =>
    match s.sender t with
    | some r =>
      { (s.operate r.owner r.fd).setSender r t (afterWrite r.kind outcome) with
        serverMutex := if afterWrite r.kind outcome = none then none else s.serverMutex }
    | none => s
  | .closeFailed t =>
    match s.sender t with
    | some r => { (s.closeNumber r.owner r.fd).setSender r t none with serverMutex := none }
    | none => s
  | .close c => (s.closeNumber c (s.conns c).fd).setPhase c .closed
  | .remove c =>
    { s.setPhase c .gone with clients := ipcServerRemoveClient s.clients (s.conns c).fd }

/-- The server process as a transition system. -/
def system : StepSystem Process Action := StepSystem.ofCommands init Enabled apply

/-- The step is not a failure of `write()` after which the sender closes the descriptor. -/
def NoClosingFailure (s : Process) : Action → Prop
  | .write t outcome => ∀ r ∈ s.sender t, afterWrite r.kind outcome ≠ some .closing
  | _ => True

/-! ### What a step leaves alone -/

/-- What the accept loop, the registry and the kernel have to do with a connection. -/
def view (x : Connection) : Int × Stage × Nat × ClientInfo :=
  (x.fd, x.phase.stage, x.closes, x.expected)

/-- The kernel, the registry and all connections look the same in both states. -/
structure SameView (s s' : Process) : Prop where
  kernel : s'.kernel = s.kernel
  clients : s'.clients = s.clients
  conns : ∀ k, view (s'.conns k) = view (s.conns k)

variable {s s' : Process}

@[simp] theorem setPhase_conns (s : Process) (c k : Nat) (phase : Phase) :
    (s.setPhase c phase).conns k =
      if k = c then { s.conns c with phase := phase } else s.conns k :=
  Function.update_apply ..

@[simp] theorem setSender_kernel (s : Process) (r : Sender) (t : Thread) (o : Option SendPc) :
    (s.setSender r t o).kernel = s.kernel := by
  cases t <;> cases o <;> rfl

@[simp] theorem setSender_clients (s : Process) (r : Sender) (t : Thread) (o : Option SendPc) :
    (s.setSender r t o).clients = s.clients := by
  cases t <;> cases o <;> rfl

@[simp] theorem setSender_operations (s : Process) (r : Sender) (t : Thread)
    (o : Option SendPc) : (s.setSender r t o).operations = s.operations := by
  cases t <;> cases o <;> rfl

@[simp] theorem operate_setSender_conns (s : Process) (owner : Nat) (fd : Int) (r : Sender)
    (t : Thread) (o : Option SendPc) :
    ((s.operate owner fd).setSender r t o).conns = (s.setSender r t o).conns := by
  cases t <;> cases o <;> rfl

theorem SameView.fd (h : SameView s s') (k : Nat) : (s'.conns k).fd = (s.conns k).fd :=
  congrArg (·.1) (h.conns k)

theorem SameView.stage (h : SameView s s') (k : Nat) :
    (s'.conns k).phase.stage = (s.conns k).phase.stage :=
  congrArg (·.2.1) (h.conns k)

theorem SameView.closes (h : SameView s s') (k : Nat) :
    (s'.conns k).closes = (s.conns k).closes :=
  congrArg (·.2.2.1) (h.conns k)

theorem SameView.expected (h : SameView s s') (k : Nat) :
    (s'.conns k).expected = (s.conns k).expected :=
  congrArg (·.2.2.2) (h.conns k)

/-- A connection enters another phase of the same stage. -/
theorem SameView.of_phase {c : Nat} {phase : Phase} (hk : s'.kernel = s.kernel)
    (hc : s'.clients = s.clients) (h : s'.conns = (s.setPhase c phase).conns)
    (hp : phase.stage = (s.conns c).phase.stage) : SameView s s' := by
  refine ⟨hk, hc, fun k ↦ ?_⟩
  rw [h, setPhase_conns]
  by_cases hkc : k = c
  · rw [if_pos hkc, hkc, view, view, hp]
  · rw [if_neg hkc]

theorem sender_handler_eq_some {c : Nat} {r : Sender} (h : s.sender (.handler c) = some r) :
    (s.conns c).phase = .sending r.kind r.pc ∧ r.fd = (s.conns c).fd ∧ r.owner = c := by
  simp only [sender] at h
  split at h
  · next kind pc hp =>
    cases h
    exact ⟨hp, rfl, rfl⟩
  · cases h

/-- A send goes on or returns. -/
theorem SameView.of_sender {t : Thread} {r : Sender} {o : Option SendPc}
    (hr : s.sender t = some r) (hk : s'.kernel = s.kernel) (hc : s'.clients = s.clients)
    (h : s'.conns = (s.setSender r t o).conns) : SameView s s' := by
  cases t with
  | handler c =>
    obtain ⟨hp, -, -⟩ := sender_handler_eq_some hr
    cases o with
    | none => exact .of_phase hk hc h (by rw [hp]; rfl)
    | some pc => exact .of_phase hk hc h (by rw [hp]; rfl)
  | push p =>
    cases o with
    | none => exact ⟨hk, hc, fun k ↦ by rw [h]; rfl⟩
    | some pc => exact ⟨hk, hc, fun k ↦ by rw [h]; rfl⟩

/-- The steps inside a handler thread or a push that only move it along. -/
def Internal : Action → Prop
  | .poll _ _ | .read _ _ | .send _ _ | .next _ | .visit _ _ | .lock _ | .write _ _ => True
  | _ => False

/-- The frame rule: those steps change nothing that others can see. -/
theorem sameView_of_internal {a : Action} (ha : Internal a) (he : s.Enabled a) :
    SameView s (s.apply a) := by
  cases a with
  | poll c outcome =>
    refine .of_phase rfl rfl rfl ?_
    rw [he.1]
    cases outcome <;> rfl
  | read c ok =>
    refine .of_phase rfl rfl rfl ?_
    rw [he.1]
    cases ok <;> rfl
  | send c kind => exact .of_phase rfl rfl rfl (by rw [show (s.conns c).phase = _ from he]; rfl)
  | next c => exact .of_phase rfl rfl rfl (by rw [show (s.conns c).phase = _ from he]; rfl)
  | visit p fd => exact ⟨rfl, rfl, fun _ ↦ rfl⟩
  | lock t =>
    obtain ⟨-, r, hr, -⟩ := he
    simp only [apply, Option.mem_def.mp hr]
    exact .of_sender hr (setSender_kernel ..) (setSender_clients ..) rfl
  | write t outcome =>
    obtain ⟨r, hr, -⟩ := he
    simp only [apply, Option.mem_def.mp hr]
    exact .of_sender hr (setSender_kernel ..) (setSender_clients ..)
      (operate_setSender_conns ..)
  | _ => exact ha.elim

end Process
end OctopusIpc.Server

import Mathlib.Logic.Function.Basic
import OctopusIpc.Base.StepSystem

/-!
# The client's connection

The receiver thread, which polls the descriptor in `socket_client` and reconnects, and the
threads that call `send_query`, interleaved at the points where they act on that variable or
on the kernel's table of sockets. `socket_client` is set when a new socket is registered and
never set back, so after the first attempt it stays non-negative: an attempt that fails
later, or a send that closes the descriptor, leaves the number of a closed socket in it. What the
server does at its end of a connection comes in with `Client.Recovery`.
-/

namespace OctopusIpc.Client

/-- An open socket: whether `connect` succeeded on it, and whether it is in the epoll set. -/
structure ClientSocket where
  connected : Bool
  registered : Bool
  deriving DecidableEq, Repr

/-- Where the receiver thread is. -/
inductive LoopPc where
  /-- Before the test of `socket_client`. -/
  | top
  /-- In `get_response_with_epoll`, before `epoll_wait`. -/
  | polling
  /-- In `get_response_with_epoll`, before `read`. -/
  | reading
  /-- At the start of `ipc_reconnect_to_server`. -/
  | closingOld
  | checkingServer
  | opening
  | registering (fd : Int)
  | closingUnregistered (fd : Int)
  | storing (fd : Int)
  | connecting (fd : Int)
  | closingUnconnected (fd : Int)
  deriving DecidableEq, Repr

/-- Where a thread that sends is: past its test of `socket_client`, in `send_query` before
the write, or there before the close after a failed write. -/
inductive SenderPc where
  | checked
  | writing (fd : Int)
  | closing (fd : Int)
  deriving DecidableEq, Repr

/-- The client process and the part of the kernel it acts on. -/
structure ClientProcess where
  socketClient : Int
  kernel : Int → Option ClientSocket
  epollInitialized : Bool
  loop : LoopPc
  senders : Nat → Option SenderPc

/-- What `epoll_wait` reports. -/
inductive PollEvent where
  | timeout
  | failed
  | readable
  deriving DecidableEq, Repr

/-- The steps, the outcome of a step being part of it. -/
inductive ClientAction where
  /-- The test at the top of the loop; `src/APP/octopus_ipc_app_client.cpp:498–506`. -/
  | testConnection
  /-- The registration on the first query; `src/IPC/octopus_ipc_socket.cpp:74–96,506–510`. -/
  | initEpoll (created : Bool)
  /-- `epoll_wait` returns; `src/IPC/octopus_ipc_socket.cpp:514–527`. -/
  | poll (event : PollEvent)
  /-- The read of the reported socket; `src/IPC/octopus_ipc_socket.cpp:530–538`. -/
  | read (ok : Bool)
  /-- A reconnect closes the stored number; `src/APP/octopus_ipc_app_client.cpp:369–371`. -/
  | closeOld
  /-- It looks for the server and starts it; `src/APP/octopus_ipc_app_client.cpp:374–380`. -/
  | checkServer (running started : Bool)
  /-- `src/APP/octopus_ipc_app_client.cpp:383–388`. -/
  | openSocket (fd : Option Int)
  /-- The new socket is registered; `src/APP/octopus_ipc_app_client.cpp:392–395`. -/
  | register (fd : Int) (created ok : Bool)
  /-- `src/APP/octopus_ipc_app_client.cpp:398–399`. -/
  | closeUnregistered (fd : Int)
  /-- `src/APP/octopus_ipc_app_client.cpp:401`. -/
  | store (fd : Int)
  /-- `src/IPC/octopus_ipc_socket.cpp:403–404`. -/
  | connect (fd : Int) (ok : Bool)
  /-- `src/IPC/octopus_ipc_socket.cpp:433`. -/
  | closeUnconnected (fd : Int)
  /-- A sender tests `socket_client`; `src/APP/octopus_ipc_app_client.cpp:207`. -/
  | testSend (p : Nat)
  /-- It reads `socket_client` again; `src/APP/octopus_ipc_app_client.cpp:221`. -/
  | loadSend (p : Nat)
  /-- `src/IPC/octopus_ipc_socket.cpp:475`. -/
  | write (p : Nat) (fd : Int) (ok : Bool)
  /-- The close after a failed write; `src/IPC/octopus_ipc_socket.cpp:478–482`. -/
  | closeSend (p : Nat) (fd : Int)

namespace ClientProcess

/-- The state in which the receiver thread starts;
`src/APP/octopus_ipc_app_client.cpp:34,626–627`. -/
def init : ClientProcess where
  socketClient := -1
  kernel _ := none
  epollInitialized := false
  loop := .top
  senders _ := none

/-- The descriptor is open, connected and registered. -/
def Live (s : ClientProcess) (fd : Int) : Prop := s.kernel fd = some ⟨true, true⟩

instance (s : ClientProcess) (fd : Int) : Decidable (s.Live fd) :=
  inferInstanceAs (Decidable (_ = _))

/-- When a step can be taken. A failure is always possible; a success needs the descriptor
to be open, and to be registered or connected where the kernel looks at that. -/
def Enabled (s : ClientProcess) : ClientAction → Prop
  | .testConnection => s.loop = .top
  | .initEpoll created =>
    s.loop = .polling ∧ s.epollInitialized = false ∧
      (created = true → (s.kernel s.socketClient).isSome = true)
  | .poll event =>
    s.loop = .polling ∧ s.epollInitialized = true ∧
      (event = .readable → ∃ x ∈ s.kernel s.socketClient, x.registered = true)
  | .read ok =>
    s.loop = .reading ∧ (ok = true → ∃ x ∈ s.kernel s.socketClient, x.connected = true)
  | .closeOld => s.loop = .closingOld
  | .checkServer _ _ => s.loop = .checkingServer
  | .openSocket fd => s.loop = .opening ∧ ∀ n ∈ fd, 0 ≤ n ∧ s.kernel n = none
  | .register fd created ok =>
    s.loop = .registering fd ∧
      (ok = true → (s.epollInitialized || created) = true ∧ (s.kernel fd).isSome = true)
  | .closeUnregistered fd => s.loop = .closingUnregistered fd
  | .store fd => s.loop = .storing fd
  | .connect fd ok => s.loop = .connecting fd ∧ (ok = true → (s.kernel fd).isSome = true)
  | .closeUnconnected fd => s.loop = .closingUnconnected fd
  | .testSend p => s.senders p = none ∧ 0 ≤ s.socketClient
  | .loadSend p => s.senders p = some .checked
  | .write p fd ok =>
    s.senders p = some (.writing fd) ∧ (ok = true → ∃ x ∈ s.kernel fd, x.connected = true)
  | .closeSend p fd => s.senders p = some (.closing fd)

instance (s : ClientProcess) : (a : ClientAction) → Decidable (s.Enabled a)
  | .testConnection => inferInstanceAs (Decidable (_ = _))
  | .initEpoll _ => inferInstanceAs (Decidable (_ ∧ _ ∧ (_ → _)))
  | .poll _ => inferInstanceAs (Decidable (_ ∧ _ ∧ (_ → ∃ x ∈ _, _)))
  | .read _ => inferInstanceAs (Decidable (_ ∧ (_ → ∃ x ∈ _, _)))
  | .closeOld => inferInstanceAs (Decidable (_ = _))
  | .checkServer _ _ => inferInstanceAs (Decidable (_ = _))
  | .openSocket fd => inferInstanceAs (Decidable (_ ∧ ∀ n ∈ fd, _ ∧ _))
  | .register _ _ _ => inferInstanceAs (Decidable (_ ∧ (_ → _ ∧ _)))
  | .closeUnregistered _ => inferInstanceAs (Decidable (_ = _))
  | .store _ => inferInstanceAs (Decidable (_ = _))
  | .connect _ _ => inferInstanceAs (Decidable (_ ∧ (_ → _)))
  | .closeUnconnected _ => inferInstanceAs (Decidable (_ = _))
  | .testSend _ => inferInstanceAs (Decidable (_ ∧ _))
  | .loadSend _ => inferInstanceAs (Decidable (_ = _))
  | .write _ _ _ => inferInstanceAs (Decidable (_ ∧ (_ → ∃ x ∈ _, _)))
  | .closeSend _ _ => inferInstanceAs (Decidable (_ = _))

/-- The socket under a number changes. -/
def setSocket (s : ClientProcess) (fd : Int) (x : Option ClientSocket) : ClientProcess :=
  { s with kernel := Function.update s.kernel fd x }

/-- A sender moves on. -/
def setSender (s : ClientProcess) (p : Nat) (pc : Option SenderPc) : ClientProcess :=
  { s with senders := Function.update s.senders p pc }

/-- What a step does. -/
def apply (s : ClientProcess) : ClientAction → ClientProcess
  | .testConnection =>
    { s with loop := if s.socketClient < 0 then .closingOld else .polling }
  | .initEpoll created =>
    if created then
      { s.setSocket s.socketClient ((s.kernel s.socketClient).map fun x ↦
          { x with registered := true }) with epollInitialized := true }
    else { s with loop := .closingOld }
  | .poll event =>
    { s with loop := match event with
      | .timeout => .top
      | .failed => .closingOld
      | .readable => .reading }
  | .read ok => { s with loop := if ok then .top else .closingOld }
  | .closeOld => { s.setSocket s.socketClient none with loop := .checkingServer }
  | .checkServer running started =>
    { s with loop := if running || started then .opening else .top }
  | .openSocket none => { s with loop := .top }
  | .openSocket (some fd) =>
    { s.setSocket fd (some ⟨false, false⟩) with loop := .registering fd }
  | .register fd created ok =>
    if ok then
      { s.setSocket fd ((s.kernel fd).map fun x ↦ { x with registered := true }) with
        epollInitialized := s.epollInitialized || created
        loop := .storing fd }
    else
      { s with
        epollInitialized := s.epollInitialized || created
        loop := .closingUnregistered fd }
  | .closeUnregistered fd => { s.setSocket fd none with loop := .top }
  | .store fd => { s with socketClient := fd, loop := .connecting fd }
  | .connect fd ok =>
    if ok then
      { s.setSocket fd ((s.kernel fd).map fun x ↦ { x with connected := true }) with
        loop := .top }
    else { s with loop := .closingUnconnected fd }
  | .closeUnconnected fd => { s.setSocket fd none with loop := .top }
  | .testSend p => s.setSender p (some .checked)
  | .loadSend p => s.setSender p (some (.writing s.socketClient))
  | .write p fd ok => s.setSender p (if ok then none else some (.closing fd))
  | .closeSend p fd => (s.setSocket fd none).setSender p none

/-- The client process as a transition system. -/
def system : StepSystem ClientProcess ClientAction := StepSystem.ofCommands init Enabled apply

/-! ### When the loop can recover -/

/-- At the top of the loop either a reconnect will be attempted or the stored descriptor is
open, connected and registered. -/
def Recoverable (s : ClientProcess) : Prop :=
  s.loop = .top → s.socketClient < 0 ∨ s.Live s.socketClient

/-- A reconnect attempt fails before its socket is stored only while no descriptor was ever
stored, and it does not fail to connect; a failed send closes its number only if nothing is
open under it, or while the loop is about to read from it or to close it anyway. -/
def KeepsConnection (s : ClientProcess) : ClientAction → Prop
  | .checkServer running started => (running || started) = false → s.socketClient < 0
  | .openSocket fd => fd = none → s.socketClient < 0
  | .register _ _ ok => ok = false → s.socketClient < 0
  | .connect _ ok => ok = true
  | .closeSend _ fd => s.kernel fd = none ∨ s.loop = .closingOld ∨ s.loop = .reading
  | _ => True

/-- The stored or the new descriptor, as far as the receiver thread relies on it at the
point where it is. -/
def Inv (s : ClientProcess) : Prop :=
  match s.loop with
  | .top => s.socketClient < 0 ∨ s.Live s.socketClient
  | .polling => s.Live s.socketClient
  | .reading => s.kernel s.socketClient = none ∨ s.Live s.socketClient
  | .closingUnregistered _ => s.socketClient < 0
  | .storing fd => ∃ x ∈ s.kernel fd, x.registered = true
  | .connecting fd => s.socketClient = fd ∧ ∃ x ∈ s.kernel fd, x.registered = true
  | .closingUnconnected _ => False
  | .closingOld | .checkingServer | .opening | .registering _ => True

theorem inv_init : Inv init := Or.inl (by decide)

theorem Inv.recoverable {s : ClientProcess} (h : Inv s) : Recoverable s := by
  intro ht
  simpa only [Inv, ht] using h

/-- A success on an open descriptor leaves it open with the bit set. -/
private theorem exists_registered {s : ClientProcess} {fd : Int}
    (h : (s.kernel fd).isSome = true) :
    ∃ x ∈ (s.kernel fd).map fun x ↦ { x with registered := true }, x.registered = true := by
  obtain ⟨x, hx⟩ := Option.isSome_iff_exists.mp h
  exact ⟨{ x with registered := true }, by rw [hx]; rfl, rfl⟩

/-- The invariant at a given point of the receiver thread. -/
private theorem Inv.at {s : ClientProcess} (h : Inv s) {pc : LoopPc} (hl : s.loop = pc) :
    Inv { s with loop := pc } := by
  subst hl
  exact h

/-- Every such step keeps what the receiver thread relies on. -/
theorem Inv.step {s : ClientProcess} (h : Inv s) {a : ClientAction}
    (hg : s.KeepsConnection a) (he : s.Enabled a) : Inv (s.apply a) := by
  cases a with
  | testConnection =>
    have h : s.socketClient < 0 ∨ s.Live s.socketClient := h.at he
    simp only [apply]
    split
    · trivial
    · next hneg => exact h.resolve_left hneg
  | initEpoll created =>
    have hlive : s.kernel s.socketClient = some ⟨true, true⟩ := h.at he.1
    simp only [apply]
    split
    · simp only [Inv, he.1, setSocket, Live, Function.update_self, hlive, Option.map_some]
    · trivial
  | poll event =>
    have hlive : s.Live s.socketClient := h.at he.1
    cases event with
    | timeout => exact Or.inr hlive
    | failed => trivial
    | readable => exact Or.inr hlive
  | read ok =>
    have h : s.kernel s.socketClient = none ∨ s.Live s.socketClient := h.at he.1
    cases ok with
    | true =>
      obtain ⟨x, hx, -⟩ := he.2 rfl
      refine Or.inr (h.resolve_left fun hnone ↦ ?_)
      rw [hnone] at hx
      cases hx
    | false => trivial
  | closeOld => trivial
  | checkServer running started =>
    simp only [apply]
    split
    · trivial
    · next hno => exact Or.inl (hg (by simpa using hno))
  | openSocket fd =>
    cases fd with
    | none => exact Or.inl (hg rfl)
    | some fd => trivial
  | register fd created ok =>
    cases ok with
    | true =>
      simp only [apply, Inv, if_true, setSocket, Function.update_self]
      exact exists_registered (he.2 rfl).2
    | false => exact hg rfl
  | closeUnregistered fd =>
    have h : s.socketClient < 0 := h.at he
    exact Or.inl h
  | store fd =>
    have h : ∃ x ∈ s.kernel fd, x.registered = true := h.at he
    exact ⟨rfl, h⟩
  | connect fd ok =>
    have h : s.socketClient = fd ∧ ∃ x ∈ s.kernel fd, x.registered = true := h.at he.1
    have ho : ok = true := hg
    subst ho
    obtain ⟨hs, ⟨c, r⟩, hx, rfl⟩ := h
    refine Or.inr ?_
    simp only [apply, if_true, Live, setSocket, hs, Function.update_self, Option.mem_def.mp hx,
      Option.map_some]
  | closeUnconnected fd =>
    have h : False := h.at he
    exact h.elim
  | testSend p => exact h
  | loadSend p => exact h
  | write p fd ok => exact h
  | closeSend p fd =>
    rcases hg with hnone | hl | hl
    · -- nothing is open under the number
      have hk : Function.update s.kernel fd none = s.kernel :=
        Function.update_eq_self_iff.mpr hnone.symm
      have hs : s.setSocket fd none = s := by rw [setSocket, hk]
      simp only [apply, hs]
      exact h
    · simp only [apply, Inv, setSender, setSocket, hl]
    · have h : s.kernel s.socketClient = none ∨ s.Live s.socketClient := h.at hl
      simp only [apply, Inv, setSender, setSocket, hl, Live]
      by_cases hf : s.socketClient = fd
      · left
        rw [hf, Function.update_self]
      · rw [Function.update_of_ne hf]
        exact h

/-- In every run whose steps keep the connection, the loop can recover in every state. -/
theorem recoverable_of_keepsConnection {s : ClientProcess}
    (h : system.ReachableUnder KeepsConnection s) : Recoverable s := by
  have hinv : Inv s :=
    h.invariant_of_commands inv_init fun _ _ ht hg he ↦ ht.step hg he
  exact hinv.recoverable

/-- A first attempt that connects leaves the loop at its top with a live descriptor. -/
theorem recoverable_first_attempt :
    Recoverable (((((((init.apply .testConnection).apply .closeOld).apply
      (.checkServer true false)).apply (.openSocket (some 3))).apply
        (.register 3 true true)).apply (.store 3)).apply (.connect 3 true)) :=
  recoverable_of_keepsConnection ((((((((StepSystem.ReachableUnder.init).step
    (a := .testConnection) trivial rfl).step (a := .closeOld) trivial rfl).step
      (a := .checkServer true false) (fun h ↦ nomatch h) rfl).step
        (a := .openSocket (some 3)) (fun h ↦ nomatch h) rfl).step
          (a := .register 3 true true) (fun h ↦ nomatch h) rfl).step
            (a := .store 3) trivial rfl).step (a := .connect 3 true) rfl rfl)

/-- The same attempt, but the server refuses the connection. -/
def refusedAttempt : List ClientAction :=
  [.testConnection, .closeOld, .checkServer true false, .openSocket (some 3),
    .register 3 true true, .store 3, .connect 3 false, .closeUnconnected 3]

/-- After a refused connection the loop polls a closed descriptor. -/
theorem not_recoverable_refusedAttempt :
    ∃ t : ClientProcess, system.Reachable t ∧ t.socketClient = 3 ∧ t.kernel 3 = none ∧
      ¬ Recoverable t := by
  have hrun : ∃ t, system.run (fun _ _ ↦ True) init refusedAttempt = some t ∧
      t.loop = .top ∧ t.socketClient = 3 ∧ t.kernel 3 = none := ⟨_, rfl, rfl, rfl, rfl⟩
  obtain ⟨t, ht, htop, hsocket, hclosed⟩ := hrun
  refine ⟨t, StepSystem.reachableUnder_of_run ht, hsocket, hclosed, fun h ↦ ?_⟩
  rcases h htop with hneg | hlive
  · rw [hsocket] at hneg
    exact absurd hneg (by decide)
  · rw [hsocket, Live, hclosed] at hlive
    cases hlive

end ClientProcess
end OctopusIpc.Client

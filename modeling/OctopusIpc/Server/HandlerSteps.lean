import OctopusIpc.Server.ClientEvent
import OctopusIpc.Server.Threads

/-!
# The client loop as steps of its thread

The client loop is modelled twice: as a computation over the server's variables and as the
phases of a handler thread among the others. The first is a run of the second in which only
that thread moves and all writes are accepted: with the same registry, the same sends in
the same order, and the descriptor and the record given up at its end.
-/

namespace OctopusIpc.Server
open OctopusIpc.Protocol OctopusIpc.Socket

/-- The send that an effect calls. -/
def Effect.sent : Effect → Option SendKind
  | sendResponse _ _ => some .response
  | sendBuff _ _ => some .buff
  | _ => none

/-- The sends of a trace, in order. -/
def sentKinds (effects : List Effect) : List SendKind := effects.filterMap Effect.sent

namespace Process

/-- The steps of the handler thread of a connection. -/
def OfHandler (c : Nat) : Action → Prop
  | .poll k _ | .read k _ | .configure k _ _ | .send k _ | .next k | .close k | .remove k => k = c
  | .lock t | .write t _ | .closeFailed t => t = .handler c
  | .accept _ _ | .addClient _ | .visit _ _ => False

instance (c : Nat) : (a : Action) → Decidable (OfHandler c a)
  | .poll _ _ | .read _ _ | .configure _ _ _ | .send _ _ | .next _ | .close _ | .remove _ =>
    inferInstanceAs (Decidable (_ = _))
  | .lock _ | .write _ _ | .closeFailed _ => inferInstanceAs (Decidable (_ = _))
  | .accept _ _ | .addClient _ | .visit _ _ => inferInstanceAs (Decidable False)

/-- The send that a step starts. -/
def startedSend : Action → Option SendKind
  | .send _ kind => some kind
  | _ => none

/-- What is open under the number of a connection. -/
def numberIn (c : Nat) : Phase → Option Nat
  | .closed | .gone => none
  | _ => some c

/-- Who holds `server_mutex` if the handler thread is the only one to use it. -/
def mutexIn (c : Nat) : Phase → Option Thread
  | .sending _ .writing | .sending _ .closing => some (.handler c)
  | _ => none

/-- Where the handler thread of a connection stands while nobody else is sending. -/
structure At (s : Process) (c : Nat) (fd : Int) (phase : Phase) (clients : ActiveClients) :
    Prop where
  number : (s.conns c).fd = fd
  place : (s.conns c).phase = phase
  opened : s.kernel fd = numberIn c phase
  held : s.serverMutex = mutexIn c phase
  registry : s.clients = clients

/-- From `s` the handler thread of `c` gets there by itself, starting these sends. -/
def Follows (s : Process) (c : Nat) (fd : Int) (phase : Phase) (clients : ActiveClients)
    (kinds : List SendKind) : Prop :=
  ∃ as s', system.run (fun _ a ↦ OfHandler c a) s as = some s' ∧
    as.filterMap startedSend = kinds ∧ s'.At c fd phase clients

variable {s t : Process} {c : Nat} {fd : Int} {phase phase' : Phase}
  {clients clients' : ActiveClients} {kinds kinds' : List SendKind}

theorem Follows.refl (h : s.At c fd phase clients) : Follows s c fd phase clients [] :=
  ⟨[], s, rfl, rfl, h⟩

theorem Follows.trans (h : Follows s c fd phase clients kinds)
    (h' : ∀ t, t.At c fd phase clients → Follows t c fd phase' clients' kinds') :
    Follows s c fd phase' clients' (kinds ++ kinds') := by
  obtain ⟨as, t, hrun, rfl, ht⟩ := h
  obtain ⟨bs, u, hrun', rfl, hu⟩ := h' t ht
  refine ⟨as ++ bs, u, ?_, List.filterMap_append, hu⟩
  rw [StepSystem.run_append, hrun, Option.bind_some, hrun']

private theorem run_apply {a : Action} (ha : OfHandler c a) (he : s.Enabled a) (as : List Action) :
    system.run (fun _ a ↦ OfHandler c a) s (a :: as) =
      system.run (fun _ a ↦ OfHandler c a) (s.apply a) as :=
  StepSystem.run_cons_of_commands (G := fun _ a ↦ OfHandler c a) ha he as

/-- One step. -/
theorem Follows.of_step {a : Action} (ha : OfHandler c a) (he : s.Enabled a)
    (h : (s.apply a).At c fd phase clients) :
    Follows s c fd phase clients (startedSend a).toList := by
  refine ⟨[a], s.apply a, run_apply ha he [], ?_, h⟩
  cases a <;> rfl

/-! ### What the thread can do at each place -/

/-- The connection of that number enters a phase. -/
private theorem At.of_setPhase (hfd : (s.conns c).fd = fd)
    (hconns : t.conns = (s.setPhase c phase).conns) (hk : t.kernel fd = numberIn c phase)
    (hm : t.serverMutex = mutexIn c phase) (hc : t.clients = clients) :
    t.At c fd phase clients where
  number := by
    rw [hconns, setPhase_conns, if_pos rfl]
    exact hfd
  place := by rw [hconns, setPhase_conns, if_pos rfl]
  opened := hk
  held := hm
  registry := hc

private theorem At.kernel_ne_none (h : s.At c fd phase clients)
    (hn : numberIn c phase = some c) : s.kernel (s.conns c).fd ≠ none := by
  rw [h.number, h.opened, hn]
  exact Option.some_ne_none c

private theorem At.sender {kind : SendKind} {pc : SendPc}
    (h : s.At c fd (.sending kind pc) clients) :
    s.sender (.handler c) = some ⟨fd, c, kind, pc⟩ := by
  simp only [Process.sender, h.place, h.number]

theorem At.poll (h : s.At c fd .atTop clients) (outcome : PollOutcome) :
    Follows s c fd (match outcome with
      | .timeout => .atTop
      | .hangup | .error => .ending
      | .readable => .readable) clients [] := by
  refine .of_step (a := .poll c outcome) rfl
    ⟨h.place, fun hn ↦ absurd hn (h.kernel_ne_none rfl)⟩ ?_
  cases outcome with
  | timeout => exact .of_setPhase h.number rfl h.opened h.held h.registry
  | hangup => exact .of_setPhase h.number rfl h.opened h.held h.registry
  | error => exact .of_setPhase h.number rfl h.opened h.held h.registry
  | readable => exact .of_setPhase h.number rfl h.opened h.held h.registry

theorem At.read (h : s.At c fd .readable clients) (ok : Bool) :
    Follows s c fd (if ok then .handling else .ending) clients [] := by
  refine .of_step (a := .read c ok) rfl
    ⟨h.place, fun hn ↦ absurd hn (h.kernel_ne_none rfl)⟩ ?_
  cases ok with
  | true => exact .of_setPhase h.number rfl h.opened h.held h.registry
  | false => exact .of_setPhase h.number rfl h.opened h.held h.registry

theorem At.next (h : s.At c fd .handling clients) : Follows s c fd .atTop clients [] :=
  .of_step (a := .next c) rfl h.place (.of_setPhase h.number rfl h.opened h.held h.registry)

theorem At.configure (h : s.At c fd .handling clients) (k : Int) (u : Update) :
    Follows s c fd .handling (u.onClients clients k) [] := by
  refine .of_step (a := .configure c k u) rfl h.place ⟨?_, ?_, h.opened, h.held, ?_⟩
  · simp only [apply]
    split
    · exact h.number
    · exact h.number
  · simp only [apply]
    split
    · exact h.place
    · exact h.place
  · simp only [apply, h.registry]

private theorem At.startSend (h : s.At c fd .handling clients) (kind : SendKind) :
    Follows s c fd (.sending kind .waiting) clients [kind] :=
  .of_step (a := .send c kind) rfl h.place
    (.of_setPhase h.number rfl h.opened h.held h.registry)

private theorem At.lock {kind : SendKind} (h : s.At c fd (.sending kind .waiting) clients) :
    Follows s c fd (.sending kind .writing) clients [] := by
  refine .of_step (a := .lock (.handler c)) rfl ⟨h.held, _, h.sender, rfl⟩ ?_
  simp only [apply, h.sender]
  exact .of_setPhase h.number rfl h.opened rfl h.registry

private theorem At.write {kind : SendKind} (h : s.At c fd (.sending kind .writing) clients) :
    Follows s c fd .handling clients [] := by
  have hw : afterWrite kind (.accepted true) = none := by cases kind <;> rfl
  have hk : s.kernel fd ≠ none := h.number ▸ h.kernel_ne_none rfl
  refine .of_step (a := .write (.handler c) (.accepted true)) rfl
    ⟨_, h.sender, rfl, fun hn ↦ absurd hn hk⟩ ?_
  simp only [apply, h.sender, hw]
  exact .of_setPhase h.number rfl h.opened rfl h.registry

/-- A send whose one `write()` takes all bytes. -/
theorem At.send (h : s.At c fd .handling clients) (kind : SendKind) :
    Follows s c fd .handling clients [kind] :=
  ((h.startSend kind).trans fun _ h ↦ h.lock).trans fun _ h ↦ h.write

/-- `close` and `ipc_server_remove_client`. -/
theorem At.cleanup (h : s.At c fd .ending clients) :
    Follows s c fd .gone (ipcServerRemoveClient clients fd) [] := by
  have hclose : Follows s c fd .closed clients [] := by
    refine .of_step (a := .close c) rfl h.place ?_
    refine .of_setPhase (s := s.closeNumber c (s.conns c).fd) ?_ rfl ?_ h.held h.registry
    · simp only [closeNumber, operate, Function.update_self, h.number]
    · simp only [apply, closeNumber, h.number]
      exact Function.update_self ..
  refine hclose.trans fun t ht ↦ .of_step (a := .remove c) rfl ht.place ?_
  refine .of_setPhase ht.number rfl ht.opened ht.held ?_
  simp only [apply, ht.number, ht.registry]

/-! ### The handlers and the loop -/

variable (E : Environment)

/-- The thread can follow a handler up to these variables and this trace. -/
def Followed (s : Process) (c : Nat) (fd : Int) (σ : ServerState) (es : List Effect) : Prop :=
  Follows s c fd .handling σ.activeClients (sentKinds es)

private theorem Followed.quiet {e : Effect} (he : e.sent = none) {σ : ServerState}
    {es : List Effect} (h : Followed s c fd σ es) : Followed s c fd σ (es ++ [e]) := by
  rw [Followed, sentKinds, List.filterMap_append, List.filterMap_cons_none he,
    List.filterMap_nil, List.append_nil]
  exact h

private theorem Followed.sends {e : Effect} {kind : SendKind} (he : e.sent = some kind)
    {σ : ServerState} {es : List Effect} (h : Followed s c fd σ es) :
    Followed s c fd σ (es ++ [e]) := by
  rw [Followed, sentKinds, List.filterMap_append, List.filterMap_cons_some he,
    List.filterMap_nil]
  exact h.trans fun t ht ↦ ht.send kind

private theorem Followed.configured {σ : ServerState} {es : List Effect} (k : Int) (u : Update)
    (h : Followed s c fd σ es) :
    Followed s c fd { σ with activeClients := u.onClients σ.activeClients k } es := by
  have h' := h.trans fun t ht ↦ ht.configure k u
  rw [List.append_nil] at h'
  exact h'

/-- The thread can follow each thing that a handler does. -/
theorem handlerInvariant_followed (s : Process) (c : Nat) (fd : Int) :
    HandlerInvariant fd (Followed s c fd) where
  payloadRead _ _ _ _ h := h.quiet rfl
  copyPayload _ _ _ _ _ _ h := h.quiet rfl
  otsmCall _ _ _ _ h := h.quiet rfl
  sendResponse _ _ _ h := h.sends rfl
  sendBuff _ _ _ h := h.sends rfl
  answered _ _ h := h
  debugSet _ _ h := h
  configured k u _ _ h := h.configured k u

/-- The thread can follow the handling of one successful read. -/
theorem keeps_ipcServerHandleQuery (s : Process) (c : Nat) (fd : Int) (data : List UInt8) :
    Traced.Keeps (Followed s c fd) (ipcServerHandleQuery E fd data) := by
  apply Traced.Keeps.when
  intro _
  have hcall (handler : Handler) (m : DataMessage) :
      Traced.Keeps (Followed s c fd) (callHandler E handler fd m) :=
    (Traced.Keeps.emit fun _ _ h ↦ h.quiet rfl).bind fun _ ↦
      (handlerInvariant_followed s c fd).function E m handler
  exact (hcall _ _).bind fun _ ↦ .pure _

/-- What the loop leaves a connection in: served, or given up after the first read that finds
it gone. -/
def phaseAfter : List QueryResult → Phase
  | [] => .atTop
  | .timeout :: results | .success _ :: results => phaseAfter results
  | .disconnected :: _ | .error :: _ => .gone

/-- The client loop on the results of its reads is a run of the handler thread alone: the
process ends up with the loop's registry, and the thread starts the loop's sends in order. -/
theorem follows_ipcServerHandleClientEvent (results : List QueryResult) (σ : ServerState)
    (h : s.At c fd .atTop σ.activeClients) :
    Follows s c fd (phaseAfter results)
      (ipcServerHandleClientEvent E fd results σ).state.activeClients
      (sentKinds (ipcServerHandleClientEvent E fd results σ).effects) := by
  induction results generalizing s σ with
  | nil => exact .refl h
  | cons r results ih =>
    cases r with
    | timeout => exact (h.poll .timeout).trans fun t ht ↦ ih σ ht
    | success data =>
      let r := ipcServerHandleQuery E fd data.bytes σ
      have hread := ((h.poll .readable).trans fun t ht ↦ ht.read true).trans fun t ht ↦
        keeps_ipcServerHandleQuery E t c fd data.bytes σ [] (.refl ht)
      have hrest (t : Process) (ht : t.At c fd .handling r.state.activeClients) :=
        ht.next.trans fun u hu ↦ ih r.state hu
      simp only [ipcServerHandleClientEvent, Traced.bind_apply, sentKinds, List.filterMap_append]
      exact hread.trans hrest
    | disconnected => exact (h.poll .hangup).trans fun t ht ↦ ht.cleanup
    | error => exact (h.poll .error).trans fun t ht ↦ ht.cleanup

end Process
end OctopusIpc.Server

import OctopusIpc.Server.ClientMap
import OctopusIpc.Server.Subscriptions

/-!
# What a run leaves in the server's variables

Accepting a client, handling any valid message, ending a client's thread and calling the push
callback, in any order. The registry is what the operations among them make of it: one for
each accept, one for each end, one for each configuration command and none for anything else.
The debug flag is set by the first help message that asks for it and never cleared.
-/

namespace OctopusIpc.Server
open OctopusIpc.Protocol Traced

/-- What the server goes through. -/
inductive ServerInput where
  /-- `src/IPC/octopus_ipc_server.cpp:1035`. -/
  | accept (fd : Int)
  /-- A valid message of a client is handled. -/
  | request (clientFd : Int) (queryMsg : ValidMessage)
  /-- `src/IPC/octopus_ipc_server.cpp:447–448`. -/
  | disconnect (fd : Int)
  | push (msgGrp msgId : UInt16) (data : Option Memory) (length : UInt16)

variable (E : Environment) (clientFd : Int) (m : DataMessage) (data : List UInt8)

/-- What an input runs. -/
def handleServerInput : ServerInput → Handling Unit
  | .accept fd => Traced.update fun s ↦
    { s with activeClients := ipcServerAddClient s.activeClients fd [] true }
  | .request clientFd queryMsg => do
    let _handleResult ← dispatch E clientFd queryMsg.val
  | .disconnect fd => ipcServerCleanup fd
  | .push msgGrp msgId data length => ipcServerMcuMessageDataCallback E msgGrp msgId data length

/-- What a configuration message asks of the registry. -/
def configOperation : Option RegistryOperation :=
  if m.msgId.toNat = E.header.msgIpcCmdConfigFlag then
    some (.update (namedBy clientFd m.data) (.flag (asksForPush m.data)))
  else if m.msgId.toNat = E.header.msgIpcCmdConfigPushDelay then none
  else if m.msgId.toNat = E.header.msgIpcCmdConfigIp then
    some (.update (namedBy clientFd m.data) (.ip m.data))
  else none

/-- What an input asks of the registry. -/
def registryOperation : ServerInput → Option RegistryOperation
  | .accept fd => some (.add fd [] true)
  | .request clientFd queryMsg =>
    match selectHandler E.header queryMsg.val.msgGroup with
    | .config => configOperation E clientFd queryMsg.val
    | .calculation | .help | .car | .mcu => none
  | .disconnect fd => some (.remove fd)
  | .push _ _ _ _ => none

/-- The registry after an operation, if there is one. -/
def afterOperation (clients : ActiveClients) : Option RegistryOperation → ActiveClients
  | none => clients
  | some op => op.onClients clients

/-- A help message asks for the debug output: its payload is empty or begins with 1. -/
def asksForDebug : ServerInput → Bool
  | .request _ queryMsg =>
    selectHandler E.header queryMsg.val.msgGroup == .help && queryMsg.val.data.headD 1 == 1
  | .accept _ | .disconnect _ | .push _ _ _ _ => false

/-- When an input can come: the number of an accepted client is not in the registry. -/
def ServerInput.Possible (s : ServerState) : ServerInput → Prop
  | accept fd => s.activeClients.find? fd = none
  | request _ _ | disconnect _ | push _ _ _ _ => True

instance (s : ServerState) : (i : ServerInput) → Decidable (i.Possible s)
  | .accept _ => inferInstanceAs (Decidable (_ = none))
  | .request _ _ | .disconnect _ | .push _ _ _ _ => inferInstanceAs (Decidable True)

/-- The server's variables under any inputs. -/
def serverSystem : StepSystem ServerState ServerInput :=
  StepSystem.ofCommands ServerState.init (fun s i ↦ i.Possible s)
    fun s i ↦ (handleServerInput E i s).state

/-! ### Handlers that leave the variables alone -/

/-- The computation changes neither the registry nor the debug flag. -/
abbrev KeepsVariables {α : Type} (x : Handling α) : Prop :=
  ∀ v, Keeps (fun s _ ↦ (s.activeClients, s.debugPrintData) = v) x

theorem KeepsVariables.state {α : Type} {x : Handling α} (h : KeepsVariables x)
    (s : ServerState) : (x s).state.activeClients = s.activeClients ∧
      (x s).state.debugPrintData = s.debugPrintData :=
  Prod.mk.inj (h _ s [] rfl)

theorem keepsVariables_payloadAt (index : Nat) : KeepsVariables (payloadAt E data index) :=
  fun _ ↦ (Keeps.emit fun _ _ h ↦ h).bind fun _ ↦ .pure _

theorem keepsVariables_callOtsm (call : OtsmCall) : KeepsVariables (callOtsm E call) :=
  fun _ ↦ .emit fun _ _ h ↦ h

theorem keepsVariables_askOtsm {α : Type} (f : OtsmFunction) (answer : Nat → α) :
    KeepsVariables (askOtsm E f answer) := by
  intro v
  have hcount : Keeps
      (fun (s : ServerState) (_ : List Effect) ↦ (s.activeClients, s.debugPrintData) = v)
      (Traced.update fun s : ServerState ↦ { s with answers := s.answers + 1 }) :=
    .update fun _ _ h ↦ h
  exact (keepsVariables_callOtsm E _ v).bind fun _ ↦ (Keeps.reads _).bind fun _ ↦
    hcount.bind fun _ ↦ .pure _

theorem keepsVariables_respond (respVector : List Int) (r : Int) :
    KeepsVariables (do sendResponse clientFd respVector; return r : Handling Int) :=
  fun _ ↦ (Keeps.emit fun _ _ h ↦ h).bind fun _ ↦ .pure _

theorem keepsVariables_sendMessageToClient (msgGrp msgId size : Nat) (tInfo : Option Memory) :
    KeepsVariables (ipcServerSendMessageToClient clientFd msgGrp msgId tInfo size) := by
  intro v
  cases tInfo with
  | none => exact .pure _
  | some tInfo => exact .emit fun _ _ h ↦ h

/-- The answer of the library, sent to a client. -/
theorem keepsVariables_askAndSend (f : OtsmFunction) (answer : Nat → Option Memory)
    (msgGrp msgId size : Nat) :
    KeepsVariables (do
      let info ← askOtsm E f answer
      ipcServerSendMessageToClient clientFd msgGrp msgId info size) :=
  fun v ↦ (keepsVariables_askOtsm E f answer v).bind fun _ ↦
    keepsVariables_sendMessageToClient _ _ _ _ _ v

theorem keepsVariables_notifyMcuInfor (msgGrp msgId : Nat) (info : Option Memory)
    (length : UInt16) :
    KeepsVariables (ipcServerNotifyMcuInforToClient E clientFd msgGrp msgId info length) := by
  intro v
  refine .ite (fun _ ↦ .when fun _ ↦ ?_) fun _ ↦ .ite (fun _ ↦ .when fun _ ↦ ?_) fun _ ↦ ?_
  · exact (keepsVariables_askOtsm E _ _ v).bind fun _ ↦
      keepsVariables_sendMessageToClient _ _ _ _ _ v
  · exact keepsVariables_askAndSend E _ _ _ _ _ _ v
  · exact keepsVariables_sendMessageToClient _ _ _ _ _ v

theorem keepsVariables_notifyClient (client : ClientInfo) (msgGrp msgId : UInt16)
    (info : Option Memory) (length : UInt16) :
    KeepsVariables (notifyClient E client msgGrp msgId info length) := by
  intro v
  refine .when fun _ ↦ .ite (fun _ ↦ ?_) fun _ ↦ keepsVariables_notifyMcuInfor E _ _ _ _ _ v
  refine .ite (fun _ ↦ .when fun _ ↦ keepsVariables_askAndSend E _ _ _ _ _ _ v) fun _ ↦ ?_
  refine .ite (fun _ ↦ .when fun _ ↦ keepsVariables_askAndSend E _ _ _ _ _ _ v) fun _ ↦ ?_
  refine .ite (fun _ ↦ .when fun _ ↦ keepsVariables_askAndSend E _ _ _ _ _ _ v) fun _ ↦ ?_
  refine .ite (fun _ ↦ .when fun _ ↦ keepsVariables_askAndSend E _ _ _ _ _ _ v) fun _ ↦ ?_
  exact .when fun _ ↦ keepsVariables_sendMessageToClient _ _ _ _ _ v

/-- The push callback reads the registry and changes nothing. -/
theorem keepsVariables_push (msgGrp msgId : UInt16) (info : Option Memory) (length : UInt16) :
    KeepsVariables (ipcServerMcuMessageDataCallback E msgGrp msgId info length) :=
  fun v ↦ (Keeps.reads _).bind fun clients ↦
    .forM (fun client ↦ keepsVariables_notifyClient E client _ _ _ _ v) clients.elems

theorem keepsVariables_calculation :
    KeepsVariables (ipcServerHandleCalculationEvent E clientFd m) := by
  intro v
  have hoperands (operation : Int → Int → Int) :
      Keeps (fun s _ ↦ (s.activeClients, s.debugPrintData) = v) (operands E m.data operation) :=
    (keepsVariables_payloadAt E _ _ v).bind fun _ ↦ (keepsVariables_payloadAt E _ _ v).bind
      fun _ ↦ .pure _
  refine .ite (fun _ ↦ keepsVariables_respond _ _ _ v) fun _ ↦ ?_
  refine Keeps.bind ?_ fun _ ↦ keepsVariables_respond _ _ _ v
  refine (keepsVariables_payloadAt E _ _ v).bind fun _ ↦ ?_
  refine .ite (fun _ ↦ hoperands _) fun _ ↦ ?_
  refine .ite (fun _ ↦ hoperands _) fun _ ↦ ?_
  refine .ite (fun _ ↦ hoperands _) fun _ ↦ .ite (fun _ ↦ ?_) fun _ ↦ .pure _
  exact (keepsVariables_payloadAt E _ _ v).bind fun _ ↦
    .ite (fun _ ↦ .pure _) fun _ ↦ hoperands _

theorem keepsVariables_car : KeepsVariables (ipcServerHandleCarEvent E clientFd m) := by
  intro v
  have hsend (command : Nat) :
      Keeps (fun s _ ↦ (s.activeClients, s.debugPrintData) = v)
        (sendCarEvent E command m.data) := by
    refine .when fun _ ↦ .ite (fun _ ↦ ?_) fun _ ↦ keepsVariables_callOtsm E _ v
    exact (keepsVariables_payloadAt E _ _ v).bind fun _ ↦ keepsVariables_callOtsm E _ v
  have hset (getter : OtsmFunction) (frameCmd : UInt16) :
      Keeps (fun s _ ↦ (s.activeClients, s.debugPrintData) = v)
        (setCarInfo E getter frameCmd m) :=
    (keepsVariables_askOtsm E _ _ v).bind fun _ ↦ (Keeps.emit fun _ _ h ↦ h).bind fun _ ↦
      keepsVariables_callOtsm E _ v
  refine Keeps.bind ?_ fun _ ↦ .pure _
  refine .ite (fun _ ↦ hsend _) fun _ ↦ .ite (fun _ ↦ hsend _) fun _ ↦ ?_
  refine .ite (fun _ ↦ hsend _) fun _ ↦ .ite (fun _ ↦ hsend _) fun _ ↦ ?_
  refine .ite (fun _ ↦ hset _ _) fun _ ↦ .ite (fun _ ↦ hset _ _) fun _ ↦ ?_
  exact .when fun _ ↦ hset _ _

theorem keepsVariables_mcu : KeepsVariables (ipcServerHandleMcuEvent E clientFd m) := by
  intro v
  have hforward : Keeps (fun s _ ↦ (s.activeClients, s.debugPrintData) = v)
      (forwardMcuEvent E m) := by
    refine .ite (fun _ ↦ .when fun _ ↦ .when fun _ ↦ ?_) fun _ ↦ .when fun _ ↦ ?_
    · exact keepsVariables_callOtsm E _ v
    · exact keepsVariables_callOtsm E _ v
  exact hforward.bind fun _ ↦
    (Keeps.when fun _ ↦ keepsVariables_notifyMcuInfor E _ _ _ _ _ v).bind fun _ ↦ .pure _

/-! ### What each input leaves -/

variable {E}

/-- A help message leaves the registry and may set the flag. -/
theorem state_help (s : ServerState) :
    (ipcServerHandleHelpEvent E clientFd m s).state =
      { s with debugPrintData := s.debugPrintData || m.data.headD 1 == 1 } := by
  rcases hdata : m.data with _ | ⟨b, rest⟩
  · simp [ipcServerHandleHelpEvent, helpDebug, hdata, sendResponse, Traced.when]
  · by_cases hb : b = 1
    · simp [ipcServerHandleHelpEvent, helpDebug, hdata, payloadAt, sendResponse, Traced.when, hb]
    · have hfalse : (b == 1) = false := beq_eq_false_iff_ne.mpr hb
      simp [ipcServerHandleHelpEvent, helpDebug, hdata, payloadAt, sendResponse, Traced.when,
        hfalse]

/-- A configuration message makes its operation on the registry. -/
theorem state_config (s : ServerState) :
    (ipcServerHandleConfigEvent E clientFd m s).state = { s with
      activeClients := afterOperation s.activeClients (configOperation E clientFd m) } := by
  have hzero (b : UInt8) : b ≤ 0 ↔ b = 0 := by
    rw [UInt8.le_iff_toNat_le, ← UInt8.toNat_inj]
    exact Nat.le_zero
  have htarget : (configTarget E clientFd m.data s).value = namedBy clientFd m.data ∧
      (configTarget E clientFd m.data s).state = s := by
    cases hdata : m.data with
    | nil => exact ⟨rfl, rfl⟩
    | cons b rest => simp [configTarget, payloadAt, namedBy, hzero]
  have hactive : (configActive E m.data s).value = asksForPush m.data ∧
      (configActive E m.data s).state = s := by
    rcases hdata : m.data with _ | ⟨b, _ | ⟨c, rest⟩⟩
    · exact ⟨rfl, rfl⟩
    · exact ⟨rfl, rfl⟩
    · simp [configActive, payloadAt, asksForPush]
  have hinterval (index : Nat) (t : ServerState) :
      (configInterval E m.data index t).state = t := rfl
  simp only [ipcServerHandleConfigEvent, bind_apply, htarget.1, htarget.2, configure,
    configOperation, sendResponse]
  split_ifs with hflag hdelay hip
  · simp only [configFlag, bind_apply, hactive.1, hactive.2, Traced.when]
    split_ifs
    · rfl
    · rfl
  · simp only [Traced.when]
    split_ifs
    · rfl
    · rfl
  · simp only [Traced.when, if_pos hip]
    rfl
  · simp only [Traced.when, if_neg hip]
    rfl

/-- A request changes the registry by its operation, if it has one, and may set the flag. -/
theorem state_dispatch (s : ServerState) :
    (dispatch E clientFd m s).state.activeClients =
        afterOperation s.activeClients
          (if selectHandler E.header m.msgGroup = .config then configOperation E clientFd m
          else none) ∧
      (dispatch E clientFd m s).state.debugPrintData =
        (s.debugPrintData ||
          (selectHandler E.header m.msgGroup == .help && m.data.headD 1 == 1)) := by
  have hcalled (handler : Handler) :
      (callHandler E handler clientFd m s).state = (handler.function E clientFd m s).state := rfl
  rw [dispatch, hcalled]
  cases selectHandler E.header m.msgGroup with
  | help =>
    have hstate : (ipcServerHandleHelpEvent E clientFd m s).state = _ := state_help clientFd m s
    exact ⟨(congrArg ServerState.activeClients hstate).trans rfl,
      congrArg ServerState.debugPrintData hstate⟩
  | config =>
    have hstate := state_config (E := E) clientFd m s
    refine ⟨(congrArg ServerState.activeClients hstate).trans rfl, ?_⟩
    exact (congrArg ServerState.debugPrintData hstate).trans (Bool.or_false _).symm
  | calculation =>
    obtain ⟨hclients, hdebug⟩ := (keepsVariables_calculation E clientFd m).state s
    exact ⟨hclients, hdebug.trans (Bool.or_false _).symm⟩
  | car =>
    obtain ⟨hclients, hdebug⟩ := (keepsVariables_car E clientFd m).state s
    exact ⟨hclients, hdebug.trans (Bool.or_false _).symm⟩
  | mcu =>
    obtain ⟨hclients, hdebug⟩ := (keepsVariables_mcu E clientFd m).state s
    exact ⟨hclients, hdebug.trans (Bool.or_false _).symm⟩

/-- What an input leaves in the variables. -/
theorem state_handleServerInput (i : ServerInput) (s : ServerState) :
    (handleServerInput E i s).state.activeClients =
        afterOperation s.activeClients (registryOperation E i) ∧
      (handleServerInput E i s).state.debugPrintData = (s.debugPrintData || asksForDebug E i) := by
  cases i with
  | accept fd => exact ⟨rfl, (Bool.or_false _).symm⟩
  | disconnect fd => exact ⟨rfl, (Bool.or_false _).symm⟩
  | request clientFd queryMsg =>
    obtain ⟨hclients, hdebug⟩ := state_dispatch (E := E) clientFd queryMsg.val s
    refine ⟨hclients.trans (congrArg (afterOperation s.activeClients) ?_), hdebug⟩
    rw [registryOperation]
    cases selectHandler E.header queryMsg.val.msgGroup <;> rfl
  | push msgGrp msgId data length =>
    obtain ⟨hclients, hdebug⟩ := (keepsVariables_push E msgGrp msgId data length).state s
    exact ⟨hclients, hdebug.trans (Bool.or_false _).symm⟩

/-! ### Runs -/

/-- An input that can come is an operation that is possible. -/
theorem clientMap_afterOperation {i : ServerInput} {s : ServerState} (h : i.Possible s) :
    clientMap (afterOperation s.activeClients (registryOperation E i)) =
      (registryOperation E i).elim (clientMap s.activeClients) fun op ↦
        op.onMap (clientMap s.activeClients) := by
  cases i with
  | accept fd =>
    have hadd : (RegistryOperation.add fd [] true).Possible s.activeClients := h
    exact clientMap_onClients hadd
  | disconnect fd =>
    have hremove : (RegistryOperation.remove fd).Possible s.activeClients := trivial
    exact clientMap_onClients hremove
  | push => rfl
  | request clientFd queryMsg =>
    have hupdate (fd : Int) (u : Update) : clientMap (u.onClients s.activeClients fd) =
        (RegistryOperation.update fd u).onMap (clientMap s.activeClients) := by
      have hpossible : (RegistryOperation.update fd u).Possible s.activeClients := trivial
      exact clientMap_onClients hpossible
    simp only [registryOperation, configOperation]
    split
    · split_ifs
      · exact hupdate _ _
      · rfl
      · exact hupdate _ _
      · rfl
    all_goals rfl

private theorem variables_of_run {inputs : List ServerInput} {s s' : ServerState}
    (h : (serverSystem E).run (fun _ _ ↦ True) s inputs = some s') :
    clientMap s'.activeClients = (inputs.filterMap (registryOperation E)).foldl
        RegistryOperation.onMap (clientMap s.activeClients) ∧
      s'.debugPrintData = (s.debugPrintData || inputs.any (asksForDebug E)) := by
  induction inputs generalizing s with
  | nil =>
    cases h
    exact ⟨rfl, (Bool.or_false _).symm⟩
  | cons i inputs ih =>
    obtain ⟨-, hpossible, hrun⟩ := StepSystem.run_cons_of_commands_iff.mp h
    obtain ⟨hmap, hdebug⟩ := ih hrun
    obtain ⟨hclients, hflag⟩ := state_handleServerInput (E := E) i s
    rw [hclients, clientMap_afterOperation hpossible] at hmap
    rw [hflag] at hdebug
    refine ⟨hmap.trans ?_, ?_⟩
    · cases hop : registryOperation E i with
      | none => rw [List.filterMap_cons_none hop]; rfl
      | some op => rw [List.filterMap_cons_some hop]; rfl
    · rw [hdebug, List.any_cons, Bool.or_assoc]

/-- Two clients, of which the second turns the pushes of the first off and leaves. -/
def pushesTurnedOff : List ServerInput :=
  [.accept 5, .accept 6, .request 6 ⟨.ofPayload 2 1 [5, 0], rfl⟩, .push 5 13 none 0,
    .request 5 ⟨.ofPayload 6 20 [1], rfl⟩, .disconnect 6]

end OctopusIpc.Server

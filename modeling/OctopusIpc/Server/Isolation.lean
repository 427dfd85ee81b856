import OctopusIpc.Server.ClientMap
import OctopusIpc.Server.Subscriptions

/-!
# What requests see of the server and leave in it

The handlers read none of the server's variables, apart from the library giving its next
answer: what is done for a client is the same whatever the clients have configured. What the
handlers write is the debug flag and, for the configuration commands, the registry, so that
over any run the registry stands for the map that the commands make.
-/

namespace OctopusIpc.Server
open OctopusIpc.Protocol OctopusIpc.Socket Traced

variable (E : Environment) (clientFd : Int) (m : DataMessage) (data : List UInt8)

/-! ### What the handlers see -/

/-- How often the library has answered is all that the computation reads. -/
abbrev SeesAnswers {α : Type} (x : Handling α) : Prop := Sees ServerState.answers x

theorem seesAnswers_payloadAt (index : Nat) : SeesAnswers (payloadAt E data index) :=
  (Sees.emit _).bind fun _ ↦ .pure _

theorem seesAnswers_callOtsm (call : OtsmCall) : SeesAnswers (callOtsm E call) := .emit _

theorem seesAnswers_askOtsm {α : Type} (f : OtsmFunction) (answer : Nat → α) :
    SeesAnswers (askOtsm E f answer) := by
  refine (seesAnswers_callOtsm E _).bind fun _ ↦ (Sees.reads fun _ _ h ↦ h).bind fun _ ↦ ?_
  have hcount (s t : ServerState) (h : s.answers = t.answers) : s.answers + 1 = t.answers + 1 :=
    congrArg Nat.succ h
  exact (Sees.update hcount).bind fun _ ↦ .pure _

theorem seesAnswers_respond (respVector : List Int) (r : Int) :
    SeesAnswers (do sendResponse clientFd respVector; return r : Handling Int) :=
  (Sees.emit _).bind fun _ ↦ .pure _

theorem seesAnswers_sendMessageToClient (msgGrp msgId size : Nat) (tInfo : Option Memory) :
    SeesAnswers (ipcServerSendMessageToClient clientFd msgGrp msgId tInfo size) := by
  cases tInfo with
  | none => exact .pure _
  | some tInfo => exact .emit _

theorem seesAnswers_notifyMcuInfor (msgGrp msgId : Nat) (info : Option Memory)
    (length : UInt16) :
    SeesAnswers (ipcServerNotifyMcuInforToClient E clientFd msgGrp msgId info length) := by
  refine .ite (fun _ ↦ .when fun _ ↦ ?_) fun _ ↦ .ite (fun _ ↦ .when fun _ ↦ ?_) fun _ ↦ ?_
  · exact (seesAnswers_askOtsm E _ _).bind fun _ ↦ seesAnswers_sendMessageToClient _ _ _ _ _
  · exact (seesAnswers_askOtsm E _ _).bind fun _ ↦ seesAnswers_sendMessageToClient _ _ _ _ _
  · exact seesAnswers_sendMessageToClient _ _ _ _ _

theorem seesAnswers_configInterval (index : Nat) : SeesAnswers (configInterval E data index) :=
  (seesAnswers_payloadAt E data _).bind fun _ ↦ seesAnswers_callOtsm E _

/-- A change of the registry is not seen. -/
theorem seesAnswers_updateClients (f : ActiveClients → ActiveClients) :
    SeesAnswers (Traced.update fun s ↦ { s with activeClients := f s.activeClients }) :=
  .update fun _ _ h ↦ h

theorem seesAnswers_configure (cfd : Int) : SeesAnswers (configure E cfd m) := by
  have hactive : SeesAnswers (configActive E m.data) :=
    .ite (fun _ ↦ (seesAnswers_payloadAt E _ _).bind fun _ ↦ .pure _) fun _ ↦ .pure _
  refine .ite (fun _ ↦ ?_) fun _ ↦ .ite (fun _ ↦ ?_) fun _ ↦ ?_
  · refine hactive.bind fun isActive ↦ ?_
    exact (seesAnswers_updateClients (ipcServerUpdateClientFlag · cfd isActive)).bind fun _ ↦
      .when fun _ ↦ seesAnswers_configInterval E _ _
  · exact .when fun _ ↦ seesAnswers_configInterval E _ _
  · exact .when fun _ ↦ seesAnswers_updateClients (ipcServerUpdateClientIp · cfd m.data)

theorem seesAnswers_operands (operation : Int → Int → Int) :
    SeesAnswers (operands E data operation) :=
  (seesAnswers_payloadAt E data _).bind fun _ ↦ (seesAnswers_payloadAt E data _).bind fun _ ↦
    .pure _

theorem seesAnswers_calculate : SeesAnswers (calculate E data) := by
  have hdivision : SeesAnswers (division E data) :=
    (seesAnswers_payloadAt E data _).bind fun _ ↦
      .ite (fun _ ↦ .pure _) fun _ ↦ seesAnswers_operands E data _
  refine (seesAnswers_payloadAt E data _).bind fun _ ↦ ?_
  refine .ite (fun _ ↦ seesAnswers_operands E data _) fun _ ↦ ?_
  refine .ite (fun _ ↦ seesAnswers_operands E data _) fun _ ↦ ?_
  refine .ite (fun _ ↦ seesAnswers_operands E data _) fun _ ↦ ?_
  exact .ite (fun _ ↦ hdivision) fun _ ↦ .pure _

theorem seesAnswers_sendCarEvent (command : Nat) : SeesAnswers (sendCarEvent E command data) := by
  refine .when fun _ ↦ .ite (fun _ ↦ ?_) fun _ ↦ seesAnswers_callOtsm E _
  exact (seesAnswers_payloadAt E data _).bind fun _ ↦ seesAnswers_callOtsm E _

theorem seesAnswers_setCarInfo (getter : OtsmFunction) (frameCmd : UInt16) :
    SeesAnswers (setCarInfo E getter frameCmd m) :=
  (seesAnswers_askOtsm E _ _).bind fun _ ↦ (Sees.emit _).bind fun _ ↦ seesAnswers_callOtsm E _

theorem seesAnswers_carEvent : SeesAnswers (carEvent E m) := by
  -- the branches in the order of the switch
  refine .ite (fun _ ↦ seesAnswers_sendCarEvent E _ _) fun _ ↦ ?_
  refine .ite (fun _ ↦ seesAnswers_sendCarEvent E _ _) fun _ ↦ ?_
  refine .ite (fun _ ↦ seesAnswers_sendCarEvent E _ _) fun _ ↦ ?_
  refine .ite (fun _ ↦ seesAnswers_sendCarEvent E _ _) fun _ ↦ ?_
  refine .ite (fun _ ↦ seesAnswers_setCarInfo E m _ _) fun _ ↦ ?_
  refine .ite (fun _ ↦ seesAnswers_setCarInfo E m _ _) fun _ ↦ ?_
  exact .when fun _ ↦ seesAnswers_setCarInfo E m _ _

/-- Every handler. -/
theorem seesAnswers_function (handler : Handler) :
    SeesAnswers (handler.function E clientFd m) := by
  cases handler with
  | calculation =>
    refine .ite (fun _ ↦ seesAnswers_respond _ _ _) fun _ ↦ ?_
    exact (seesAnswers_calculate E _).bind fun _ ↦ seesAnswers_respond _ _ _
  | help =>
    have hdebug : SeesAnswers (helpDebug E m.data) :=
      .ite (fun _ ↦ .pure _) fun _ ↦ (seesAnswers_payloadAt E _ _).bind fun _ ↦ .pure _
    have hset : SeesAnswers (Traced.update fun s ↦ { s with debugPrintData := true }) :=
      .update fun _ _ h ↦ h
    exact hdebug.bind fun _ ↦ (Sees.when fun _ ↦ hset).bind fun _ ↦ seesAnswers_respond _ _ _
  | config =>
    have htarget : SeesAnswers (configTarget E clientFd m.data) :=
      .ite (fun _ ↦ .pure _) fun _ ↦ (seesAnswers_payloadAt E _ _).bind fun _ ↦ .pure _
    exact htarget.bind fun cfd ↦ (seesAnswers_configure E m cfd).bind fun _ ↦
      seesAnswers_respond _ _ _
  | car => exact (seesAnswers_carEvent E m).bind fun _ ↦ .pure _
  | mcu =>
    have hforward : SeesAnswers (forwardMcuEvent E m) := by
      refine .ite (fun _ ↦ .when fun _ ↦ .when fun _ ↦ ?_) fun _ ↦ .when fun _ ↦ ?_
      · exact seesAnswers_callOtsm E _
      · exact seesAnswers_callOtsm E _
    exact hforward.bind fun _ ↦
      (Sees.when fun _ ↦ seesAnswers_notifyMcuInfor E _ _ _ _ _).bind fun _ ↦ .pure _

theorem seesAnswers_callHandler (handler : Handler) :
    SeesAnswers (callHandler E handler clientFd m) :=
  (Sees.emit _).bind fun _ ↦ seesAnswers_function E clientFd m handler

theorem seesAnswers_handleMessages (messages : List (Int × ValidMessage)) :
    SeesAnswers (handleMessages E messages) :=
  .forM (fun _ ↦ (seesAnswers_callHandler E _ _ _).bind fun _ ↦ .pure _) messages

theorem seesAnswers_handleClientEvent (results : List QueryResult) :
    SeesAnswers (ipcServerHandleClientEvent E clientFd results) := by
  have hcleanup : SeesAnswers (ipcServerCleanup clientFd) :=
    (Sees.emit _).bind fun _ ↦ seesAnswers_updateClients (ipcServerRemoveClient · clientFd)
  induction results with
  | nil => exact .pure _
  | cons r results ih =>
    cases r with
    | timeout => exact ih
    | success c =>
      have hquery : SeesAnswers (ipcServerHandleQuery E clientFd c.bytes) :=
        .when fun _ ↦ (seesAnswers_callHandler E _ _ _).bind fun _ ↦ .pure _
      exact hquery.bind fun _ ↦ ih
    | disconnected | error => exact hcleanup

/-- What the computation does outside the server's variables is the same whatever the registry
and the debug flag are, and as much is asked of the library. -/
def Isolated {α : Type} (x : Handling α) : Prop :=
  ∀ (clients clients' : ActiveClients) (debug debug' : Bool) (answers : Nat),
    (x ⟨clients, debug, answers⟩).effects = (x ⟨clients', debug', answers⟩).effects ∧
      (x ⟨clients, debug, answers⟩).state.answers = (x ⟨clients', debug', answers⟩).state.answers

theorem isolated_of_seesAnswers {α : Type} {x : Handling α} (h : SeesAnswers x) : Isolated x :=
  fun clients clients' debug debug' answers ↦
    (h ⟨clients, debug, answers⟩ ⟨clients', debug', answers⟩ rfl).2

/-- Whatever a client's thread reads until the client is gone, and whatever valid messages of
whichever clients are handled one after another, the handler calls, library calls, responses
and closes are the same in every state of the registry and of the debug flag. -/
theorem requests_isolated :
    (∀ clientFd results, Isolated (ipcServerHandleClientEvent E clientFd results)) ∧
      ∀ messages, Isolated (handleMessages E messages) :=
  ⟨fun clientFd results ↦
      isolated_of_seesAnswers (seesAnswers_handleClientEvent E clientFd results),
    fun messages ↦ isolated_of_seesAnswers (seesAnswers_handleMessages E messages)⟩

end OctopusIpc.Server

import OctopusIpc.Server.Handlers

/-!
# What holds through a handler

The rule for the five handlers: an invariant of the server's variables and of the trace that
each single thing a handler can do keeps is kept by the handler as a whole. The branches of
the handlers are gone through here and nowhere else.
-/

namespace OctopusIpc.Server
open OctopusIpc.Protocol Traced

/-- An invariant of the variables and of the trace that is kept by each thing that a handler
can do for the client on `clientFd`. -/
structure HandlerInvariant (clientFd : Int) (J : ServerState → List Effect → Prop) : Prop where
  payloadRead : ∀ index size s es, J s es → J s (es ++ [.payloadRead index size])
  copyPayload : ∀ target isNull data length s es, J s es →
    J s (es ++ [.copyPayload target isNull data length])
  otsmCall : ∀ call pointer s es, J s es → J s (es ++ [.otsmCall call pointer])
  sendResponse : ∀ buffer s es, J s es → J s (es ++ [.sendResponse clientFd buffer])
  sendBuff : ∀ buffer s es, J s es → J s (es ++ [.sendBuff clientFd buffer])
  answered : ∀ s es, J s es → J { s with answers := s.answers + 1 } es
  debugSet : ∀ s es, J s es → J { s with debugPrintData := true } es
  configured : ∀ fd (u : Update) s es, J s es →
    J { s with activeClients := u.onClients s.activeClients fd } es

namespace HandlerInvariant

variable {clientFd : Int} {J : ServerState → List Effect → Prop} (h : HandlerInvariant clientFd J)
variable (E : Environment) (m : DataMessage) (data : List UInt8)

include h

/-! ### The parts of the handlers -/

theorem callOtsm (call : OtsmCall) : Keeps J (callOtsm E call) :=
  .emit (h.otsmCall _ _)

theorem askOtsm {α : Type} (f : OtsmFunction) (answer : Nat → α) :
    Keeps J (askOtsm E f answer) :=
  (h.callOtsm E _).bind fun _ ↦ (Keeps.reads _).bind fun _ ↦
    (Keeps.update h.answered).bind fun _ ↦ .pure _

theorem payloadAt (index : Nat) : Keeps J (payloadAt E data index) :=
  (Keeps.emit (h.payloadRead _ _)).bind fun _ ↦ .pure _

theorem respond (r : Int) (x : List Int) :
    Keeps J (do Server.sendResponse clientFd x; return r : Handling Int) :=
  (Keeps.emit (h.sendResponse _)).bind fun _ ↦ .pure _

theorem ipcServerSendMessageToClient (msgGrp msgId size : Nat) (tInfo : Option Memory) :
    Keeps J (ipcServerSendMessageToClient clientFd msgGrp msgId tInfo size) := by
  cases tInfo with
  | none => exact .pure _
  | some tInfo => exact .emit (h.sendBuff _)

theorem ipcServerNotifyMcuInforToClient (msgGrp msgId : Nat) (info : Option Memory)
    (length : UInt16) :
    Keeps J (ipcServerNotifyMcuInforToClient E clientFd msgGrp msgId info length) := by
  apply Keeps.ite
  · intro _
    apply Keeps.when
    intro _
    exact (h.askOtsm E _ _).bind fun _ ↦ h.ipcServerSendMessageToClient _ _ _ _
  · intro _
    apply Keeps.ite
    · intro _
      apply Keeps.when
      intro _
      exact (h.askOtsm E _ _).bind fun _ ↦ h.ipcServerSendMessageToClient _ _ _ _
    · intro _
      exact h.ipcServerSendMessageToClient _ _ _ _

theorem configInterval (index : Nat) : Keeps J (configInterval E data index) :=
  (h.payloadAt E data _).bind fun _ ↦ h.callOtsm E _

theorem configFlag (cfd : Int) : Keeps J (configFlag E cfd data) := by
  have hactive : Keeps J (configActive E data) := by
    apply Keeps.ite
    · exact fun _ ↦ (h.payloadAt E data _).bind fun _ ↦ .pure _
    · exact fun _ ↦ .pure _
  apply hactive.bind
  intro isActive
  exact (Keeps.update (h.configured cfd (.flag isActive))).bind fun _ ↦
    .when fun _ ↦ h.configInterval E data _

theorem operands (operation : Int → Int → Int) : Keeps J (operands E data operation) :=
  (h.payloadAt E data _).bind fun _ ↦ (h.payloadAt E data _).bind fun _ ↦ .pure _

theorem calculate : Keeps J (calculate E data) := by
  have hdivision : Keeps J (division E data) := by
    apply (h.payloadAt E data _).bind
    intro _
    exact .ite (fun _ ↦ .pure _) fun _ ↦ h.operands E data _
  apply (h.payloadAt E data _).bind
  intro _
  refine .ite (fun _ ↦ h.operands E data _) fun _ ↦ ?_
  refine .ite (fun _ ↦ h.operands E data _) fun _ ↦ ?_
  refine .ite (fun _ ↦ h.operands E data _) fun _ ↦ ?_
  exact .ite (fun _ ↦ hdivision) fun _ ↦ .pure _

theorem sendCarEvent (command : Nat) : Keeps J (sendCarEvent E command data) := by
  apply Keeps.when
  intro _
  apply Keeps.ite
  · exact fun _ ↦ (h.payloadAt E data _).bind fun _ ↦ h.callOtsm E _
  · exact fun _ ↦ h.callOtsm E _

theorem setCarInfo (getter : OtsmFunction) (frameCmd : UInt16) :
    Keeps J (setCarInfo E getter frameCmd m) :=
  (h.askOtsm E _ _).bind fun _ ↦
    (Keeps.emit (h.copyPayload _ _ _ _)).bind fun _ ↦ h.callOtsm E _

/-! ### The handlers -/

theorem ipcServerHandleHelpEvent : Keeps J (ipcServerHandleHelpEvent E clientFd m) := by
  have hdebug : Keeps J (helpDebug E m.data) := by
    apply Keeps.ite
    · exact fun _ ↦ .pure _
    · exact fun _ ↦ (h.payloadAt E _ _).bind fun _ ↦ .pure _
  apply hdebug.bind
  intro _
  exact (Keeps.when fun _ ↦ .update h.debugSet).bind fun _ ↦ h.respond _ _

theorem ipcServerHandleConfigEvent : Keeps J (ipcServerHandleConfigEvent E clientFd m) := by
  have htarget : Keeps J (configTarget E clientFd m.data) := by
    apply Keeps.ite
    · exact fun _ ↦ .pure _
    · exact fun _ ↦ (h.payloadAt E _ _).bind fun _ ↦ .pure _
  have hconfigure (cfd : Int) : Keeps J (configure E cfd m) := by
    apply Keeps.ite
    · exact fun _ ↦ h.configFlag E _ cfd
    · intro _
      apply Keeps.ite
      · exact fun _ ↦ .when fun _ ↦ h.configInterval E _ _
      · exact fun _ ↦ .when fun _ ↦ .update (h.configured cfd (.ip m.data))
  exact htarget.bind fun cfd ↦ (hconfigure cfd).bind fun _ ↦ h.respond _ _

theorem ipcServerHandleMcuEvent : Keeps J (ipcServerHandleMcuEvent E clientFd m) := by
  have hforward : Keeps J (forwardMcuEvent E m) := by
    apply Keeps.ite
    · exact fun _ ↦ .when fun _ ↦ .when fun _ ↦ h.callOtsm E _
    · exact fun _ ↦ .when fun _ ↦ h.callOtsm E _
  apply hforward.bind
  intro _
  exact (Keeps.when fun _ ↦ h.ipcServerNotifyMcuInforToClient E _ _ _ _).bind fun _ ↦ .pure _

theorem ipcServerHandleCalculationEvent :
    Keeps J (ipcServerHandleCalculationEvent E clientFd m) := by
  apply Keeps.ite
  · exact fun _ ↦ h.respond _ _
  · exact fun _ ↦ (h.calculate E _).bind fun _ ↦ h.respond _ _

theorem ipcServerHandleCarEvent : Keeps J (ipcServerHandleCarEvent E clientFd m) := by
  refine Keeps.bind ?_ fun _ ↦ .pure _
  -- the branches in the order of the switch
  refine .ite (fun _ ↦ h.sendCarEvent E _ _) fun _ ↦ ?_
  refine .ite (fun _ ↦ h.sendCarEvent E _ _) fun _ ↦ ?_
  refine .ite (fun _ ↦ h.sendCarEvent E _ _) fun _ ↦ ?_
  refine .ite (fun _ ↦ h.sendCarEvent E _ _) fun _ ↦ ?_
  refine .ite (fun _ ↦ h.setCarInfo E m _ _) fun _ ↦ ?_
  refine .ite (fun _ ↦ h.setCarInfo E m _ _) fun _ ↦ ?_
  exact .when fun _ ↦ h.setCarInfo E m _ _

/-- The rule: every handler keeps such an invariant. -/
theorem function (handler : Handler) : Keeps J (handler.function E clientFd m) := by
  cases handler with
  | calculation => exact h.ipcServerHandleCalculationEvent E m
  | help => exact h.ipcServerHandleHelpEvent E m
  | config => exact h.ipcServerHandleConfigEvent E m
  | car => exact h.ipcServerHandleCarEvent E m
  | mcu => exact h.ipcServerHandleMcuEvent E m

end HandlerInvariant
end OctopusIpc.Server

import Mathlib.Algebra.Group.Nat.Defs
import Mathlib.Tactic.Tauto
import OctopusIpc.Server.ClientEvent

/-!
# What each handler does outside the server's variables

For any property of effects, what it takes for all effects of a handler to have it: one
condition for each effect, under the tests that lead to it. None of them depends on the
server's variables.
-/

namespace OctopusIpc.Server
open OctopusIpc.Protocol Traced

variable (E : Environment) (P : Effect → Prop) (clientFd : Int) (m : DataMessage)
  (data : List UInt8) (s : ServerState)

/-- The commands of the car event that are passed on; `src/IPC/octopus_ipc_server.cpp:632–672`. -/
def OtsmHeader.carCommands (header : OtsmHeader) : List Nat :=
  [header.msgIpcCmdCarSettingSave, header.msgIpcCmdCarSetLight, header.msgIpcCmdCarSetGearLevel,
    header.msgIpcCmdCarMeterTripDistanceClear, header.msgIpcCmdCarMeterTimeClear,
    header.msgIpcCmdCarMeterOdoClear]

/-- The groups with a handler other than help and calculation are different. -/
theorem OtsmHeader.groups_ne (header : OtsmHeader) :
    header.msgGroupIpcConfig ≠ header.msgGroupMcu ∧
      header.msgGroupIpcConfig ≠ header.msgGroupCar ∧
      header.msgGroupIpcConfig ≠ header.msgGroupPassthroughO ∧
      header.msgGroupMcu ≠ header.msgGroupCar ∧
      header.msgGroupMcu ≠ header.msgGroupPassthroughO ∧
      header.msgGroupCar ≠ header.msgGroupPassthroughO := by
  have hgroups := header.groups_nodup
  simp only [List.nodup_cons, List.mem_cons, not_or] at hgroups
  tauto

/-- The commands that overwrite a structure are different. -/
theorem OtsmHeader.carSets_ne (header : OtsmHeader) :
    header.msgIpcCmdCarSetIndicator ≠ header.msgIpcCmdCarSetMeter ∧
      header.msgIpcCmdCarSetIndicator ≠ header.msgIpcCmdCarSetBattery ∧
      header.msgIpcCmdCarSetMeter ≠ header.msgIpcCmdCarSetBattery := by
  have hcmds := header.carCmds_nodup
  simp only [List.nodup_cons, List.mem_cons, not_or] at hcmds
  tauto

/-! ### The parts of the handlers -/

@[simp] theorem payloadAt_value (index : Nat) :
    (payloadAt E data index s).value = data.getD index (E.stray index) := rfl

@[simp] theorem allEffects_payloadAt (index : Nat) :
    AllEffects P (payloadAt E data index) s ↔ P (.payloadRead index data.length) := by
  simp [payloadAt]

@[simp] theorem allEffects_callOtsm (call : OtsmCall) :
    AllEffects P (callOtsm E call) s ↔ P (.otsmCall call (E.pointer call.function)) := by
  simp [callOtsm]

@[simp] theorem allEffects_askOtsm {α : Type} (f : OtsmFunction) (answer : Nat → α) :
    AllEffects P (askOtsm E f answer) s ↔ P (.otsmCall (.getInfo f) (E.pointer f)) := by
  simp [askOtsm, OtsmCall.function]

@[simp] theorem askOtsm_value {α : Type} (f : OtsmFunction) (answer : Nat → α) :
    (askOtsm E f answer s).value = answer s.answers := rfl

@[simp] theorem allEffects_sendResponse (respVector : List Int) :
    AllEffects P (sendResponse clientFd respVector) s ↔
      P (.sendResponse clientFd (respBuffer respVector)) := by
  simp [sendResponse]

@[simp] theorem allEffects_configInterval (index : Nat) :
    AllEffects P (configInterval E data index) s ↔
      P (.payloadRead index data.length) ∧
        P (.otsmCall
          (.updatePushIntervalMs (UInt16.ofNat ((data.getD index (E.stray index)).toNat * 10)))
          (E.pointer .updatePushIntervalMs)) := by
  simp [configInterval, OtsmCall.function]

@[simp] theorem allEffects_operands (operation : Int → Int → Int) :
    AllEffects P (operands E data operation) s ↔
      P (.payloadRead 1 data.length) ∧ P (.payloadRead 2 data.length) := by
  simp [operands]

@[simp] theorem allEffects_sendCarEvent (command : Nat) :
    AllEffects P (sendCarEvent E command data) s ↔
      (E.pointer .sendMessage ≠ .null →
        (1 ≤ data.length → P (.payloadRead 0 data.length)) ∧
        P (.otsmCall (.sendMessage E.header.taskModuleIpc E.header.msgOtsmDeviceCarEvent
          (UInt16.ofNat command) (UInt16.ofNat (data.headD 0).toNat))
          (E.pointer .sendMessage))) := by
  cases data with
  | nil => simp [sendCarEvent, OtsmCall.function]
  | cons b rest => simp [sendCarEvent, OtsmCall.function]

/-! ### The handlers -/

theorem allEffects_help :
    AllEffects P (ipcServerHandleHelpEvent E clientFd m) s ↔
      (m.data ≠ [] → P (.payloadRead 0 m.data.length)) ∧
      P (.sendResponse clientFd (respBuffer [E.header.msgGroupHelp])) := by
  simp [ipcServerHandleHelpEvent, helpDebug, AllEffects.ite_iff]

theorem allEffects_config :
    AllEffects P (ipcServerHandleConfigEvent E clientFd m) s ↔
      (m.data ≠ [] → P (.payloadRead 0 m.data.length)) ∧
      (m.msgId.toNat = E.header.msgIpcCmdConfigFlag →
        (2 ≤ m.data.length → P (.payloadRead 1 m.data.length)) ∧
        (3 ≤ m.data.length → P (.payloadRead 2 m.data.length) ∧
          P (.otsmCall
            (.updatePushIntervalMs (UInt16.ofNat ((m.data.getD 2 (E.stray 2)).toNat * 10)))
            (E.pointer .updatePushIntervalMs)))) ∧
      (m.msgId.toNat ≠ E.header.msgIpcCmdConfigFlag →
        m.msgId.toNat = E.header.msgIpcCmdConfigPushDelay →
        E.pointer .updatePushIntervalMs ≠ .null →
          P (.payloadRead 1 m.data.length) ∧
          P (.otsmCall
            (.updatePushIntervalMs (UInt16.ofNat ((m.data.getD 1 (E.stray 1)).toNat * 10)))
            (E.pointer .updatePushIntervalMs))) ∧
      P (.sendResponse clientFd (respBuffer [E.header.msgGroupSet])) := by
  simp [ipcServerHandleConfigEvent, configTarget, configure, configFlag, configActive,
    AllEffects.ite_iff, and_assoc]

@[simp] theorem allEffects_calculate :
    AllEffects P (calculate E data) s ↔
      P (.payloadRead 0 data.length) ∧
      (data.getD 0 (E.stray 0) ∈ [1, 2, 3] →
        P (.payloadRead 1 data.length) ∧ P (.payloadRead 2 data.length)) ∧
      (data.getD 0 (E.stray 0) = 4 → P (.payloadRead 2 data.length) ∧
        (data.getD 2 (E.stray 2) ≠ 0 → P (.payloadRead 1 data.length))) := by
  -- the tests are opened before the values they look at
  simp only [calculate, division, AllEffects.bind_iff, AllEffects.ite_iff]
  simp only [AllEffects.pure_iff, allEffects_payloadAt, allEffects_operands, payloadAt_value,
    List.mem_cons, List.not_mem_nil, or_false]
  grind

theorem allEffects_calculation :
    AllEffects P (ipcServerHandleCalculationEvent E clientFd m) s ↔
      (m.data.length < 3 → P (.sendResponse clientFd (respBuffer [-1]))) ∧
      (3 ≤ m.data.length → AllEffects P (calculate E m.data) s ∧
        P (.sendResponse clientFd (respBuffer [(calculate E m.data s).value]))) := by
  simp [ipcServerHandleCalculationEvent, -allEffects_calculate, AllEffects.ite_iff]

theorem allEffects_sendMessageToClient (msgGrp msgId size : Nat) (tInfo : Option Memory) :
    AllEffects P (ipcServerSendMessageToClient clientFd msgGrp msgId tInfo size) s ↔
      ∀ memory, tInfo = some memory →
        P (.sendBuff clientFd (infoMessage msgGrp msgId memory size).serializeMessage) := by
  cases tInfo <;> simp [ipcServerSendMessageToClient]

theorem allEffects_notifyMcuInfor (msgGrp msgId : Nat) (info : Option Memory)
    (length : UInt16) :
    AllEffects P (ipcServerNotifyMcuInforToClient E clientFd msgGrp msgId info length) s ↔
      (msgId = E.header.msgIpcCmdMcuUpdating → E.pointer .getMcuUpgradeProgressInfo ≠ .null →
        P (.otsmCall (.getInfo .getMcuUpgradeProgressInfo)
          (E.pointer .getMcuUpgradeProgressInfo)) ∧
        P (.sendBuff clientFd (infoMessage msgGrp msgId (E.progress s.answers)
          E.header.sizeofMcuUpdateProgress).serializeMessage)) ∧
      (msgId ≠ E.header.msgIpcCmdMcuUpdating → msgId = E.header.msgIpcCmdMcuVersion →
        E.pointer .getMcuFlashMetaInfor ≠ .null →
        P (.otsmCall (.getInfo .getMcuFlashMetaInfor) (E.pointer .getMcuFlashMetaInfor)) ∧
        ∀ memory, E.info s.answers .getMcuFlashMetaInfor = some memory →
          P (.sendBuff clientFd (infoMessage msgGrp msgId memory
            E.header.sizeofFlashMetaInfor).serializeMessage)) ∧
      (msgId ≠ E.header.msgIpcCmdMcuUpdating → msgId ≠ E.header.msgIpcCmdMcuVersion →
        ∀ memory, info = some memory →
          P (.sendBuff clientFd
            (infoMessage msgGrp msgId memory length.toNat).serializeMessage)) := by
  simp [ipcServerNotifyMcuInforToClient, allEffects_sendMessageToClient, AllEffects.ite_iff]
  grind

@[simp] theorem allEffects_setCarInfo (getter : OtsmFunction) (frameCmd : UInt16) :
    AllEffects P (setCarInfo E getter frameCmd m) s ↔
      P (.otsmCall (.getInfo getter) (E.pointer getter)) ∧
      P (.copyPayload getter (E.info s.answers getter).isNone m.data m.msgLength.toNat) ∧
      P (.otsmCall (.sendMessage E.header.taskModulePtl1 E.header.socToMcuModIpc frameCmd 0)
        (E.pointer .sendMessage)) := by
  simp [setCarInfo, OtsmCall.function]

theorem allEffects_forwardMcuEvent :
    AllEffects P (forwardMcuEvent E m) s ↔
      (m.msgGroup.toNat = E.header.msgGroupPassthroughO →
        E.pointer .messageDataCallbackFunc ≠ .null →
        P (.otsmCall (.messageDataCallback (UInt16.ofNat m.msgGroup.toNat)
          (UInt16.ofNat m.msgId.toNat) (if m.data.isEmpty then none else some m.data)
          (UInt16.ofNat m.data.length)) (E.pointer .messageDataCallbackFunc))) ∧
      (m.msgGroup.toNat ≠ E.header.msgGroupPassthroughO →
        m.msgId.toNat = E.header.msgIpcCmdMcuRequestUpgrading →
        E.pointer .sendMessage ≠ .null →
        P (.otsmCall (.sendMessage E.header.taskModuleIpc E.header.msgOtsmDeviceMcuEvent
          E.header.msgOtsmCmdMcuRequestUpgrading 0) (E.pointer .sendMessage))) := by
  simp only [forwardMcuEvent, ipcServerNotifyClientInforToMcu, AllEffects.ite_iff,
    AllEffects.when_iff, allEffects_callOtsm, OtsmCall.function, and_imp]
  grind

/-- Passing a message on does not touch the server's variables. -/
@[simp] theorem forwardMcuEvent_state : (forwardMcuEvent E m s).state = s := by
  unfold forwardMcuEvent ipcServerNotifyClientInforToMcu Traced.when
  split_ifs <;> rfl

theorem allEffects_mcu :
    AllEffects P (ipcServerHandleMcuEvent E clientFd m) s ↔
      AllEffects P (forwardMcuEvent E m) s ∧
      (m.msgId.toNat = E.header.msgIpcCmdMcuVersion →
        E.pointer .getMcuFlashMetaInfor ≠ .null →
        P (.otsmCall (.getInfo .getMcuFlashMetaInfor) (E.pointer .getMcuFlashMetaInfor)) ∧
        ∀ memory, E.info s.answers .getMcuFlashMetaInfor = some memory →
          P (.sendBuff clientFd (infoMessage m.msgGroup.toNat m.msgId.toNat memory
            E.header.sizeofFlashMetaInfor).serializeMessage)) := by
  have hne : E.header.msgIpcCmdMcuVersion ≠ E.header.msgIpcCmdMcuUpdating := by
    have := E.header.mcuInfos_nodup
    grind
  simp only [ipcServerHandleMcuEvent, AllEffects.bind_iff, AllEffects.when_iff,
    allEffects_notifyMcuInfor, AllEffects.pure_iff, forwardMcuEvent_state, and_true]
  grind

/-- What the car handler does depends on the message id alone. -/
theorem allEffects_car :
    AllEffects P (ipcServerHandleCarEvent E clientFd m) s ↔
      (m.msgId.toNat ∈ E.header.carCommands →
        AllEffects P (sendCarEvent E m.msgId.toNat m.data) s) ∧
      (m.msgId.toNat = E.header.msgIpcCmdCarSetIndicator →
        AllEffects P (setCarInfo E .getIndicatorInfo E.header.frameCmdCarSetIndicator m) s) ∧
      (m.msgId.toNat = E.header.msgIpcCmdCarSetMeter →
        AllEffects P (setCarInfo E .getMeterInfo E.header.frameCmdCarSetMeter m) s) ∧
      (m.msgId.toNat = E.header.msgIpcCmdCarSetBattery →
        AllEffects P (setCarInfo E .getBatteryInfo E.header.frameCmdCarSetBattery m) s) := by
  have hcmds := E.header.carCmds_nodup
  simp only [ipcServerHandleCarEvent, carEvent, AllEffects.bind_iff, AllEffects.ite_iff,
    AllEffects.when_iff, AllEffects.pure_iff, OtsmHeader.carCommands, and_true]
  grind

/-! ### The push callback -/

theorem allEffects_notifyCarInfo (getter : OtsmFunction) (msgGrp msgId : Nat)
    (length : UInt16) :
    AllEffects P (notifyCarInfo E getter clientFd msgGrp msgId length) s ↔
      (E.pointer getter ≠ .null → P (.otsmCall (.getInfo getter) (E.pointer getter)) ∧
        ∀ memory, E.info s.answers getter = some memory →
          P (.sendBuff clientFd
            (infoMessage msgGrp msgId memory length.toNat).serializeMessage)) := by
  simp [notifyCarInfo, allEffects_sendMessageToClient]

/-- A push to one client does nothing but ask the library and send one structure. -/
theorem allEffects_notifyClient {P : Effect → Prop}
    (hcall : ∀ f, P (.otsmCall (.getInfo f) (E.pointer f)))
    (hsend : ∀ (fd : Int) (msgGrp msgId size : Nat) (memory : Memory),
      size < 2 ^ 16 ∨ size = E.header.sizeofMcuUpdateProgress ∨
        size = E.header.sizeofFlashMetaInfor →
      P (.sendBuff fd (infoMessage msgGrp msgId memory size).serializeMessage))
    (client : ClientInfo) (msgGrp msgId : UInt16) (info : Option Memory) (length : UInt16)
    (s : ServerState) : AllEffects P (notifyClient E client msgGrp msgId info length) s := by
  have hlength (fd : Int) (msgGrp msgId : Nat) (memory : Memory) :
      P (.sendBuff fd (infoMessage msgGrp msgId memory length.toNat).serializeMessage) :=
    hsend fd msgGrp msgId length.toNat memory (Or.inl length.toNat_lt)
  rw [notifyClient, AllEffects.when_iff]
  intro _
  rw [AllEffects.ite_iff]
  constructor
  · intro _
    simp only [ipcServerNotifyCarInforToClient, AllEffects.ite_iff, AllEffects.when_iff,
      allEffects_notifyCarInfo, allEffects_sendMessageToClient]
    simp [hcall, hlength]
  · intro _
    rw [allEffects_notifyMcuInfor]
    simp [hcall, hsend, hlength]

/-- A bound on the pushes to single clients is one on the push as a whole. -/
theorem allEffects_mcuMessageDataCallback {P : Effect → Prop} {msgGrp msgId : UInt16}
    {info : Option Memory} {length : UInt16}
    (h : ∀ client s, AllEffects P (notifyClient E client msgGrp msgId info length) s)
    (s : ServerState) :
    AllEffects P (ipcServerMcuMessageDataCallback E msgGrp msgId info length) s := by
  rw [ipcServerMcuMessageDataCallback, AllEffects.bind_iff]
  refine ⟨(AllEffects.reads_iff _).mpr trivial, ?_⟩
  rw [AllEffects.forM_iff (Q := fun _ ↦ True) fun client s ↦ iff_of_true (h client s) trivial]
  exact fun _ _ ↦ trivial

/-! ### The dispatch -/

theorem selectHandler_eq_config_iff (header : OtsmHeader) (group : UInt8) :
    selectHandler header group = .config ↔ group.toNat = header.msgGroupIpcConfig := by
  have := header.groups_nodup
  grind [selectHandler]

theorem selectHandler_eq_car_iff (header : OtsmHeader) (group : UInt8) :
    selectHandler header group = .car ↔ group.toNat = header.msgGroupCar := by
  have := header.groups_nodup
  grind [selectHandler]

theorem selectHandler_eq_mcu_iff (header : OtsmHeader) (group : UInt8) :
    selectHandler header group = .mcu ↔
      group.toNat = header.msgGroupMcu ∨ group.toNat = header.msgGroupPassthroughO := by
  have := header.groups_nodup
  grind [selectHandler]

/-- A dispatch is the entry of the selected handler and what that handler does. -/
theorem allEffects_dispatch :
    AllEffects P (dispatch E clientFd m) s ↔
      P (.handlerCall (selectHandler E.header m.msgGroup) clientFd m) ∧
      AllEffects P ((selectHandler E.header m.msgGroup).function E clientFd m) s := by
  simp [dispatch, callHandler]

/-- A bound that each dispatch meets under a condition on its message is met by a sequence of
messages under that condition on all of them. -/
theorem allEffects_handleMessages {P : Effect → Prop} {Q : Int × ValidMessage → Prop}
    (h : ∀ p s, AllEffects P (dispatch E p.1 p.2.val) s ↔ Q p)
    (messages : List (Int × ValidMessage)) (s : ServerState) :
    AllEffects P (handleMessages E messages) s ↔ ∀ p ∈ messages, Q p :=
  AllEffects.forM_iff (fun p s ↦ by simp [h]) messages s

end OctopusIpc.Server

import OctopusIpc.Base.Traced
import OctopusIpc.Protocol.DataMessage
import OctopusIpc.Server.Otsm
import OctopusIpc.Server.Registry

/-!
# The server's message handlers

The handlers of `src/IPC/octopus_ipc_server.cpp` and the functions they answer through, as
computations over the server's variables. What they do outside those variables is their
trace: reads of the payload, copies into library structures, calls through the library's
function pointers, and buffers handed to the socket. Logging is left out.
-/

namespace OctopusIpc.Server
open OctopusIpc.Protocol

/-- The functions `ipc_server_handle_*_event`; `src/IPC/octopus_ipc_server.cpp:89–93`. -/
inductive Handler where
  | calculation
  | help
  | config
  | car
  | mcu
  deriving DecidableEq, Repr

/-- A call through a function pointer, with its arguments. -/
inductive OtsmCall where
  | updatePushIntervalMs (delayMs : UInt16)
  | getInfo (f : OtsmFunction)
  | sendMessage (taskModule id param1 param2 : UInt16)
  | messageDataCallback (param1 param2 : UInt16) (data : Option (List UInt8)) (length : UInt16)
  deriving DecidableEq, Repr

/-- The pointer a call goes through. -/
def OtsmCall.function : OtsmCall → OtsmFunction
  | updatePushIntervalMs _ => .updatePushIntervalMs
  | getInfo f => f
  | sendMessage _ _ _ _ => .sendMessage
  | messageDataCallback _ _ _ _ => .messageDataCallbackFunc

/-- What a handler does outside the server's variables. -/
inductive Effect where
  /-- A handler is entered with a message of a client. -/
  | handlerCall (handler : Handler) (clientFd : Int) (queryMsg : DataMessage)
  /-- The byte at an index of a payload of the given size is read. -/
  | payloadRead (index size : Nat)
  /-- That many bytes are copied from a payload into the structure a getter returned. -/
  | copyPayload (target : OtsmFunction) (isNull : Bool) (data : List UInt8) (length : Nat)
  /-- The library is called, the pointer having the given value. -/
  | otsmCall (call : OtsmCall) (pointer : FunctionPointer)
  /-- `Socket::send_response` is called. -/
  | sendResponse (fd : Int) (buffer : List UInt8)
  /-- `Socket::send_buff` is called. -/
  | sendBuff (fd : Int) (buffer : List UInt8)
  /-- A descriptor number is closed. -/
  | close (fd : Int)
  deriving DecidableEq, Repr

/-- The server's variables: `active_clients`, `ipc_server_socket_debug_print_data`, and how
often the library has answered; `src/IPC/octopus_ipc_server.cpp:104–107`. -/
structure ServerState where
  activeClients : ActiveClients
  debugPrintData : Bool
  answers : Nat

/-- The variables at the start of the program. -/
def ServerState.init : ServerState := ⟨KeyedSet.empty, false, 0⟩

/-- A computation of the server. -/
abbrev Handling := Traced ServerState Effect

variable (E : Environment)

/-- The call of a library function without a result. -/
def callOtsm (call : OtsmCall) : Handling Unit :=
  Traced.emit (.otsmCall call (E.pointer call.function))

/-- The call of a library function that answers. -/
def askOtsm {α : Type} (f : OtsmFunction) (answer : Nat → α) : Handling α := do
  callOtsm E (.getInfo f)
  let n ← Traced.reads ServerState.answers
  Traced.update fun s ↦ { s with answers := s.answers + 1 }
  return answer n

/-- The expression `data[index]`. -/
def payloadAt (data : List UInt8) (index : Nat) : Handling UInt8 := do
  Traced.emit (.payloadRead index data.length)
  return data.getD index (E.stray index)

/-- The buffer `Socket::send_response` fills; `src/IPC/octopus_ipc_socket.cpp:340–344`. -/
def respBuffer (respVector : List Int) : List UInt8 := respVector.map UInt8.ofInt

/-- The call of `Socket::send_response` under `server_mutex`. -/
def sendResponse (clientFd : Int) (respVector : List Int) : Handling Unit :=
  Traced.emit (.sendResponse clientFd (respBuffer respVector))

/-! ### Information sent to a client -/

/-- The message built around `size` bytes at an address;
`src/IPC/octopus_ipc_server.cpp:815–822`. -/
def infoMessage (msgGrp msgId : Nat) (tInfo : Memory) (size : Nat) : DataMessage :=
  { DataMessage.new with
    msgGroup := UInt8.ofNat msgGrp
    msgId := UInt8.ofNat msgId
    msgLength := UInt16.ofNat size
    data := (List.range size).map tInfo }

/-- `src/IPC/octopus_ipc_server.cpp:805–840`. -/
def ipcServerSendMessageToClient (clientFd : Int) (msgGrp msgId : Nat) (tInfo : Option Memory)
    (size : Nat) : Handling Unit :=
  match tInfo with
  | none => pure ()
  | some tInfo =>
    Traced.emit (.sendBuff clientFd (infoMessage msgGrp msgId tInfo size).serializeMessage)

/-- `src/IPC/octopus_ipc_server.cpp:306–340`. The branch of the key events and the default
branch send the same. -/
def ipcServerNotifyMcuInforToClient (clientFd : Int) (msgGrp msgId : Nat) (data : Option Memory)
    (length : UInt16) : Handling Unit :=
  if msgId = E.header.msgIpcCmdMcuUpdating then
    Traced.when (E.pointer .getMcuUpgradeProgressInfo ≠ .null) do
      let mcuUpdateProgress ← askOtsm E .getMcuUpgradeProgressInfo E.progress
      ipcServerSendMessageToClient clientFd msgGrp msgId (some mcuUpdateProgress)
        E.header.sizeofMcuUpdateProgress
  else if msgId = E.header.msgIpcCmdMcuVersion then
    Traced.when (E.pointer .getMcuFlashMetaInfor ≠ .null) do
      let flashMetaInfor ← askOtsm E .getMcuFlashMetaInfor (E.info · .getMcuFlashMetaInfor)
      ipcServerSendMessageToClient clientFd msgGrp msgId flashMetaInfor
        E.header.sizeofFlashMetaInfor
  else
    ipcServerSendMessageToClient clientFd msgGrp msgId data length.toNat

/-- The branches of the next function for one structure of the car. -/
def notifyCarInfo (getter : OtsmFunction) (clientFd : Int) (msgGrp msgId : Nat)
    (length : UInt16) : Handling Unit :=
  Traced.when (E.pointer getter ≠ .null) do
    let carinfo ← askOtsm E getter (E.info · getter)
    ipcServerSendMessageToClient clientFd msgGrp msgId carinfo length.toNat

/-- `src/IPC/octopus_ipc_server.cpp:716–802`. -/
def ipcServerNotifyCarInforToClient (clientFd : Int) (msgGrp msgId : Nat) (data : Option Memory)
    (length : UInt16) : Handling Unit :=
  if msgId = E.header.msgIpcCmdCarGetIndicatorInfo then
    notifyCarInfo E .getIndicatorInfo clientFd msgGrp msgId length
  else if msgId = E.header.msgIpcCmdCarGetMeterInfo then
    notifyCarInfo E .getMeterInfo clientFd msgGrp msgId length
  else if msgId = E.header.msgIpcCmdCarGetBatteryInfo then
    notifyCarInfo E .getBatteryInfo clientFd msgGrp msgId length
  else if msgId = E.header.msgIpcCmdCarGetErrorInfo then
    notifyCarInfo E .getErrorInfo clientFd msgGrp msgId length
  else
    Traced.when (msgId = E.header.msgIpcCmdUserCustomize)
      (ipcServerSendMessageToClient clientFd msgGrp msgId data length.toNat)

/-- What the MCU's message means for one registered client;
`src/IPC/octopus_ipc_server.cpp:279–302`. -/
def notifyClient (client : ClientInfo) (msgGrp msgId : UInt16) (data : Option Memory)
    (length : UInt16) : Handling Unit :=
  Traced.when (client.flag = true)
    (if msgGrp.toNat = E.header.msgGroupCar then
      ipcServerNotifyCarInforToClient E client.fd msgGrp.toNat msgId.toNat data length
    else
      ipcServerNotifyMcuInforToClient E client.fd msgGrp.toNat msgId.toNat data length)

/-- `src/IPC/octopus_ipc_server.cpp:266–304`, nobody touching the registry meanwhile. -/
def ipcServerMcuMessageDataCallback (msgGrp msgId : UInt16) (data : Option Memory)
    (length : UInt16) : Handling Unit := do
  let activeClients ← Traced.reads ServerState.activeClients
  activeClients.elems.forM fun client ↦ notifyClient E client msgGrp msgId data length

/-! ### The five handlers -/

/-- The test of the debug request; `src/IPC/octopus_ipc_server.cpp:468`. -/
def helpDebug (data : List UInt8) : Handling Bool :=
  if data.isEmpty then pure true
  else do
    let b ← payloadAt E data 0
    return b == 1

/-- `src/IPC/octopus_ipc_server.cpp:457–483`. -/
def ipcServerHandleHelpEvent (clientFd : Int) (queryMsg : DataMessage) : Handling Int := do
  let debug ← helpDebug E queryMsg.data
  Traced.when (debug = true) (Traced.update fun s ↦ { s with debugPrintData := true })
  sendResponse clientFd [E.header.msgGroupHelp]
  return 0

/-- The descriptor a configuration message names; `src/IPC/octopus_ipc_server.cpp:488`. -/
def configTarget (clientFd : Int) (data : List UInt8) : Handling Int :=
  if data.isEmpty then pure clientFd
  else do
    let b ← payloadAt E data 0
    return if b ≤ 0 then clientFd else b.toNat

/-- The flag a configuration message asks for; `src/IPC/octopus_ipc_server.cpp:494`. -/
def configActive (data : List UInt8) : Handling Bool :=
  if 2 ≤ data.length then do
    let b ← payloadAt E data 1
    return decide (0 < b)
  else pure false

/-- The push interval taken from a payload byte;
`src/IPC/octopus_ipc_server.cpp:498,504–506`. -/
def configInterval (data : List UInt8) (index : Nat) : Handling Unit := do
  let b ← payloadAt E data index
  callOtsm E (.updatePushIntervalMs (UInt16.ofNat (b.toNat * 10)))

/-- The branch of the flag; `src/IPC/octopus_ipc_server.cpp:491–499`. The pointer is not
tested here, unlike for the push delay. -/
def configFlag (cfd : Int) (data : List UInt8) : Handling Unit := do
  let isActive ← configActive E data
  Traced.update fun s ↦
    { s with activeClients := ipcServerUpdateClientFlag s.activeClients cfd isActive }
  Traced.when (3 ≤ data.length) (configInterval E data 2)

/-- The three branches on the message id; `src/IPC/octopus_ipc_server.cpp:491–514`. -/
def configure (cfd : Int) (queryMsg : DataMessage) : Handling Unit :=
  if queryMsg.msgId.toNat = E.header.msgIpcCmdConfigFlag then
    configFlag E cfd queryMsg.data
  else if queryMsg.msgId.toNat = E.header.msgIpcCmdConfigPushDelay then
    Traced.when (E.pointer .updatePushIntervalMs ≠ .null) (configInterval E queryMsg.data 1)
  else
    Traced.when (queryMsg.msgId.toNat = E.header.msgIpcCmdConfigIp) (Traced.update fun s ↦
      { s with activeClients := ipcServerUpdateClientIp s.activeClients cfd queryMsg.data })

/-- `src/IPC/octopus_ipc_server.cpp:485–531`. -/
def ipcServerHandleConfigEvent (clientFd : Int) (queryMsg : DataMessage) : Handling Int := do
  let cfd ← configTarget E clientFd queryMsg.data
  configure E cfd queryMsg
  sendResponse clientFd [E.header.msgGroupSet]
  return 0

/-- `src/IPC/octopus_ipc_server.cpp:563–570`. -/
def ipcServerNotifyClientInforToMcu (msgGrp msgId : Nat) (data : Option (List UInt8))
    (length : UInt16) : Handling Unit :=
  Traced.when (E.pointer .messageDataCallbackFunc ≠ .null)
    (callOtsm E (.messageDataCallback (UInt16.ofNat msgGrp) (UInt16.ofNat msgId) data length))

/-- What is passed on to the library; `src/IPC/octopus_ipc_server.cpp:536–551`. -/
def forwardMcuEvent (queryMsg : DataMessage) : Handling Unit :=
  if queryMsg.msgGroup.toNat = E.header.msgGroupPassthroughO then
    Traced.when (E.pointer .messageDataCallbackFunc ≠ .null)
      (ipcServerNotifyClientInforToMcu E queryMsg.msgGroup.toNat queryMsg.msgId.toNat
        (if queryMsg.data.isEmpty then none else some queryMsg.data)
        (UInt16.ofNat queryMsg.data.length))
  else
    Traced.when (queryMsg.msgId.toNat = E.header.msgIpcCmdMcuRequestUpgrading ∧
        E.pointer .sendMessage ≠ .null)
      (callOtsm E (.sendMessage E.header.taskModuleIpc E.header.msgOtsmDeviceMcuEvent
        E.header.msgOtsmCmdMcuRequestUpgrading 0))

/-- `src/IPC/octopus_ipc_server.cpp:533–561`. -/
def ipcServerHandleMcuEvent (clientFd : Int) (queryMsg : DataMessage) : Handling Int := do
  forwardMcuEvent E queryMsg
  Traced.when (queryMsg.msgId.toNat = E.header.msgIpcCmdMcuVersion)
    (ipcServerNotifyMcuInforToClient E clientFd queryMsg.msgGroup.toNat queryMsg.msgId.toNat
      none 0)
  return 0

/-- An operation on the second and third byte. -/
def operands (data : List UInt8) (operation : Int → Int → Int) : Handling Int := do
  let a ← payloadAt E data 1
  let b ← payloadAt E data 2
  return operation a.toNat b.toNat

/-- The division, of which a zero divisor is tested first;
`src/IPC/octopus_ipc_server.cpp:598–608`. -/
def division (data : List UInt8) : Handling Int := do
  let b ← payloadAt E data 2
  if b = 0 then return 0 else operands E data Int.tdiv

/-- The switch on the operation; `src/IPC/octopus_ipc_server.cpp:587–613`. -/
def calculate (data : List UInt8) : Handling Int := do
  let operation ← payloadAt E data 0
  if operation = 1 then operands E data (· + ·)
  else if operation = 2 then operands E data (· - ·)
  else if operation = 3 then operands E data (· * ·)
  else if operation = 4 then division E data
  else return -1

/-- `src/IPC/octopus_ipc_server.cpp:573–626`. Too few operands are answered with -1, but the
function returns the initial 0 then. -/
def ipcServerHandleCalculationEvent (clientFd : Int) (queryMsg : DataMessage) : Handling Int :=
  if queryMsg.data.length < 3 then do
    sendResponse clientFd [-1]
    return 0
  else do
    let calcResult ← calculate E queryMsg.data
    sendResponse clientFd [calcResult]
    return calcResult

/-- The branches of the car event that pass a command on with one parameter;
`src/IPC/octopus_ipc_server.cpp:632–672`. -/
def sendCarEvent (command : Nat) (data : List UInt8) : Handling Unit :=
  let send (param2 : UInt16) := callOtsm E
    (.sendMessage E.header.taskModuleIpc E.header.msgOtsmDeviceCarEvent (UInt16.ofNat command)
      param2)
  Traced.when (E.pointer .sendMessage ≠ .null)
    (if 1 ≤ data.length then do
      let b ← payloadAt E data 0
      send (UInt16.ofNat b.toNat)
    else send 0)

/-- The branches of the car event that overwrite a structure of the library;
`src/IPC/octopus_ipc_server.cpp:674–704`. No pointer is tested. -/
def setCarInfo (getter : OtsmFunction) (frameCmd : UInt16) (dataMessage : DataMessage) :
    Handling Unit := do
  let carinfo ← askOtsm E getter (E.info · getter)
  Traced.emit (.copyPayload getter carinfo.isNone dataMessage.data dataMessage.msgLength.toNat)
  callOtsm E (.sendMessage E.header.taskModulePtl1 E.header.socToMcuModIpc frameCmd 0)

/-- The switch on the message id; `src/IPC/octopus_ipc_server.cpp:630–707`. -/
def carEvent (dataMessage : DataMessage) : Handling Unit :=
  let msgId := dataMessage.msgId.toNat
  if msgId = E.header.msgIpcCmdCarSettingSave then
    sendCarEvent E E.header.msgIpcCmdCarSettingSave dataMessage.data
  else if msgId = E.header.msgIpcCmdCarSetLight then
    sendCarEvent E E.header.msgIpcCmdCarSetLight dataMessage.data
  else if msgId = E.header.msgIpcCmdCarSetGearLevel then
    sendCarEvent E E.header.msgIpcCmdCarSetGearLevel dataMessage.data
  else if msgId = E.header.msgIpcCmdCarMeterTripDistanceClear ∨
      msgId = E.header.msgIpcCmdCarMeterTimeClear ∨
      msgId = E.header.msgIpcCmdCarMeterOdoClear then
    sendCarEvent E msgId dataMessage.data
  else if msgId = E.header.msgIpcCmdCarSetIndicator then
    setCarInfo E .getIndicatorInfo E.header.frameCmdCarSetIndicator dataMessage
  else if msgId = E.header.msgIpcCmdCarSetMeter then
    setCarInfo E .getMeterInfo E.header.frameCmdCarSetMeter dataMessage
  else
    Traced.when (msgId = E.header.msgIpcCmdCarSetBattery)
      (setCarInfo E .getBatteryInfo E.header.frameCmdCarSetBattery dataMessage)

/-- `src/IPC/octopus_ipc_server.cpp:628–710`. The client is not answered. -/
def ipcServerHandleCarEvent (_clientFd : Int) (dataMessage : DataMessage) : Handling Int := do
  carEvent E dataMessage
  return 0

/-- The function behind a handler. -/
def Handler.function : Handler → Int → DataMessage → Handling Int
  | calculation => ipcServerHandleCalculationEvent E
  | help => ipcServerHandleHelpEvent E
  | config => ipcServerHandleConfigEvent E
  | car => ipcServerHandleCarEvent E
  | mcu => ipcServerHandleMcuEvent E

end OctopusIpc.Server

import Mathlib.Data.List.Nodup

/-!
# What the server uses of the OTSM library

The headers of the OTSM library and the library itself are not part of the repository. The
constants are parameters, constrained only by what C++ demands of the labels of one switch;
the library is known by the function pointers the server resolved and by what the calls
through them return.
-/

namespace OctopusIpc.Server

/-- The constants of the OTSM headers named in `src/IPC/octopus_ipc_server.cpp`. The labels
of one switch are pairwise different; every switch with labels from the headers has a field
that says so. -/
structure OtsmHeader where
  msgGroupHelp : Nat
  msgGroupSet : Nat
  msgGroupIpcConfig : Nat
  msgGroupMcu : Nat
  msgGroupCar : Nat
  msgGroupPassthroughO : Nat
  msgGroupPassthroughI : Nat
  msgIpcCmdConfigFlag : Nat
  msgIpcCmdConfigPushDelay : Nat
  msgIpcCmdConfigIp : Nat
  msgIpcCmdMcuRequestUpgrading : Nat
  msgIpcCmdMcuVersion : Nat
  msgIpcCmdMcuUpdating : Nat
  msgIpcCmdKeyEvent : Nat
  msgIpcCmdKeyDownEvent : Nat
  msgIpcCmdKeyUpEvent : Nat
  msgIpcCmdCarSettingSave : Nat
  msgIpcCmdCarSetLight : Nat
  msgIpcCmdCarSetGearLevel : Nat
  msgIpcCmdCarMeterTripDistanceClear : Nat
  msgIpcCmdCarMeterTimeClear : Nat
  msgIpcCmdCarMeterOdoClear : Nat
  msgIpcCmdCarSetIndicator : Nat
  msgIpcCmdCarSetMeter : Nat
  msgIpcCmdCarSetBattery : Nat
  msgIpcCmdCarGetIndicatorInfo : Nat
  msgIpcCmdCarGetMeterInfo : Nat
  msgIpcCmdCarGetBatteryInfo : Nat
  msgIpcCmdCarGetErrorInfo : Nat
  msgIpcCmdUserCustomize : Nat
  msgOtsmCmdMcuUpdating : Nat
  msgOtsmCmdMcuRequestUpgrading : UInt16
  msgOtsmDeviceMcuEvent : UInt16
  msgOtsmDeviceCarEvent : UInt16
  taskModuleIpc : UInt16
  taskModulePtl1 : UInt16
  socToMcuModIpc : UInt16
  frameCmdCarSetIndicator : UInt16
  frameCmdCarSetMeter : UInt16
  frameCmdCarSetBattery : UInt16
  sizeofFlashMetaInfor : Nat
  sizeofMcuUpdateProgress : Nat
  /-- `src/IPC/octopus_ipc_server.cpp:406–436`. -/
  groups_nodup : [msgGroupHelp, msgGroupIpcConfig, msgGroupMcu, 3, 4, msgGroupCar,
    msgGroupPassthroughO].Nodup
  /-- `src/IPC/octopus_ipc_server.cpp:630–707`. -/
  carCmds_nodup : [msgIpcCmdCarSettingSave, msgIpcCmdCarSetLight, msgIpcCmdCarSetGearLevel,
    msgIpcCmdCarMeterTripDistanceClear, msgIpcCmdCarMeterTimeClear, msgIpcCmdCarMeterOdoClear,
    msgIpcCmdCarSetIndicator, msgIpcCmdCarSetMeter, msgIpcCmdCarSetBattery].Nodup
  /-- `src/IPC/octopus_ipc_server.cpp:283–296`. -/
  pushGroups_nodup : [msgGroupCar, msgGroupMcu, msgGroupPassthroughI].Nodup
  /-- `src/IPC/octopus_ipc_server.cpp:308–339`. -/
  mcuInfos_nodup : [msgIpcCmdMcuUpdating, msgIpcCmdMcuVersion, msgIpcCmdKeyEvent,
    msgIpcCmdKeyDownEvent, msgIpcCmdKeyUpEvent].Nodup
  /-- `src/IPC/octopus_ipc_server.cpp:718–801`. -/
  carInfos_nodup : [msgIpcCmdCarGetIndicatorInfo, msgIpcCmdCarGetMeterInfo,
    msgIpcCmdCarGetBatteryInfo, msgIpcCmdCarGetErrorInfo, msgIpcCmdUserCustomize,
    msgOtsmCmdMcuUpdating].Nodup

/-- The global function pointers into the library; `src/IPC/octopus_ipc_server.cpp:61–75`. -/
inductive OtsmFunction where
  | registerMessageCallback
  | stopRunning
  | updatePushIntervalMs
  | getMeterInfo
  | getIndicatorInfo
  | getBatteryInfo
  | getErrorInfo
  | sendMessage
  | getMcuFlashMetaInfor
  | getMcuUpgradeProgressInfo
  | messageDataCallbackFunc
  deriving DecidableEq, Repr

/-- What such a pointer holds: nothing, an address in the loaded library, or an address in
the library after it was closed. -/
inductive FunctionPointer where
  | null
  | loaded
  | closed
  deriving DecidableEq, Repr

/-- Memory at an address, by the distance from it. -/
abbrev Memory := Nat → UInt8

/-- What the handlers find outside the repository's own variables. -/
structure Environment where
  header : OtsmHeader
  /-- The resolved function pointers. -/
  pointer : OtsmFunction → FunctionPointer
  /-- The structure, if any, that the getter `f` points to at the library's `n`-th answer. -/
  info : Nat → OtsmFunction → Option Memory
  /-- The upgrade progress, returned by value, at the library's `n`-th answer. -/
  progress : Nat → Memory
  /-- What a read behind the end of a payload would see. -/
  stray : Nat → UInt8

/-- A header for examples. -/
def OtsmHeader.sample : OtsmHeader where
  msgGroupHelp := 0
  msgGroupSet := 1
  msgGroupIpcConfig := 2
  msgGroupMcu := 5
  msgGroupCar := 6
  msgGroupPassthroughO := 7
  msgGroupPassthroughI := 8
  msgIpcCmdConfigFlag := 1
  msgIpcCmdConfigPushDelay := 2
  msgIpcCmdConfigIp := 3
  msgIpcCmdMcuRequestUpgrading := 10
  msgIpcCmdMcuVersion := 11
  msgIpcCmdMcuUpdating := 12
  msgIpcCmdKeyEvent := 13
  msgIpcCmdKeyDownEvent := 14
  msgIpcCmdKeyUpEvent := 15
  msgIpcCmdCarSettingSave := 20
  msgIpcCmdCarSetLight := 21
  msgIpcCmdCarSetGearLevel := 22
  msgIpcCmdCarMeterTripDistanceClear := 23
  msgIpcCmdCarMeterTimeClear := 24
  msgIpcCmdCarMeterOdoClear := 25
  msgIpcCmdCarSetIndicator := 26
  msgIpcCmdCarSetMeter := 27
  msgIpcCmdCarSetBattery := 28
  msgIpcCmdCarGetIndicatorInfo := 30
  msgIpcCmdCarGetMeterInfo := 31
  msgIpcCmdCarGetBatteryInfo := 32
  msgIpcCmdCarGetErrorInfo := 33
  msgIpcCmdUserCustomize := 34
  msgOtsmCmdMcuUpdating := 40
  msgOtsmCmdMcuRequestUpgrading := 41
  msgOtsmDeviceMcuEvent := 42
  msgOtsmDeviceCarEvent := 43
  taskModuleIpc := 50
  taskModulePtl1 := 51
  socToMcuModIpc := 52
  frameCmdCarSetIndicator := 60
  frameCmdCarSetMeter := 61
  frameCmdCarSetBattery := 62
  sizeofFlashMetaInfor := 16
  sizeofMcuUpdateProgress := 8
  groups_nodup := by decide
  carCmds_nodup := by decide
  pushGroups_nodup := by decide
  mcuInfos_nodup := by decide
  carInfos_nodup := by decide

/-- An environment for examples, every pointer loaded and all memory zero. -/
def Environment.sample : Environment where
  header := OtsmHeader.sample
  pointer _ := .loaded
  info _ _ := some fun _ ↦ 0
  progress _ _ := 0
  stray _ := 0

end OctopusIpc.Server

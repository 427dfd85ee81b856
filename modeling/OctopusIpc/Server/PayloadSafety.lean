import OctopusIpc.Server.HandlerEffects

/-!
# Payload safety of the handlers

Which messages make a handler read behind the end of their payload or write behind the end
of a structure of the library. Most branches test the size of the payload first. The branch
of the push delay tests a function pointer instead, and the branches that overwrite a
structure of the car have their tests commented out.
-/

namespace OctopusIpc.Server
open OctopusIpc.Protocol Traced

/-- An effect stays within the payload it reads and within the structure it writes, whose
size goes with its getter. -/
def Effect.PayloadSafe (sizeof : OtsmFunction → Nat) : Effect → Prop
  | payloadRead index size => index < size
  | copyPayload target _ data length => length ≤ data.length ∧ length ≤ sizeof target
  | _ => True

/-- A message that sets the push delay and lacks the byte of the interval. -/
def LacksPushInterval (header : OtsmHeader) (m : DataMessage) : Prop :=
  m.msgGroup.toNat = header.msgGroupIpcConfig ∧ m.msgId.toNat ≠ header.msgIpcCmdConfigFlag ∧
    m.msgId.toNat = header.msgIpcCmdConfigPushDelay ∧ m.data.length < 2

/-- The getter of the structure a message overwrites. -/
def copyTarget (header : OtsmHeader) (m : DataMessage) : Option OtsmFunction :=
  if m.msgGroup.toNat ≠ header.msgGroupCar then none
  else if m.msgId.toNat = header.msgIpcCmdCarSetIndicator then some .getIndicatorInfo
  else if m.msgId.toNat = header.msgIpcCmdCarSetMeter then some .getMeterInfo
  else if m.msgId.toNat = header.msgIpcCmdCarSetBattery then some .getBatteryInfo
  else none

variable {E : Environment} (sizeof : OtsmFunction → Nat) (clientFd : Int) (m : DataMessage)
  (s : ServerState)

private theorem payloadSafe_help :
    AllEffects (Effect.PayloadSafe sizeof) (ipcServerHandleHelpEvent E clientFd m) s := by
  simp [allEffects_help, Effect.PayloadSafe, List.length_pos_iff]

private theorem payloadSafe_calculation :
    AllEffects (Effect.PayloadSafe sizeof) (ipcServerHandleCalculationEvent E clientFd m) s := by
  simp only [allEffects_calculation, allEffects_calculate, Effect.PayloadSafe, and_true]
  grind

private theorem payloadSafe_mcu :
    AllEffects (Effect.PayloadSafe sizeof) (ipcServerHandleMcuEvent E clientFd m) s := by
  simp [allEffects_mcu, allEffects_forwardMcuEvent, Effect.PayloadSafe]

private theorem payloadSafe_config_iff (hl : ∀ f, E.pointer f = .loaded) :
    AllEffects (Effect.PayloadSafe sizeof) (ipcServerHandleConfigEvent E clientFd m) s ↔
      (m.msgId.toNat ≠ E.header.msgIpcCmdConfigFlag →
        m.msgId.toNat = E.header.msgIpcCmdConfigPushDelay → 2 ≤ m.data.length) := by
  have hne : m.data ≠ [] → 0 < m.data.length := List.length_pos_iff.mpr
  simp only [allEffects_config, Effect.PayloadSafe, hl]
  grind

private theorem payloadSafe_car_iff (hm : m.isValid = true)
    (hg : m.msgGroup.toNat = E.header.msgGroupCar) :
    AllEffects (Effect.PayloadSafe sizeof) (ipcServerHandleCarEvent E clientFd m) s ↔
      ∀ f ∈ copyTarget E.header m, m.data.length ≤ sizeof f := by
  have hlength := ((DataMessage.isValid_iff m).mp hm).2
  have hne := E.header.carSets_ne
  simp only [allEffects_car, allEffects_sendCarEvent, allEffects_setCarInfo, Effect.PayloadSafe,
    copyTarget, hlength, Option.mem_def]
  split_ifs <;> simp only [Option.some.injEq, forall_eq', false_implies] <;> grind

/-- With all pointers loaded, the handling of a valid message is payload safe, whatever the
sizes of the structures and the server's variables, exactly when the message does not lack
a push interval and fits into the structure it overwrites, if any. -/
theorem payloadSafe_dispatch_iff (hl : ∀ f, E.pointer f = .loaded) (m : ValidMessage) :
    AllEffects (Effect.PayloadSafe sizeof) (dispatch E clientFd m.val) s ↔
      ¬ LacksPushInterval E.header m.val ∧
        ∀ f ∈ copyTarget E.header m.val, m.val.data.length ≤ sizeof f := by
  have hconfig := selectHandler_eq_config_iff E.header m.val.msgGroup
  have hcar := selectHandler_eq_car_iff E.header m.val.msgGroup
  have hnone (hh : selectHandler E.header m.val.msgGroup ≠ .car) :
      copyTarget E.header m.val = none := if_pos fun hg ↦ hh (hcar.mpr hg)
  -- the messages for the other handlers meet the condition
  have hsafe (hc : selectHandler E.header m.val.msgGroup ≠ .config)
      (hh : selectHandler E.header m.val.msgGroup ≠ .car) :
      ¬ LacksPushInterval E.header m.val ∧
        ∀ f ∈ copyTarget E.header m.val, m.val.data.length ≤ sizeof f := by
    rw [hnone hh]
    exact ⟨fun hl ↦ hc (hconfig.mpr hl.1), fun f hf ↦ nomatch hf⟩
  rw [allEffects_dispatch]
  cases h : selectHandler E.header m.val.msgGroup with
  | help =>
    exact iff_of_true ⟨trivial, payloadSafe_help sizeof clientFd m.val s⟩
      (hsafe (by simp [h]) (by simp [h]))
  | calculation =>
    exact iff_of_true ⟨trivial, payloadSafe_calculation sizeof clientFd m.val s⟩
      (hsafe (by simp [h]) (by simp [h]))
  | mcu =>
    exact iff_of_true ⟨trivial, payloadSafe_mcu sizeof clientFd m.val s⟩
      (hsafe (by simp [h]) (by simp [h]))
  | config =>
    rw [Handler.function, payloadSafe_config_iff sizeof clientFd m.val s hl,
      hnone (by simp [h])]
    constructor
    · rintro ⟨-, hlength⟩
      refine ⟨fun hl ↦ ?_, fun f hf ↦ nomatch hf⟩
      have := hlength hl.2.1 hl.2.2.1
      have := hl.2.2.2
      omega
    · rintro ⟨hl, -⟩
      refine ⟨trivial, fun hf hd ↦ ?_⟩
      by_contra hlt
      exact hl ⟨hconfig.mp h, hf, hd, by omega⟩
  | car =>
    have hg := hcar.mp h
    have hne : m.val.msgGroup.toNat ≠ E.header.msgGroupIpcConfig := fun hc ↦ by
      rw [hconfig.mpr hc] at h
      cases h
    rw [Handler.function, payloadSafe_car_iff sizeof clientFd m.val s m.property hg,
      LacksPushInterval]
    simp [hne, Effect.PayloadSafe]

/-! ### Whatever the pointers -/

/-- An effect reads a payload within its bounds, and copies one only where a structure is. -/
def Effect.AccessOk : Effect → Prop
  | payloadRead index size => index < size
  | copyPayload _ isNull _ _ => isNull = false
  | _ => True

instance : (e : Effect) → Decidable e.AccessOk
  | .payloadRead _ _ => inferInstanceAs (Decidable (_ < _))
  | .copyPayload _ _ _ _ => inferInstanceAs (Decidable (_ = _))
  | .handlerCall _ _ _ | .otsmCall _ _ | .sendResponse _ _ | .sendBuff _ _ | .close _ =>
    inferInstanceAs (Decidable True)

/-- The branch of the push delay is taken without the byte of the interval. -/
def ReadsBehindEnd (E : Environment) (m : DataMessage) : Prop :=
  LacksPushInterval E.header m ∧ E.pointer .updatePushIntervalMs ≠ .null

instance (m : DataMessage) : Decidable (ReadsBehindEnd E m) :=
  inferInstanceAs (Decidable ((_ ∧ _ ∧ _ ∧ _) ∧ _))

private theorem accessOk_config_iff (hg : m.msgGroup.toNat = E.header.msgGroupIpcConfig) :
    AllEffects Effect.AccessOk (ipcServerHandleConfigEvent E clientFd m) s ↔
      ¬ ReadsBehindEnd E m := by
  have hne : m.data ≠ [] → 0 < m.data.length := List.length_pos_iff.mpr
  simp only [allEffects_config, Effect.AccessOk, ReadsBehindEnd, LacksPushInterval, hg]
  grind

/-- Of the messages that are not for the car, whatever the library, only a push delay without
the byte of the interval is read behind its end. -/
theorem accessOk_dispatch_iff (hg : m.msgGroup.toNat ≠ E.header.msgGroupCar) :
    AllEffects Effect.AccessOk (dispatch E clientFd m) s ↔ ¬ ReadsBehindEnd E m := by
  have hconfig := selectHandler_eq_config_iff E.header m.msgGroup
  have hcar := selectHandler_eq_car_iff E.header m.msgGroup
  have hno (hh : selectHandler E.header m.msgGroup ≠ .config) : ¬ ReadsBehindEnd E m :=
    fun hreads ↦ hh (hconfig.mpr hreads.1.1)
  rw [allEffects_dispatch]
  cases h : selectHandler E.header m.msgGroup with
  | help =>
    refine iff_of_true ⟨trivial, ?_⟩ (hno (by simp [h]))
    simp [Handler.function, allEffects_help, Effect.AccessOk, List.length_pos_iff]
  | calculation =>
    refine iff_of_true ⟨trivial, ?_⟩ (hno (by simp [h]))
    simp only [Handler.function, allEffects_calculation, allEffects_calculate, Effect.AccessOk,
      and_true]
    grind
  | mcu =>
    refine iff_of_true ⟨trivial, ?_⟩ (hno (by simp [h]))
    simp [Handler.function, allEffects_mcu, allEffects_forwardMcuEvent, Effect.AccessOk]
  | config =>
    exact (and_iff_right trivial).trans (accessOk_config_iff clientFd m s (hconfig.mp h))
  | car => exact absurd (hcar.mp h) hg

/-! ### The two faults -/

/-- A push delay without payload, and the state of a battery in two bytes. -/
def pushDelayWithoutPayload : ValidMessage := ⟨DataMessage.ofPayload 2 2 [], rfl⟩

def batteryOfTwoBytes : ValidMessage := ⟨DataMessage.ofPayload 6 28 [1, 2], rfl⟩

/-- The first is read behind its end, and the second does not fit into a structure of one
byte. -/
theorem not_payloadSafe_dispatch :
    (∀ f, Environment.sample.pointer f = .loaded) ∧
      ¬ AllEffects (Effect.PayloadSafe fun _ ↦ 1)
        (dispatch Environment.sample 5 pushDelayWithoutPayload.val) ServerState.init ∧
      ¬ AllEffects (Effect.PayloadSafe fun _ ↦ 1)
        (dispatch Environment.sample 5 batteryOfTwoBytes.val) ServerState.init := by
  refine ⟨fun _ ↦ rfl, fun h ↦ ?_, fun h ↦ ?_⟩
  · have hread : Effect.payloadRead 1 0 ∈
        (dispatch Environment.sample 5 pushDelayWithoutPayload.val ServerState.init).effects := by
      decide
    exact absurd (h _ hread) (by decide : ¬ 1 < 0)
  · have hcopy : Effect.copyPayload .getBatteryInfo false [1, 2] 2 ∈
        (dispatch Environment.sample 5 batteryOfTwoBytes.val ServerState.init).effects := by
      decide
    exact absurd (h _ hcopy).2 (by decide : ¬ 2 ≤ 1)

/-- A push delay of two bytes is payload safe. -/
theorem payloadSafe_dispatch_pushDelay :
    AllEffects (Effect.PayloadSafe fun _ ↦ 1)
      (dispatch Environment.sample 5 (DataMessage.ofPayload 2 2 [0, 7])) ServerState.init :=
  (payloadSafe_dispatch_iff (fun _ ↦ 1) 5 ServerState.init (fun _ ↦ rfl)
    ⟨DataMessage.ofPayload 2 2 [0, 7], rfl⟩).mpr ⟨fun h ↦ absurd h.2.2.2 (by decide),
      fun _ h ↦ nomatch h⟩

end OctopusIpc.Server

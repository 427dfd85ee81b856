import Mathlib.Data.Set.List
import OctopusIpc.Server.HandlerEffects

/-!
# What the server writes to a client

Two writers feed the stream to a client: `Socket::send_response` with bare response bytes and
`Socket::send_buff` with serialised messages. The documented frame format is kept only where
the first is not used.
-/

namespace OctopusIpc.Server
open OctopusIpc.Protocol Traced

/-- What the server handles: a valid message of a client, or a call of the push callback. -/
inductive Input where
  | request (clientFd : Int) (queryMsg : ValidMessage)
  | push (msgGrp msgId : UInt16) (data : Option Memory) (length : UInt16)

/-- The bytes one call of a writer hands to a client. -/
def Effect.unitTo (fd : Int) : Effect → Option (List UInt8)
  | sendResponse fd' buffer | sendBuff fd' buffer => if fd' = fd then some buffer else none
  | _ => none

/-- The bytes of each call of a writer for a client, in order. -/
def unitsTo (fd : Int) (effects : List Effect) : List (List UInt8) :=
  effects.filterMap (Effect.unitTo fd)

/-- The bytes written are the frames of valid messages, and each call of a writer is one of
these messages. -/
def SpeaksFrames (units : List (List UInt8)) : Prop :=
  ∃ ms : List ValidMessage, units.flatten = frameCode.stream ms ∧
    units = ms.map frameCode.encode

/-- An effect writes nothing to a client but the frame of a valid message. -/
def Effect.Framed (fd : Int) (e : Effect) : Prop :=
  ∀ b, e.unitTo fd = some b → ∃ m : ValidMessage, frameCode.encode m = b

/-- Frames are spoken exactly when each effect is framed. -/
theorem speaksFrames_iff_framed (fd : Int) (effects : List Effect) :
    SpeaksFrames (unitsTo fd effects) ↔ ∀ e ∈ effects, e.Framed fd := by
  have hframes : SpeaksFrames (unitsTo fd effects) ↔
      unitsTo fd effects ∈ Set.range (List.map frameCode.encode) := by
    constructor
    · rintro ⟨ms, -, h⟩
      exact ⟨ms, h.symm⟩
    · rintro ⟨ms, h⟩
      exact ⟨ms, by rw [← h, PrefixCode.stream, List.flatMap_def], h.symm⟩
  rw [hframes, Set.range_list_map]
  constructor
  · intro h e he b hb
    exact h b (List.mem_filterMap.mpr ⟨e, he, hb⟩)
  · intro h b hb
    obtain ⟨e, he, hu⟩ := List.mem_filterMap.mp hb
    exact h e he b hu

theorem framed_sendResponse (fd fd' : Int) (b : List UInt8) :
    (Effect.sendResponse fd' b).Framed fd ↔
      (fd' = fd → ∃ m : ValidMessage, frameCode.encode m = b) := by
  simp [Effect.Framed, Effect.unitTo]

theorem framed_sendBuff (fd fd' : Int) (b : List UInt8) :
    (Effect.sendBuff fd' b).Framed fd ↔
      (fd' = fd → ∃ m : ValidMessage, frameCode.encode m = b) := by
  simp [Effect.Framed, Effect.unitTo]

/-- A response of one byte is no frame. -/
theorem framed_oneByte_iff (fd fd' : Int) (r : Int) :
    (Effect.sendResponse fd' (respBuffer [r])).Framed fd ↔ fd' ≠ fd := by
  have hno : ¬ ∃ m : ValidMessage, frameCode.encode m = respBuffer [r] := by
    rintro ⟨m, hm⟩
    have hlength := m.val.base_le_length_serializeMessage
    rw [← frameCode_encode, hm, respBuffer, List.length_map, List.length_singleton] at hlength
    omega
  rw [framed_sendResponse, imp_iff_not hno]

/-- Information that fits into the length field makes a valid message. -/
theorem isValid_infoMessage (msgGrp msgId : Nat) (memory : Memory) {size : Nat}
    (hs : size < 2 ^ 16) : (infoMessage msgGrp msgId memory size).isValid = true := by
  rw [DataMessage.isValid_iff]
  refine ⟨rfl, ?_⟩
  show (UInt16.ofNat size).toNat = ((List.range size).map memory).length
  rw [List.length_map, List.length_range]
  exact UInt16.toNat_ofNat_of_lt' hs

/-- A structure whose size fits into the length field is sent as the frame of a valid
message. -/
theorem framed_infoMessage (fd fd' : Int) (msgGrp msgId : Nat) (memory : Memory) {size : Nat}
    (hs : size < 2 ^ 16) :
    (Effect.sendBuff fd' (infoMessage msgGrp msgId memory size).serializeMessage).Framed fd := by
  rw [framed_sendBuff]
  exact fun _ ↦ ⟨⟨_, isValid_infoMessage msgGrp msgId memory hs⟩, rfl⟩

@[simp] theorem framed_otsmCall (fd : Int) (call : OtsmCall) (pointer : FunctionPointer) :
    (Effect.otsmCall call pointer).Framed fd := fun _ h ↦ nomatch h

@[simp] theorem framed_payloadRead (fd : Int) (index size : Nat) :
    (Effect.payloadRead index size).Framed fd := fun _ h ↦ nomatch h

@[simp] theorem framed_copyPayload (fd : Int) (target : OtsmFunction) (isNull : Bool)
    (data : List UInt8) (length : Nat) :
    (Effect.copyPayload target isNull data length).Framed fd := fun _ h ↦ nomatch h

@[simp] theorem framed_handlerCall (fd fd' : Int) (handler : Handler) (m : DataMessage) :
    (Effect.handlerCall handler fd' m).Framed fd := fun _ h ↦ nomatch h

/-! ### One input -/

variable (E : Environment)

/-- The groups whose messages are answered with frames, if at all. -/
def AnsweredInFrames (header : OtsmHeader) (m : DataMessage) : Prop :=
  m.msgGroup.toNat = header.msgGroupMcu ∨ m.msgGroup.toNat = header.msgGroupPassthroughO ∨
    m.msgGroup.toNat = header.msgGroupCar

/-- What is done with one input. -/
def handleInput : Input → Handling Unit
  | .request clientFd queryMsg => do
    let _handleResult ← dispatch E clientFd queryMsg.val
  | .push msgGrp msgId data length =>
    ipcServerMcuMessageDataCallback E msgGrp msgId data length

/-- Handling a message writes no bytes to a client but frames exactly when it is a message of
another client or one that is answered in frames. -/
theorem framed_dispatch_iff (hflash : E.header.sizeofFlashMetaInfor < 2 ^ 16) (fd fd' : Int)
    (m : DataMessage) (s : ServerState) :
    AllEffects (Effect.Framed fd) (dispatch E fd' m) s ↔
      (fd' = fd → AnsweredInFrames E.header m) := by
  have hcar := selectHandler_eq_car_iff E.header m.msgGroup
  have hmcu := selectHandler_eq_mcu_iff E.header m.msgGroup
  have hanswered : AnsweredInFrames E.header m ↔
      selectHandler E.header m.msgGroup = .mcu ∨ selectHandler E.header m.msgGroup = .car := by
    rw [AnsweredInFrames, hcar, hmcu, or_assoc]
  rw [allEffects_dispatch, hanswered]
  cases h : selectHandler E.header m.msgGroup with
  | help => simp [Handler.function, allEffects_help, framed_oneByte_iff]
  | config => simp [Handler.function, allEffects_config, framed_oneByte_iff]
  | calculation =>
    simp only [Handler.function, allEffects_calculation, allEffects_calculate,
      framed_oneByte_iff, framed_handlerCall, framed_payloadRead]
    grind
  | car => simp [Handler.function, allEffects_car]
  | mcu => simp [Handler.function, allEffects_mcu, allEffects_forwardMcuEvent,
      framed_infoMessage _ _ _ _ _ hflash]

/-- A push writes nothing but frames. -/
theorem framed_push (hflash : E.header.sizeofFlashMetaInfor < 2 ^ 16)
    (hprogress : E.header.sizeofMcuUpdateProgress < 2 ^ 16) (fd : Int) (msgGrp msgId : UInt16)
    (data : Option Memory) (length : UInt16) (s : ServerState) :
    AllEffects (Effect.Framed fd)
      (ipcServerMcuMessageDataCallback E msgGrp msgId data length) s := by
  refine allEffects_mcuMessageDataCallback E (fun client s ↦ ?_) s
  refine allEffects_notifyClient E (fun _ ↦ framed_otsmCall _ _ _) ?_ client msgGrp msgId data
    length s
  intro fd' msgGrp msgId size memory hsize
  apply framed_infoMessage
  omega

/-! ### Sequences of inputs -/

/-- What is done with a sequence of inputs. -/
def handleInputs (inputs : List Input) : Handling Unit := inputs.forM (handleInput E)

/-- The requests of a client are all answered in frames. -/
def Input.InFrames (fd : Int) : Input → Prop
  | request clientFd queryMsg => clientFd = fd → AnsweredInFrames E.header queryMsg.val
  | push _ _ _ _ => True

/-- For structures of the library that fit into the length field: whatever sequence of
requests and pushes is handled in whatever state, the server speaks frames to a client
exactly when all requests of this client are in groups that are answered in frames. -/
theorem speaksFrames_iff (hflash : E.header.sizeofFlashMetaInfor < 2 ^ 16)
    (hprogress : E.header.sizeofMcuUpdateProgress < 2 ^ 16) (fd : Int) (inputs : List Input)
    (s : ServerState) :
    SpeaksFrames (unitsTo fd (handleInputs E inputs s).effects) ↔
      ∀ input ∈ inputs, input.InFrames E fd := by
  rw [speaksFrames_iff_framed]
  refine AllEffects.forM_iff (fun input s ↦ ?_) inputs s
  cases input with
  | request clientFd queryMsg =>
    simp [handleInput, Input.InFrames, framed_dispatch_iff E hflash]
  | push msgGrp msgId data length =>
    exact iff_of_true (framed_push E hflash hprogress fd msgGrp msgId data length s) trivial

/-- A request for the version of the MCU is answered, and a key event pushed, in frames. -/
theorem speaksFrames_mcuVersion :
    SpeaksFrames (unitsTo 5 (handleInputs Environment.sample
      [.request 5 ⟨DataMessage.ofPayload 5 11 [], rfl⟩, .push 5 13 (some fun _ ↦ 1) 2]
      ServerState.init).effects) := by
  refine (speaksFrames_iff Environment.sample (by decide) (by decide) 5 _ _).mpr ?_
  intro input hinput
  rcases List.mem_cons.mp hinput with rfl | hinput
  · exact fun _ ↦ Or.inl rfl
  · rw [List.mem_singleton.mp hinput]
    trivial

/-- A help request. -/
def helpRequest : ValidMessage := ⟨DataMessage.new, rfl⟩

/-- The answer to a help request is no frame, and no concatenation of frames. -/
theorem not_speaksFrames_help :
    let units := unitsTo 5
      (handleInputs Environment.sample [.request 5 helpRequest] ServerState.init).effects
    ¬ SpeaksFrames units ∧ ∀ ms : List ValidMessage, units.flatten ≠ frameCode.stream ms := by
  intro units
  have hstream (ms : List ValidMessage) : units.flatten ≠ frameCode.stream ms := by
    rw [show units.flatten = [0] from rfl]
    intro h
    cases ms with
    | nil => cases h
    | cons m ms =>
      have hlength := congrArg List.length h
      have hbase := m.val.base_le_length_serializeMessage
      rw [PrefixCode.stream_cons, List.length_append, frameCode_encode,
        List.length_singleton] at hlength
      omega
  exact ⟨fun ⟨ms, h, _⟩ ↦ hstream ms h, hstream⟩

end OctopusIpc.Server

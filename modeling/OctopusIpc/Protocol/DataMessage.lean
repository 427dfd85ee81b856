import OctopusIpc.Base.BigEndian
import OctopusIpc.Base.PrefixCode

/-!
# Message frames

The frame of `src/IPC/octopus_ipc_ptl.cpp`: a 16-bit header, one group byte, one id byte,
a 16-bit length and the payload, both words big-endian. Decoding never fails; a decoded
message says itself whether it is valid, and valid messages form a prefix code.
-/

namespace OctopusIpc.Protocol

/-- Fields of a message; `src/IPC/octopus_ipc_ptl.hpp:41–45`. -/
structure DataMessage where
  msgHeader : UInt16
  msgGroup : UInt8
  msgId : UInt8
  msgLength : UInt16
  data : List UInt8
  deriving DecidableEq, Repr

namespace DataMessage

/-- `_HEADER_`; `src/IPC/octopus_ipc_ptl.hpp:39`. -/
def header : UInt16 := 0xA5A5

/-- The default constructor `DataMessage()`; `src/IPC/octopus_ipc_ptl.cpp:24–27`. -/
def new : DataMessage := ⟨header, 0, 0, 0, []⟩

/-- The constructor from group, id and payload; `src/IPC/octopus_ipc_ptl.cpp:62–87`.
The 16-bit length field takes the payload size modulo `2 ^ 16`. -/
def ofPayload (msgGroup msgId : UInt8) (dataArray : List UInt8) : DataMessage :=
  ⟨header, msgGroup, msgId, UInt16.ofNat dataArray.length, dataArray⟩

/-- Size of header, group, id and length; `src/IPC/octopus_ipc_ptl.cpp:229–232`. -/
def getBaseLength (_ : DataMessage) : Nat := 2 + 1 + 1 + 2

/-- Size of the base part and the stored payload; `src/IPC/octopus_ipc_ptl.cpp:223–227`. -/
def getTotalLength (m : DataMessage) : Nat := 2 + 1 + 1 + 2 + m.data.length

/-- `src/IPC/octopus_ipc_ptl.cpp:95–127` without the disabled checksum. -/
def serializeMessage (m : DataMessage) : List UInt8 :=
  [BigEndian.high m.msgHeader, BigEndian.low m.msgHeader, m.msgGroup, m.msgId,
    BigEndian.high m.msgLength, BigEndian.low m.msgLength] ++ m.data

/-- `src/IPC/octopus_ipc_ptl.cpp:139–177`: a buffer shorter than the base part gives the
default message, one shorter than its length field says gives the fields without payload. -/
def deserializeMessage (buffer : List UInt8) : DataMessage :=
  match buffer with
  | b0 :: b1 :: b2 :: b3 :: b4 :: b5 :: payload =>
    let msgLength := BigEndian.join b4 b5
    { msgHeader := BigEndian.join b0 b1
      msgGroup := b2
      msgId := b3
      msgLength := msgLength
      data := if msgLength.toNat ≤ payload.length then payload.take msgLength.toNat else [] }
  | _ => new

/-- `src/IPC/octopus_ipc_ptl.cpp:186–190`; the last two tests hold of every unsigned byte. -/
def isValid (m : DataMessage) : Bool :=
  m.msgHeader == header && m.msgLength.toNat == m.data.length &&
    decide (0 ≤ m.msgGroup) && decide (0 ≤ m.msgId)

/-- Validity constrains the header and the length field only. -/
theorem isValid_iff (m : DataMessage) :
    m.isValid = true ↔ m.msgHeader = header ∧ m.msgLength.toNat = m.data.length := by
  have hg : (0 : UInt8) ≤ m.msgGroup := UInt8.le_iff_toNat_le.mpr (Nat.zero_le _)
  have hi : (0 : UInt8) ≤ m.msgId := UInt8.le_iff_toNat_le.mpr (Nat.zero_le _)
  simp [isValid, hg, hi]

@[simp] theorem isValid_new : new.isValid = true := rfl

@[simp] theorem getBaseLength_eq (m : DataMessage) : m.getBaseLength = 6 := rfl

/-- Serialising writes the base part and the payload. -/
theorem length_serializeMessage (m : DataMessage) :
    m.serializeMessage.length = m.getTotalLength := by
  simp only [serializeMessage, getTotalLength, List.length_append, List.length_cons,
    List.length_nil]

theorem base_le_length_serializeMessage (m : DataMessage) :
    6 ≤ m.serializeMessage.length := by
  rw [length_serializeMessage, getTotalLength]
  omega

/-- A buffer shorter than the base part decodes to the default message. -/
theorem deserializeMessage_of_short {b : List UInt8} (h : b.length < 6) :
    deserializeMessage b = new := by
  match b with
  | [] | [_] | [_, _] | [_, _, _] | [_, _, _, _] | [_, _, _, _, _] => rfl
  | _ :: _ :: _ :: _ :: _ :: _ :: _ =>
    simp only [List.length_cons] at h
    omega

/-- A buffer with a complete base part is six bytes and a rest. -/
theorem exists_base_of_le {b : List UInt8} (h : 6 ≤ b.length) :
    ∃ b0 b1 b2 b3 b4 b5 payload, b = b0 :: b1 :: b2 :: b3 :: b4 :: b5 :: payload := by
  match b with
  | [] | [_] | [_, _] | [_, _, _] | [_, _, _, _] | [_, _, _, _, _] =>
    simp only [List.length_cons, List.length_nil] at h
    omega
  | b0 :: b1 :: b2 :: b3 :: b4 :: b5 :: payload => exact ⟨b0, b1, b2, b3, b4, b5, payload, rfl⟩

/-- Decoding recovers a serialised message, whatever bytes follow it. -/
theorem deserializeMessage_serializeMessage_append (m : DataMessage) (s : List UInt8)
    (h : m.isValid = true) : deserializeMessage (m.serializeMessage ++ s) = m := by
  obtain ⟨-, hl⟩ := (isValid_iff m).mp h
  have hle : m.msgLength.toNat ≤ (m.data ++ s).length := by
    rw [hl, List.length_append]
    omega
  simp only [serializeMessage, List.cons_append, List.nil_append, deserializeMessage,
    BigEndian.join_high_low, hle, if_true]
  rw [hl, List.take_left]

/-- Serialising a validly decoded message gives back the bytes it was decoded from. -/
theorem serializeMessage_deserializeMessage (b : List UInt8) (hb : 6 ≤ b.length)
    (h : (deserializeMessage b).isValid = true) :
    (deserializeMessage b).serializeMessage = b.take (deserializeMessage b).getTotalLength := by
  obtain ⟨b0, b1, b2, b3, b4, b5, payload, rfl⟩ := exists_base_of_le hb
  obtain ⟨-, hl⟩ := (isValid_iff _).mp h
  simp only [deserializeMessage] at hl ⊢
  split at hl
  · next hp =>
    simp only [serializeMessage, getTotalLength, BigEndian.high_join, BigEndian.low_join,
      if_pos hp, List.cons_append, List.nil_append, List.length_take, Nat.min_eq_left hp]
    rw [show 2 + 1 + 1 + 2 + (BigEndian.join b4 b5).toNat =
      (BigEndian.join b4 b5).toNat + 6 by omega]
    rfl
  · next hp =>
    -- without room for the payload the length field would have to be zero
    rw [List.length_nil] at hl
    omega

/-- A buffer with a complete base part decodes to a valid message exactly when it starts
with the header and holds as many payload bytes as its length field says. -/
theorem isValid_deserializeMessage_iff (b0 b1 b2 b3 b4 b5 : UInt8) (payload : List UInt8) :
    (deserializeMessage (b0 :: b1 :: b2 :: b3 :: b4 :: b5 :: payload)).isValid = true ↔
      BigEndian.join b0 b1 = header ∧ (BigEndian.join b4 b5).toNat ≤ payload.length := by
  rw [isValid_iff]
  simp only [deserializeMessage]
  split
  · next hp => simp [hp]
  · next hp =>
    simp only [List.length_nil, hp, and_false, iff_false, not_and]
    omega

/-- A message whose serialisation starts a buffer is what the buffer decodes to. -/
theorem deserializeMessage_of_prefix {m : DataMessage} {b : List UInt8} (hm : m.isValid = true)
    (h : m.serializeMessage <+: b) : deserializeMessage b = m := by
  obtain ⟨s, rfl⟩ := h
  exact deserializeMessage_serializeMessage_append m s hm

/-- A valid decode of a complete base part is serialised at the start of the buffer. -/
theorem serializeMessage_prefix_of_isValid {b : List UInt8} (hb : 6 ≤ b.length)
    (h : (deserializeMessage b).isValid = true) :
    (deserializeMessage b).serializeMessage <+: b := by
  rw [serializeMessage_deserializeMessage b hb h]
  exact List.take_prefix _ _

end DataMessage

/-- A message that passes `isValid`. -/
abbrev ValidMessage := { m : DataMessage // m.isValid = true }

/-- Serialised valid messages are a prefix code. -/
def frameCode : PrefixCode ValidMessage UInt8 where
  encode m := m.val.serializeMessage
  encode_ne_nil m h := by
    have := m.val.base_le_length_serializeMessage
    rw [h, List.length_nil] at this
    omega
  encode_append_inj m m' s s' h := by
    apply Subtype.ext
    rw [← DataMessage.deserializeMessage_serializeMessage_append m.val s m.property, h,
      DataMessage.deserializeMessage_serializeMessage_append m'.val s' m'.property]

@[simp] theorem frameCode_encode (m : ValidMessage) :
    frameCode.encode m = m.val.serializeMessage := rfl

/-- The stream of a list of valid messages is the concatenation of their serialisations. -/
theorem stream_eq_flatMap (ms : List ValidMessage) :
    frameCode.stream ms = (ms.map Subtype.val).flatMap DataMessage.serializeMessage := by
  rw [List.flatMap_map]
  rfl

private theorem stream_attachWith (ms : List DataMessage) (h : ∀ m ∈ ms, m.isValid = true) :
    frameCode.stream (ms.attachWith _ h) = ms.flatMap DataMessage.serializeMessage := by
  rw [stream_eq_flatMap, List.attachWith_map_subtype_val]

/-- The codec is a bijection onto its image with prefix decoding: a valid message is
recovered from its frame followed by anything, a valid decode is serialised to the bytes
it came from, no valid frame is a beginning of another one, and a concatenation of frames
has one parse. -/
theorem codec_bijective :
    (∀ (m : DataMessage) (s : List UInt8), m.isValid = true →
      DataMessage.deserializeMessage (m.serializeMessage ++ s) = m) ∧
    (∀ b : List UInt8, 6 ≤ b.length → (DataMessage.deserializeMessage b).isValid = true →
      (DataMessage.deserializeMessage b).serializeMessage =
        b.take (DataMessage.deserializeMessage b).getTotalLength) ∧
    (∀ m m' : DataMessage, m.isValid = true → m'.isValid = true →
      m.serializeMessage <+: m'.serializeMessage → m = m') ∧
    (∀ ms ms' : List DataMessage, (∀ m ∈ ms, m.isValid = true) →
      (∀ m ∈ ms', m.isValid = true) →
      ms.flatMap DataMessage.serializeMessage = ms'.flatMap DataMessage.serializeMessage →
      ms = ms') := by
  refine ⟨DataMessage.deserializeMessage_serializeMessage_append,
    DataMessage.serializeMessage_deserializeMessage, ?_, ?_⟩
  · intro m m' hm hm' h
    have hp : frameCode.encode ⟨m, hm⟩ <+: frameCode.encode ⟨m', hm'⟩ := h
    exact congrArg Subtype.val (frameCode.eq_of_encode_prefix hp)
  · intro ms ms' hms hms' h
    rw [← stream_attachWith ms hms, ← stream_attachWith ms' hms'] at h
    have he := congrArg (List.map Subtype.val) (frameCode.stream_injective h)
    rwa [List.attachWith_map_subtype_val, List.attachWith_map_subtype_val] at he

end OctopusIpc.Protocol

import OctopusIpc.Protocol.DataMessage

/-!
# Extracting one packet from the receive buffer

`ipc_check_complete_data_packet` of `src/APP/octopus_ipc_app_client.cpp:418–476`. The
function aligns the buffer to the first header in its scan window, waits for the whole
frame and removes it. Every path that finds no complete frame returns the message it was
given, with group and id overwritten; `PacketStep` lists the paths.
-/

namespace OctopusIpc.Client
open OctopusIpc.Protocol

/-- `max_scan`; `src/APP/octopus_ipc_app_client.cpp:431`. -/
def maxScan : Nat := 20

/-- The scan loop of `src/APP/octopus_ipc_app_client.cpp:433–443`: the first position whose
byte pair is the header, `limit` positions at most. -/
def findHeader : (limit : Nat) → List UInt8 → Option Nat
  | limit + 1, b0 :: b1 :: rest =>
    if BigEndian.join b0 b1 = DataMessage.header then some 0
    else (findHeader limit (b1 :: rest)).map (· + 1)
  | _, _ => none

/-- The assignments `msg_group = -1` and `msg_id = -1` to unsigned bytes;
`src/APP/octopus_ipc_app_client.cpp:421–422`. -/
def resetQueryMsg (queryMsg : DataMessage) : DataMessage :=
  { queryMsg with msgGroup := 255, msgId := 255 }

/-- The length field peeked at offsets 4 and 5; `src/APP/octopus_ipc_app_client.cpp:458`. -/
def peekLength (buffer : List UInt8) : UInt16 :=
  BigEndian.join (buffer.getD 4 0) (buffer.getD 5 0)

/-- `src/APP/octopus_ipc_app_client.cpp:418–476`: the buffer left behind and the message
returned. -/
def ipcCheckCompleteDataPacket (buffer : List UInt8) (queryMsg : DataMessage) :
    List UInt8 × DataMessage :=
  let queryMsg := resetQueryMsg queryMsg
  let baseLength := queryMsg.getBaseLength
  if buffer.length < baseLength then (buffer, queryMsg)
  else
    match findHeader maxScan buffer with
    | none => (buffer.drop (min buffer.length maxScan), queryMsg)
    | some i =>
      let buffer := buffer.drop i
      if buffer.length < baseLength then (buffer, queryMsg)
      else
        let totalLength := baseLength + (peekLength buffer).toNat
        if buffer.length < totalLength then (buffer, queryMsg)
        else
          let queryMsg := DataMessage.deserializeMessage buffer
          if queryMsg.isValid then (buffer.drop totalLength, queryMsg)
          else (buffer, queryMsg)

/-! ### Header positions -/

/-- The header bytes stand at position `i`. -/
def HeaderAt (b : List UInt8) (i : Nat) : Prop := b[i]? = some 0xA5 ∧ b[i + 1]? = some 0xA5

instance (b : List UInt8) (i : Nat) : Decidable (HeaderAt b i) := instDecidableAnd

/-- The first header stands at position `i`. -/
def FirstHeader (b : List UInt8) (i : Nat) : Prop := HeaderAt b i ∧ ∀ j < i, ¬ HeaderAt b j

private theorem join_eq_header_iff (a b : UInt8) :
    BigEndian.join a b = DataMessage.header ↔ a = 0xA5 ∧ b = 0xA5 :=
  BigEndian.join_eq_iff a b DataMessage.header

private theorem headerAt_cons_succ (a : UInt8) (b : List UInt8) (i : Nat) :
    HeaderAt (a :: b) (i + 1) ↔ HeaderAt b i := by
  simp only [HeaderAt, List.getElem?_cons_succ]

private theorem headerAt_zero_iff (a b : UInt8) (rest : List UInt8) :
    HeaderAt (a :: b :: rest) 0 ↔ BigEndian.join a b = DataMessage.header := by
  simp [HeaderAt, join_eq_header_iff]

/-- Removing the bytes before a header moves it to the front. -/
theorem headerAt_drop_zero (b : List UInt8) (i : Nat) :
    HeaderAt (b.drop i) 0 ↔ HeaderAt b i := by
  simp only [HeaderAt, List.getElem?_drop, Nat.add_zero, Nat.zero_add]

/-- A header behind bytes among which none starts is the first one. -/
theorem firstHeader_append {j t : List UInt8} (h : ∀ i < j.length, ¬ HeaderAt (j ++ t) i)
    (h0 : HeaderAt t 0) : FirstHeader (j ++ t) j.length := by
  refine ⟨?_, h⟩
  rw [← headerAt_drop_zero, List.drop_left]
  exact h0

/-- There is only one first header. -/
theorem firstHeader_unique {b : List UInt8} {i i' : Nat} (h : FirstHeader b i)
    (h' : FirstHeader b i') : i = i' := by
  rcases Nat.lt_trichotomy i i' with hlt | heq | hgt
  · exact absurd h.1 (h'.2 i hlt)
  · exact heq
  · exact absurd h'.1 (h.2 i' hgt)

/-- A header at the front is the first one. -/
theorem firstHeader_zero {b : List UInt8} (h : HeaderAt b 0) : FirstHeader b 0 :=
  ⟨h, fun j hj ↦ absurd hj (Nat.not_lt_zero j)⟩

/-- The scan reports nothing exactly when no header starts inside the window. -/
theorem findHeader_eq_none_iff (limit : Nat) (b : List UInt8) :
    findHeader limit b = none ↔ ∀ j < limit, ¬ HeaderAt b j := by
  induction limit generalizing b with
  | zero => simp [findHeader]
  | succ limit ih =>
    match b with
    | [] => simp [findHeader, HeaderAt]
    | [a] => simp [findHeader, HeaderAt]
    | a :: b :: rest =>
      rw [findHeader]
      split
      · next h => simpa using ⟨0, by omega, (headerAt_zero_iff a b rest).mpr h⟩
      · next h =>
        rw [Option.map_eq_none_iff, ih]
        constructor
        · intro hr j hj
          cases j with
          | zero => exact fun h0 ↦ h ((headerAt_zero_iff a b rest).mp h0)
          | succ j => exact fun hs ↦ hr j (by omega) ((headerAt_cons_succ a _ j).mp hs)
        · intro hr j hj hs
          exact hr (j + 1) (by omega) ((headerAt_cons_succ a _ j).mpr hs)

/-- The scan reports the first header, provided it starts inside the window. -/
theorem findHeader_eq_some_iff (limit : Nat) (b : List UInt8) (i : Nat) :
    findHeader limit b = some i ↔ i < limit ∧ FirstHeader b i := by
  induction limit generalizing b i with
  | zero => simp [findHeader]
  | succ limit ih =>
    match b with
    | [] => simp [findHeader, FirstHeader, HeaderAt]
    | [a] => simp [findHeader, FirstHeader, HeaderAt]
    | a :: b :: rest =>
      rw [findHeader]
      split
      · next h =>
        have h0 := (headerAt_zero_iff a b rest).mpr h
        constructor
        · intro hi
          cases hi
          exact ⟨by omega, h0, fun j hj ↦ absurd hj (Nat.not_lt_zero j)⟩
        · rintro ⟨-, -, hfirst⟩
          cases i with
          | zero => rfl
          | succ i => exact absurd h0 (hfirst 0 (by omega))
      · next h =>
        have h0 : ¬ HeaderAt (a :: b :: rest) 0 := fun h0 ↦
          h ((headerAt_zero_iff a b rest).mp h0)
        cases i with
        | zero => simp [FirstHeader, h0]
        | succ i =>
          rw [Option.map_eq_some_iff]
          simp only [Nat.add_right_cancel_iff, exists_eq_right, ih, FirstHeader,
            headerAt_cons_succ, Nat.add_lt_add_iff_right]
          constructor
          · rintro ⟨hi, hh, hfirst⟩
            refine ⟨hi, hh, ?_⟩
            intro j hj
            cases j with
            | zero => exact h0
            | succ j => exact fun hs ↦ hfirst j (by omega) ((headerAt_cons_succ a _ j).mp hs)
          · rintro ⟨hi, hh, hfirst⟩
            exact ⟨hi, hh, fun j hj hs ↦
              hfirst (j + 1) (by omega) ((headerAt_cons_succ a _ j).mpr hs)⟩

/-- A frame starts with the header. -/
theorem headerAt_serializeMessage {m : DataMessage} (hm : m.isValid = true) (s : List UInt8) :
    HeaderAt (m.serializeMessage ++ s) 0 := by
  obtain ⟨hh, -⟩ := (DataMessage.isValid_iff m).mp hm
  simp [DataMessage.serializeMessage, HeaderAt, hh]
  exact ⟨rfl, rfl⟩

/-! ### The paths of one call -/

/-- The call finds the header at this position and gets past its completeness test;
`src/APP/octopus_ipc_app_client.cpp:427–463`. -/
structure PassesCompletenessTest (b : List UInt8) (i : Nat) : Prop where
  base : 6 ≤ b.length
  header : findHeader maxScan b = some i
  alignedBase : 6 ≤ (b.drop i).length
  complete : 6 + (peekLength (b.drop i)).toNat ≤ (b.drop i).length

/-- How one call can change the buffer, and the message it extracts if it extracts one. -/
inductive PacketStep (b : List UInt8) : List UInt8 → Option ValidMessage → Prop
  /-- Fewer bytes than a base part: nothing happens. -/
  | short (h : b.length < 6) : PacketStep b b none
  /-- No header starts in the scan window: the window is erased. -/
  | noHeader (hb : 6 ≤ b.length) (h : ∀ j < maxScan, ¬ HeaderAt b j) :
    PacketStep b (b.drop maxScan) none
  /-- Aligned to a header with less than a base part behind it. -/
  | cutBase (i : Nat) (hb : 6 ≤ b.length) (hi : i < maxScan) (h : FirstHeader b i)
    (hs : (b.drop i).length < 6) : PacketStep b (b.drop i) none
  /-- Aligned to a frame whose payload has not arrived completely. -/
  | incomplete (i : Nat) (hi : i < maxScan) (h : FirstHeader b i) (hs : 6 ≤ (b.drop i).length)
    (hl : (b.drop i).length < 6 + (peekLength (b.drop i)).toNat) : PacketStep b (b.drop i) none
  /-- Aligned to a complete frame, which is removed. -/
  | frame (i : Nat) (m : ValidMessage) (hi : i < maxScan) (h : FirstHeader b i)
    (hm : m.val.serializeMessage <+: b.drop i) :
    PacketStep b ((b.drop i).drop m.val.getTotalLength) (some m)

/-- A complete frame at the first header is removed with the bytes in front of it. -/
theorem PacketStep.of_frame {j s : List UInt8} {m : ValidMessage} (hj : j.length < maxScan)
    (hf : FirstHeader (j ++ (m.val.serializeMessage ++ s)) j.length) :
    PacketStep (j ++ (m.val.serializeMessage ++ s)) s (some m) := by
  have hdrop : (j ++ (m.val.serializeMessage ++ s)).drop j.length = m.val.serializeMessage ++ s :=
    List.drop_left
  have hstep := PacketStep.frame j.length m hj hf ⟨s, hdrop.symm⟩
  rwa [hdrop, ← DataMessage.length_serializeMessage, List.drop_left] at hstep

/-- A complete frame at the front is removed. -/
theorem PacketStep.of_frame_front (m : ValidMessage) (s : List UInt8) :
    PacketStep (m.val.serializeMessage ++ s) s (some m) :=
  PacketStep.of_frame (j := []) (by decide)
    (firstHeader_zero (headerAt_serializeMessage m.property s))

/-- The message a call returns: the extracted one, or the incoming one after the reset. -/
def returned (queryMsg : DataMessage) : Option ValidMessage → DataMessage
  | some m => m.val
  | none => resetQueryMsg queryMsg

/-- The reset keeps header, length and payload, hence validity. -/
@[simp] theorem isValid_resetQueryMsg (q : DataMessage) :
    (resetQueryMsg q).isValid = q.isValid := by
  rw [Bool.eq_iff_iff, DataMessage.isValid_iff, DataMessage.isValid_iff]
  rfl

/-- With a valid incoming message every returned message is valid. -/
theorem isValid_returned {q : DataMessage} (hq : q.isValid = true) (o : Option ValidMessage) :
    (returned q o).isValid = true := by
  cases o with
  | none => rw [returned, isValid_resetQueryMsg, hq]
  | some m => exact m.property

/-- An aligned buffer holding as many bytes as its length field says decodes to a valid
message, whose total length is the one computed from the peeked field. -/
theorem decode_aligned {b : List UInt8} (h0 : HeaderAt b 0) (hs : 6 ≤ b.length)
    (hl : 6 + (peekLength b).toNat ≤ b.length) :
    (DataMessage.deserializeMessage b).isValid = true ∧
      (DataMessage.deserializeMessage b).getTotalLength = 6 + (peekLength b).toNat := by
  obtain ⟨b0, b1, b2, b3, b4, b5, payload, rfl⟩ := DataMessage.exists_base_of_le hs
  have hp : (BigEndian.join b4 b5).toNat ≤ payload.length := by
    simp only [peekLength, List.getD_cons_succ, List.getD_cons_zero, List.length_cons] at hl
    omega
  refine ⟨(DataMessage.isValid_deserializeMessage_iff ..).mpr
    ⟨(headerAt_zero_iff b0 b1 _).mp h0, hp⟩, ?_⟩
  simp only [DataMessage.deserializeMessage, DataMessage.getTotalLength, if_pos hp, peekLength,
    List.length_take, Nat.min_eq_left hp, List.getD_cons_succ, List.getD_cons_zero]

/-- A frame at the front holds as many bytes as its length field says. -/
theorem peekLength_of_prefix {m : DataMessage} {b : List UInt8} (hm : m.isValid = true)
    (h : m.serializeMessage <+: b) : 6 + (peekLength b).toNat = m.getTotalLength := by
  obtain ⟨s, rfl⟩ := h
  obtain ⟨-, hl⟩ := (DataMessage.isValid_iff m).mp hm
  simp only [DataMessage.serializeMessage, DataMessage.getTotalLength, peekLength,
    List.cons_append, List.getD_cons_succ, List.getD_cons_zero, BigEndian.join_high_low, hl]

/-- A call that passes the test takes the path of a complete frame. -/
theorem PassesCompletenessTest.packetStep {b : List UInt8} {i : Nat}
    (h : PassesCompletenessTest b i) :
    ∃ m : ValidMessage, m.val = DataMessage.deserializeMessage (b.drop i) ∧
      m.val.serializeMessage <+: b.drop i ∧
      PacketStep b ((b.drop i).drop m.val.getTotalLength) (some m) := by
  obtain ⟨hi, hfirst⟩ := (findHeader_eq_some_iff _ _ _).mp h.header
  have h0 : HeaderAt (b.drop i) 0 := (headerAt_drop_zero b i).mpr hfirst.1
  obtain ⟨hvalid, -⟩ := decode_aligned h0 h.alignedBase h.complete
  have hprefix := DataMessage.serializeMessage_prefix_of_isValid h.alignedBase hvalid
  exact ⟨⟨_, hvalid⟩, rfl, hprefix, .frame i ⟨_, hvalid⟩ hi hfirst hprefix⟩

/-- A call passes the test when the aligned buffer starts with a frame. -/
theorem PassesCompletenessTest.of_frame {b : List UInt8} {i : Nat} {m : ValidMessage}
    (hi : i < maxScan) (h : FirstHeader b i) (hm : m.val.serializeMessage <+: b.drop i) :
    PassesCompletenessTest b i := by
  have hs := hm.length_le
  have hbase := m.val.base_le_length_serializeMessage
  have hlen := List.length_drop (i := i) (l := b)
  have hpeek := peekLength_of_prefix m.property hm
  rw [DataMessage.length_serializeMessage] at hs hbase
  exact ⟨by omega, (findHeader_eq_some_iff _ _ _).mpr ⟨hi, h⟩, by omega, by omega⟩

/-- Only a call that passes the test extracts a message. -/
theorem PacketStep.passesCompletenessTest {b rest : List UInt8} {m : ValidMessage}
    (h : PacketStep b rest (some m)) : ∃ i, PassesCompletenessTest b i := by
  cases h with
  | frame i m hi hfirst hm => exact ⟨i, .of_frame hi hfirst hm⟩

/-- Every buffer admits one of the paths. -/
theorem packetStep_total (b : List UInt8) : ∃ rest o, PacketStep b rest o := by
  by_cases hb : b.length < 6
  · exact ⟨b, none, .short hb⟩
  · cases hf : findHeader maxScan b with
    | none => exact ⟨_, none, .noHeader (by omega) ((findHeader_eq_none_iff _ _).mp hf)⟩
    | some i =>
      obtain ⟨hi, hfirst⟩ := (findHeader_eq_some_iff _ _ _).mp hf
      by_cases hs : (b.drop i).length < 6
      · exact ⟨_, none, .cutBase i (by omega) hi hfirst hs⟩
      · by_cases hl : (b.drop i).length < 6 + (peekLength (b.drop i)).toNat
        · exact ⟨_, none, .incomplete i hi hfirst (by omega) hl⟩
        · have hpass : PassesCompletenessTest b i := ⟨by omega, hf, by omega, by omega⟩
          obtain ⟨m, -, -, hstep⟩ := hpass.packetStep
          exact ⟨_, some m, hstep⟩

/-- A call computes the path its buffer admits, so the path is unique, and the return after
a failed integrity check is unreachable. -/
theorem ipcCheckCompleteDataPacket_of_step {b rest : List UInt8} {o : Option ValidMessage}
    (h : PacketStep b rest o) (q : DataMessage) :
    ipcCheckCompleteDataPacket b q = (rest, returned q o) := by
  unfold ipcCheckCompleteDataPacket
  cases h with
  | short hb => exact if_pos hb
  | noHeader hb h =>
    refine (if_neg (by rw [DataMessage.getBaseLength_eq]; omega)).trans ?_
    rw [(findHeader_eq_none_iff _ _).mpr h]
    rcases Nat.le_total b.length maxScan with hle | hle
    · simp only [Nat.min_eq_left hle, List.drop_length, List.drop_of_length_le hle, returned]
    · simp only [Nat.min_eq_right hle, returned]
  | cutBase i hb hi h hs =>
    refine (if_neg (by rw [DataMessage.getBaseLength_eq]; omega)).trans ?_
    rw [(findHeader_eq_some_iff _ _ _).mpr ⟨hi, h⟩]
    exact if_pos hs
  | incomplete i hi h hs hl =>
    have hb := List.length_drop (i := i) (l := b)
    refine (if_neg (by rw [DataMessage.getBaseLength_eq]; omega)).trans ?_
    rw [(findHeader_eq_some_iff _ _ _).mpr ⟨hi, h⟩]
    exact (if_neg (Nat.not_lt.mpr hs)).trans (if_pos hl)
  | frame i m hi h hm =>
    have hpass := PassesCompletenessTest.of_frame hi h hm
    have hl := peekLength_of_prefix m.property hm
    have hd := DataMessage.deserializeMessage_of_prefix m.property hm
    refine (if_neg (Nat.not_lt.mpr hpass.base)).trans ?_
    rw [hpass.header]
    refine (if_neg (Nat.not_lt.mpr hpass.alignedBase)).trans ?_
    refine (if_neg (Nat.not_lt.mpr hpass.complete)).trans ?_
    rw [hd]
    refine (if_pos m.property).trans ?_
    rw [DataMessage.getBaseLength_eq, hl, returned]

/-! ### What a call consumes -/

/-- The buffer that is left and the message that is returned make up the aligned buffer: the
message is the decoded one, passes the integrity check, and its serialisation and its total
length are what was removed. -/
structure ConsumesDecoded (b : List UInt8) (i : Nat) (rest : List UInt8) (m : DataMessage) :
    Prop where
  decoded : m = DataMessage.deserializeMessage (b.drop i)
  valid : m.isValid = true
  removed : m.serializeMessage ++ rest = b.drop i
  total : rest.length + m.getTotalLength = (b.drop i).length
  shorter : rest.length < b.length

/-- Bytes are removed from the front only. -/
theorem PacketStep.suffix {b rest : List UInt8} {o : Option ValidMessage}
    (h : PacketStep b rest o) : rest <:+ b := by
  cases h with
  | short => exact List.suffix_refl b
  | noHeader => exact List.drop_suffix maxScan b
  | cutBase i | incomplete i => exact List.drop_suffix i b
  | frame i m => exact (List.drop_suffix _ _).trans (List.drop_suffix i b)

/-- For every buffer and every incoming message a call leaves a suffix of the buffer, and past
its completeness test it removes exactly the bytes of the valid message it returns. -/
theorem ipcCheckCompleteDataPacket_consumes (b : List UInt8) (q : DataMessage) :
    (ipcCheckCompleteDataPacket b q).1 <:+ b ∧
      ∀ i, PassesCompletenessTest b i →
        ConsumesDecoded b i (ipcCheckCompleteDataPacket b q).1
          (ipcCheckCompleteDataPacket b q).2 := by
  constructor
  · obtain ⟨rest, o, hstep⟩ := packetStep_total b
    rw [ipcCheckCompleteDataPacket_of_step hstep q]
    exact hstep.suffix
  · intro i h
    obtain ⟨m, hdecoded, hprefix, hstep⟩ := h.packetStep
    obtain ⟨rest, hrest⟩ := hprefix
    have hdrop : (b.drop i).drop m.val.getTotalLength = rest := by
      rw [← hrest, ← DataMessage.length_serializeMessage, List.drop_left]
    have htotal : rest.length + m.val.getTotalLength = (b.drop i).length := by
      rw [← hrest, List.length_append, DataMessage.length_serializeMessage, Nat.add_comm]
    have hbase := m.val.base_le_length_serializeMessage
    have hlen := List.length_drop (i := i) (l := b)
    rw [DataMessage.length_serializeMessage] at hbase
    have hshorter : rest.length < b.length := by omega
    rw [ipcCheckCompleteDataPacket_of_step hstep q, hdrop]
    exact ⟨hdecoded, m.property, hrest, htotal, hshorter⟩

/-- A frame with one byte of payload between a byte of junk and the byte of a later frame. -/
theorem consumesDecoded_betweenBytes :
    ConsumesDecoded [1, 0xA5, 0xA5, 2, 1, 0, 1, 7, 9] 1 [9] ⟨0xA5A5, 2, 1, 1, [7]⟩ :=
  (ipcCheckCompleteDataPacket_consumes [1, 0xA5, 0xA5, 2, 1, 0, 1, 7, 9] .new).2 1
    ⟨by decide, by decide, by decide, by decide⟩

end OctopusIpc.Client

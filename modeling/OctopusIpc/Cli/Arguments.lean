import OctopusIpc.Base.Numeral
import OctopusIpc.Protocol.DataMessage

/-!
# The arguments of the command line client

`parse_arguments` of `src/IPC/octopus_ipc_client.cpp` and `main` up to the call that sends.
An argument is its bytes. The message id is converted by `std::stoul` and then narrowed to a
byte, while the other arguments are converted by `std::stoi` and clamped.
-/

namespace OctopusIpc.Cli
open OctopusIpc.Protocol OctopusIpc.Numeral

/-- The constants of the OTSM headers named in `src/IPC/octopus_ipc_client.cpp:22–26`. -/
structure CliHeader where
  msgGroup0 : Nat
  msgGroupSetting : Nat
  msgGroupCar : Nat
  msgGroupMcu : Nat

/-- A header for examples. -/
def CliHeader.sample : CliHeader := ⟨0, 1, 6, 5⟩

/-- `std::stoul`, `unsigned long` having 64 bits. Nothing is an exception. -/
def stoul (text : List UInt8) : Option Nat := (scan text).bind (Signed.toUnsigned 64)

/-- `std::stoi`, `int` having 32 bits. -/
def stoi (text : List UInt8) : Option Int := (scan text).bind (Signed.toSigned 32)

/-- The map from operations to groups, with the keys `help`, `set`, `car` and `mcu`;
`src/IPC/octopus_ipc_client.cpp:22–26`. -/
def findOperation (header : CliHeader) (operation : List UInt8) : Option Nat :=
  if operation = [104, 101, 108, 112] then some header.msgGroup0
  else if operation = [115, 101, 116] then some header.msgGroupSetting
  else if operation = [99, 97, 114] then some header.msgGroupCar
  else if operation = [109, 99, 117] then some header.msgGroupMcu
  else none

/-- The message id; `src/IPC/octopus_ipc_client.cpp:66–75`. The cast keeps the low byte. -/
def messageId (idArg : List UInt8) : UInt8 :=
  match stoul idArg with
  | some n => UInt8.ofNat n
  | none => 0

/-- `std::clamp(val, 0, 255)`. -/
def clampByte (val : Int) : Int := if val < 0 then 0 else if 255 < val then 255 else val

/-- The byte of one argument; `src/IPC/octopus_ipc_client.cpp:80–95`. -/
def dataByte (arg : List UInt8) : UInt8 :=
  match stoi arg with
  | some val => UInt8.ofInt (clampByte val)
  | none => 0

/-- `src/IPC/octopus_ipc_client.cpp:42–99` without the copy of the arguments. The payload
size goes through a byte into the 16-bit length field. -/
def parseArguments (header : CliHeader) (argv : List (List UInt8)) : DataMessage :=
  match argv with
  | _program :: operation :: idArg :: rest =>
    let data := rest.foldl (fun data arg ↦ data ++ [dataByte arg]) []
    { DataMessage.new with
      msgGroup := UInt8.ofNat ((findOperation header operation).getD 0)
      msgId := messageId idArg
      msgLength := (UInt8.ofNat data.length).toUInt16
      data := data }
  | _ => DataMessage.new

/-- What `main` sends, given whether a socket is opened and connected;
`src/IPC/octopus_ipc_client.cpp:127–163`. -/
def main (header : CliHeader) (argv : List (List UInt8)) (opened connected : Bool) :
    Option (List UInt8) :=
  let dataMessage := parseArguments header argv
  if !dataMessage.isValid then none
  else if !opened then none
  else if !connected then none
  else some dataMessage.serializeMessage

variable {header : CliHeader} {program operation idArg : List UInt8} {argv rest : List (List UInt8)}

/-! ### The payload -/

private theorem foldl_push (data : List UInt8) (rest : List (List UInt8)) :
    rest.foldl (fun data arg ↦ data ++ [dataByte arg]) data = data ++ rest.map dataByte := by
  induction rest generalizing data with
  | nil => rw [List.foldl_nil, List.map_nil, List.append_nil]
  | cons arg rest ih => rw [List.foldl_cons, ih, List.map_cons, List.append_assoc, List.singleton_append]

/-- The loop appends the byte of each argument. -/
theorem data_parseArguments (header : CliHeader) (argv : List (List UInt8)) :
    (parseArguments header argv).data = (argv.drop 3).map dataByte := by
  match argv with
  | [] | [_] | [_, _] => rfl
  | _ :: _ :: _ :: rest => exact foldl_push [] rest

theorem length_data_parseArguments (header : CliHeader) (argv : List (List UInt8)) :
    (parseArguments header argv).data.length = argv.length - 3 := by
  rw [data_parseArguments, List.length_map, List.length_drop]

/-- Each further argument gives one byte, in order: the clamped number if there is one, and
zero otherwise. -/
def OneByteEach (rest : List (List UInt8)) (data : List UInt8) : Prop :=
  data.length = rest.length ∧ ∀ (i : Nat) arg, rest[i]? = some arg →
    data[i]? = some (match stoi arg with
      | some val => UInt8.ofInt (clampByte val)
      | none => 0)

/-- The payload always has one byte for each further argument. -/
theorem oneByteEach_parseArguments (header : CliHeader) (program operation idArg : List UInt8)
    (rest : List (List UInt8)) :
    OneByteEach rest (parseArguments header (program :: operation :: idArg :: rest)).data := by
  rw [data_parseArguments]
  refine ⟨List.length_map _, fun i arg h ↦ ?_⟩
  rw [List.drop_succ_cons, List.drop_succ_cons, List.drop_succ_cons, List.drop_zero,
    List.getElem?_map, h]
  rfl

/-! ### The message id -/

/-- A numeral of a number up to 255 gives that number, and any other text gives zero. -/
def FaithfulId (idArg : List UInt8) (msgId : UInt8) : Prop :=
  (∀ n, IsNumeral idArg n → n ≤ 255 → msgId.toNat = n) ∧
    ((∀ n, IsNumeral idArg n → 255 < n) → msgId = 0)

/-- The text is such a numeral, or no number is found at its start, or one that is too large
for the conversion or a multiple of 256. -/
def SurvivesNarrowing (idArg : List UInt8) : Prop :=
  (∃ n, IsNumeral idArg n ∧ n ≤ 255) ∨
    ∀ s, scan idArg = some s → 2 ^ 64 ≤ s.magnitude ∨ s.magnitude % 256 = 0

/-- A numeral in range is read as what it stands for. -/
theorem messageId_of_isNumeral {n : Nat} (h : IsNumeral idArg n) (hn : n ≤ 255) :
    (messageId idArg).toNat = n := by
  have hlt : n < 2 ^ 64 := by omega
  have hstoul : stoul idArg = some n := by
    rw [stoul, h.scan, Option.bind_some, Signed.toUnsigned]
    exact if_pos hlt
  rw [messageId, hstoul]
  exact UInt8.toNat_ofNat_of_lt' (Nat.lt_succ_of_le hn)

/-- The id is zero when the conversion fails or the cast cuts everything off. -/
theorem messageId_eq_zero_iff :
    messageId idArg = 0 ↔
      ∀ s, scan idArg = some s → 2 ^ 64 ≤ s.magnitude ∨ s.magnitude % 256 = 0 := by
  cases hs : scan idArg with
  | none =>
    have hid : messageId idArg = 0 := by rw [messageId, stoul, hs, Option.bind_none]
    exact iff_of_true hid fun s h ↦ nomatch h
  | some s =>
    have hforall : (∀ s', some s = some s' → 2 ^ 64 ≤ s'.magnitude ∨ s'.magnitude % 256 = 0) ↔
        (2 ^ 64 ≤ s.magnitude ∨ s.magnitude % 256 = 0) :=
      ⟨fun h ↦ h s rfl, fun h s' hs' ↦ Option.some.inj hs' ▸ h⟩
    rw [hforall, messageId, stoul, hs, Option.bind_some]
    cases hv : s.toUnsigned 64 with
    | none => exact iff_of_true rfl (.inl (toUnsigned_eq_none_iff.mp hv))
    | some v =>
      have hrange : ¬ 2 ^ 64 ≤ s.magnitude := fun h ↦
        Option.some_ne_none v (hv.symm.trans (toUnsigned_eq_none_iff.mpr h))
      have hcast : UInt8.ofNat v = 0 ↔ v % 256 = 0 := by
        rw [← UInt8.toNat_inj, UInt8.toNat_ofNat']
        rfl
      rw [or_iff_right hrange, hcast, toUnsigned_mod_eq_zero_iff (by decide) hv]

/-- The id is as the texts of the errors say exactly for the texts that survive the cast. -/
theorem faithfulId_iff : FaithfulId idArg (messageId idArg) ↔ SurvivesNarrowing idArg := by
  by_cases hnumeral : ∃ n, IsNumeral idArg n ∧ n ≤ 255
  · refine iff_of_true ⟨fun n h hn ↦ messageId_of_isNumeral h hn, fun hbig ↦ ?_⟩ (.inl hnumeral)
    obtain ⟨n, h, hn⟩ := hnumeral
    exact absurd (hbig n h) (Nat.not_lt.mpr hn)
  · have hbig : ∀ n, IsNumeral idArg n → 255 < n := fun n h ↦
      Nat.lt_of_not_le fun hn ↦ hnumeral ⟨n, h, hn⟩
    rw [SurvivesNarrowing, or_iff_right hnumeral, ← messageId_eq_zero_iff]
    exact ⟨fun h ↦ h.2 hbig, fun h ↦ ⟨fun n hn hle ↦ absurd (hbig n hn) (Nat.not_lt.mpr hle),
      fun _ ↦ h⟩⟩

/-- For every command line with an id, the id is faithful and each further argument gives its
byte if and only if the text of the id survives the cast. -/
theorem parseArguments_faithful_iff (header : CliHeader) (program operation idArg : List UInt8)
    (rest : List (List UInt8)) :
    FaithfulId idArg (parseArguments header (program :: operation :: idArg :: rest)).msgId ∧
        OneByteEach rest (parseArguments header (program :: operation :: idArg :: rest)).data ↔
      SurvivesNarrowing idArg := by
  have hdata := oneByteEach_parseArguments header program operation idArg rest
  exact ⟨fun h ↦ faithfulId_iff.mp h.1, fun h ↦ ⟨faithfulId_iff.mpr h, hdata⟩⟩

/-- The texts `300`, `-1` and `12abc` name other messages. -/
theorem not_faithfulId_narrowed :
    (parseArguments .sample [[99], [99, 97, 114], [51, 48, 48]]).msgId = 44 ∧
      (parseArguments .sample [[99], [99, 97, 114], [45, 49]]).msgId = 255 ∧
      (parseArguments .sample [[99], [99, 97, 114], [49, 50, 97, 98, 99]]).msgId = 12 ∧
      ¬ FaithfulId [51, 48, 48]
        (parseArguments .sample [[99], [99, 97, 114], [51, 48, 48]]).msgId := by
  refine ⟨by decide, by decide, by decide, fun h ↦ ?_⟩
  have hnumeral : IsNumeral [51, 48, 48] 300 := by decide
  have hzero := h.2 fun n hn ↦ by
    rw [hn.unique hnumeral]
    decide
  exact absurd hzero (by decide)

/-! ### The validity gate -/

/-- The length field is the payload size modulo 256. -/
theorem msgLength_parseArguments (header : CliHeader) (argv : List (List UInt8)) :
    (parseArguments header argv).msgLength.toNat = (argv.length - 3) % 256 := by
  match argv with
  | [] | [_] | [_, _] => rfl
  | program :: operation :: idArg :: rest =>
    have hlength := length_data_parseArguments header (program :: operation :: idArg :: rest)
    rw [← hlength]
    exact UInt8.toNat_ofNat'

/-- The gate lets through exactly the messages whose payload size fits into a byte. -/
theorem isValid_parseArguments_iff (header : CliHeader) (argv : List (List UInt8)) :
    (parseArguments header argv).isValid = true ↔ argv.length - 3 ≤ 255 := by
  have hheader : (parseArguments header argv).msgHeader = DataMessage.header := by
    match argv with
    | [] | [_] | [_, _] => rfl
    | _ :: _ :: _ :: _ => rfl
  rw [DataMessage.isValid_iff, msgLength_parseArguments, length_data_parseArguments]
  constructor
  · rintro ⟨-, h⟩
    omega
  · intro h
    exact ⟨hheader, by omega⟩

/-- What passes the gate has a byte for each argument behind the id, 255 at most, and survives
the codec; with more arguments nothing is sent. -/
theorem parseArguments_gate (header : CliHeader) (argv : List (List UInt8)) :
    ((parseArguments header argv).isValid = true →
      (parseArguments header argv).data.length = argv.length - 3 ∧
        (parseArguments header argv).data.length ≤ 255 ∧
        DataMessage.deserializeMessage (parseArguments header argv).serializeMessage =
          parseArguments header argv) ∧
      (255 < argv.length - 3 → ∀ opened connected, main header argv opened connected = none) := by
  have hgate := isValid_parseArguments_iff header argv
  have hlength := length_data_parseArguments header argv
  constructor
  · intro hvalid
    refine ⟨hlength, hlength ▸ hgate.mp hvalid, ?_⟩
    exact DataMessage.deserializeMessage_of_prefix hvalid (List.prefix_refl _)
  · intro hmany opened connected
    have hinvalid : (parseArguments header argv).isValid = false := by
      rw [← Bool.not_eq_true, hgate]
      exact Nat.not_le.mpr hmany
    rw [main, hinvalid]
    rfl

/-- A command with two arguments is sent as it was parsed; with 512 arguments, a multiple of
256, nothing is sent. -/
theorem parseArguments_gate_sample :
    DataMessage.deserializeMessage
        (parseArguments .sample [[99], [115, 101, 116], [49], [53], [55]]).serializeMessage =
      parseArguments .sample [[99], [115, 101, 116], [49], [53], [55]] ∧
      main .sample (List.replicate 515 [49]) true true = none :=
  ⟨((parseArguments_gate .sample [[99], [115, 101, 116], [49], [53], [55]]).1 (by decide)).2.2,
    (parseArguments_gate .sample (List.replicate 515 [49])).2
      (by rw [List.length_replicate]; decide) true true⟩

end OctopusIpc.Cli

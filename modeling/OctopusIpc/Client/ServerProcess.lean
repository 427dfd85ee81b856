import Mathlib.Data.List.TakeWhile
import OctopusIpc.Base.LinePieces
import OctopusIpc.Client.Connection

/-!
# Looking for the server

Before it starts a server, and before each attempt to reconnect, the client looks for the
server's name in what `ps aux` prints. It reads this into a buffer of 512 bytes, so a longer
line comes in pieces, and it makes no difference whose line the name is found in.
-/

namespace OctopusIpc.Client

/-- The bytes of an array as a C string. -/
def cString (bytes : List UInt8) : List UInt8 := bytes.takeWhile (· != 0)

/-- The size of the buffer; `src/APP/octopus_ipc_app_client.cpp:109`. -/
def lineBufferSize : Nat := 512

/-- What the calls of `fgets` return one after another; each leaves room for the NUL. -/
def fgetsLines (output : List UInt8) : List (List UInt8) :=
  LinePieces.pieces 10 (lineBufferSize - 1) output.length output

/-- `find` of a `std::string`: the first place at which the other string stands. -/
def find (line name : List UInt8) : Option Nat :=
  (List.range (line.length + 1)).find? fun i ↦ name.isPrefixOf (line.drop i)

/-- `src/APP/octopus_ipc_app_client.cpp:93–133`, for what `ps aux` prints if the pipe to it
opens. -/
def ipcIsSocketServerProcessRunning (processName : List UInt8) (ps : Option (List UInt8)) :
    Bool :=
  if processName.isEmpty then false
  else
    match ps with
    | none => false
    | some output => (fgetsLines output).any fun line ↦ (find (cString line) processName).isSome

/-- What `stat` and `access` say of a path: whether it is a regular file and may be executed. -/
structure PathStatus where
  regular : Bool
  executable : Bool
  deriving DecidableEq, Repr

/-- `src/APP/octopus_ipc_app_client.cpp:61–79`. -/
def ipcFileExistsAndExecutable (path : Option PathStatus) : Bool :=
  match path with
  | none => false
  | some status => status.regular && status.executable

/-- `src/APP/octopus_ipc_app_client.cpp:151–196`, for what `system` says and what `ps aux`
prints two seconds later. A path to anything will do for the test. -/
def ipcStartProcessAsServer (processName : List UInt8) (path : Option PathStatus)
    (started : Bool) (psAfter : Option (List UInt8)) : Bool :=
  match path with
  | none => false
  | some _ => started && ipcIsSocketServerProcessRunning processName psAfter

/-- `ipc_client_main` runs the command that starts a server;
`src/APP/octopus_ipc_app_client.cpp:578–594`. -/
def startsServer (processName : List UInt8) (ps : Option (List UInt8))
    (path : Option PathStatus) : Bool :=
  !ipcIsSocketServerProcessRunning processName ps && ipcFileExistsAndExecutable path

/-- An attempt to reconnect goes on to open a socket;
`src/APP/octopus_ipc_app_client.cpp:374–380`. -/
def serverAvailable (processName : List UInt8) (ps : Option (List UInt8))
    (path : Option PathStatus) (started : Bool) (psAfter : Option (List UInt8)) : Bool :=
  ipcIsSocketServerProcessRunning processName ps ||
    ipcStartProcessAsServer processName path started psAfter

/-- In the client process, the step that looks for the server leads on to a socket exactly if
the server is available. -/
theorem loop_apply_checkServer_iff (process : ClientProcess) (processName : List UInt8)
    (ps : Option (List UInt8)) (path : Option PathStatus) (started : Bool)
    (psAfter : Option (List UInt8)) :
    (process.apply (.checkServer (ipcIsSocketServerProcessRunning processName ps)
        (ipcStartProcessAsServer processName path started psAfter))).loop = .opening ↔
      serverAvailable processName ps path started psAfter = true := by
  simp only [serverAvailable, ClientProcess.apply]
  split
  · next havailable => exact iff_of_true rfl havailable
  · next hnot => exact iff_of_false (by simp) hnot

variable {line name processName output : List UInt8}

/-- A string is found exactly if the other one contains it. -/
theorem isSome_find : (find line name).isSome = true ↔ name <:+: line := by
  rw [find, List.find?_isSome]
  constructor
  · rintro ⟨i, -, hi⟩
    exact (List.isPrefixOf_iff_prefix.mp hi).isInfix.trans (List.drop_suffix i line).isInfix
  · rintro ⟨front, back, rfl⟩
    refine ⟨front.length, ?_, ?_⟩
    · simp only [List.mem_range, List.length_append]
      omega
    · rw [List.isPrefixOf_iff_prefix, List.append_assoc, List.drop_left]
      exact List.prefix_append name back

/-- The C string in the buffer has a name where the buffer has it, without a NUL up to its end. -/
private theorem infix_cString_iff :
    name <:+: cString line ↔
      LinePieces.Stands (0 ∉ ·) name line := by
  constructor
  · rintro ⟨front, back, hstring⟩
    obtain ⟨rest, hline⟩ : cString line <+: line := List.takeWhile_prefix _
    rw [← hstring, List.append_assoc] at hline
    refine ⟨front.length, ?_, fun hnul ↦ ?_⟩
    · rw [← hline, List.append_assoc, List.drop_left]
      exact List.prefix_append name _
    · have htake : line.take (front.length + name.length) = front ++ name := by
        rw [← hline, ← List.length_append, List.take_left]
      have hmem : (0 : UInt8) ∈ cString line := by
        rw [← hstring, ← htake]
        exact List.mem_append_left back hnul
      exact absurd (List.mem_takeWhile_imp hmem) (by decide)
  · rintro ⟨o, hname, hnul⟩
    have htake : line.take (o + name.length) = line.take o ++ name := by
      rw [List.take_add, ← List.prefix_iff_eq_take.mp hname]
    have hkept : cString line =
        line.take (o + name.length) ++ cString (line.drop (o + name.length)) := by
      conv_lhs => rw [← List.take_append_drop (o + name.length) line]
      refine List.takeWhile_append_of_pos fun b hb ↦ bne_iff_ne.mpr ?_
      rintro rfl
      exact hnul hb
    rw [hkept, htake]
    exact ⟨line.take o, _, rfl⟩

/-- The client takes the server to be running exactly if some line that `ps aux` prints, of
whatever process, has the name with no boundary of a buffer inside it (it begins and ends between
the same two multiples of 511), and no NUL from the boundary in front of it to its end. -/
theorem ipcIsSocketServerProcessRunning_iff (hend : (10 : UInt8) ∉ processName) :
    ipcIsSocketServerProcessRunning processName (some output) = true ↔
      processName ≠ [] ∧ ∃ line ∈ output.splitOn 10, ∃ o, processName <+: line.drop o ∧
        (o + processName.length - 1) / 511 = o / 511 ∧
        0 ∉ (line.take (o + processName.length)).drop (o / 511 * 511) := by
  unfold ipcIsSocketServerProcessRunning
  cases hname : processName.isEmpty with
  | true =>
    have hempty : processName = [] := List.isEmpty_iff.mp hname
    simp [hempty]
  | false =>
    have hne : processName ≠ [] := by
      rintro rfl
      cases hname
    rw [if_neg Bool.false_ne_true, and_iff_right hne]
    have hpieces : (∃ line ∈ fgetsLines output, LinePieces.Stands (0 ∉ ·) processName line) ↔
        ∃ line ∈ output.splitOn 10, LinePieces.Fits (0 ∉ ·) 511 processName line :=
      LinePieces.exists_mem_pieces_iff (by decide) hne hend (Nat.le_refl _)
    refine Iff.trans ?_ hpieces
    rw [List.any_eq_true]
    refine exists_congr fun line ↦ and_congr_right fun hline ↦ ?_
    rw [isSome_find, infix_cString_iff]

/-- The line of an editor is as good as that of a server; a name across the boundary of the
buffer is not seen, and a second server is started. -/
theorem ipcIsSocketServerProcessRunning_sample :
    ipcIsSocketServerProcessRunning [111, 105] (some [118, 105, 32, 111, 105, 46, 99, 10]) = true ∧
      startsServer [111, 105] (some (List.replicate 510 32 ++ [111, 105, 10]))
        (some ⟨true, true⟩) = true := by
  constructor
  · refine (ipcIsSocketServerProcessRunning_iff (by decide)).mpr ⟨by decide, ?_⟩
    exact ⟨[118, 105, 32, 111, 105, 46, 99], by decide, 3, by decide, by decide, by decide⟩
  · decide +kernel

end OctopusIpc.Client

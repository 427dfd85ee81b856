import OctopusIpc.Base.StepSystem
import OctopusIpc.Socket.Query

/-!
# Edge-triggered reception

`get_response_with_epoll` on a socket registered with `EPOLLET`: the kernel reports the
socket once after bytes have arrived, and each report is answered by one `read()` into a
buffer of fixed size. What a read leaves behind is not reported again before more arrives.
-/

namespace OctopusIpc.Socket

/-- Where the receiving thread is: about to call `epoll_wait`, or told that the socket is
readable and about to read. -/
inductive EpollPc where
  | waiting
  | reported
  deriving DecidableEq, Repr

/-- The kernel's byte queue and readiness bit of the connection, the place of the receiving
thread, and the bytes it has returned. -/
structure EpollSocket where
  queue : List UInt8
  ready : Bool
  pc : EpollPc
  returned : List UInt8
  deriving DecidableEq, Repr

/-- The server writes; `epoll_wait` returns; the socket is read. -/
inductive EpollAction where
  | arrive (bytes : List UInt8)
  /-- An event or a timeout; `src/IPC/octopus_ipc_socket.cpp:514–527`. -/
  | epollWait
  /-- `src/IPC/octopus_ipc_socket.cpp:529–538`. -/
  | read
  deriving DecidableEq, Repr

namespace EpollSocket

/-- A connection on which nothing has arrived. -/
def init : EpollSocket := ⟨[], false, .waiting, []⟩

/-- When a step can be taken. A read of an empty queue blocks. -/
def Enabled (s : EpollSocket) : EpollAction → Prop
  | .arrive bytes => bytes ≠ []
  | .epollWait => s.pc = .waiting
  | .read => s.pc = .reported ∧ s.queue ≠ []

instance (s : EpollSocket) : (a : EpollAction) → Decidable (s.Enabled a)
  | .arrive _ => inferInstanceAs (Decidable (_ ≠ _))
  | .epollWait => inferInstanceAs (Decidable (_ = _))
  | .read => inferInstanceAs (Decidable (_ ∧ _ ≠ _))

/-- What a step does. -/
def apply (s : EpollSocket) : EpollAction → EpollSocket
  | .arrive bytes => { s with queue := s.queue ++ bytes, ready := true }
  | .epollWait => if s.ready then { s with ready := false, pc := .reported } else s
  | .read =>
    { s with
      queue := s.queue.drop bufferSize
      pc := .waiting
      returned := s.returned ++ s.queue.take bufferSize }

/-- The connection and the receiving thread as a transition system. -/
def system : StepSystem EpollSocket EpollAction := StepSystem.ofCommands init Enabled apply

/-- Before `epoll_wait`, with nothing to be reported, nothing is left in the queue. -/
def NothingStranded (s : EpollSocket) : Prop :=
  s.pc = .waiting → s.ready = false → s.queue = []

/-- A read finds no more than its buffer holds, or more has arrived since the report. -/
def ReadsSuffice (s : EpollSocket) : EpollAction → Prop
  | .read => s.queue.length ≤ bufferSize ∨ s.ready = true
  | _ => True

instance (s : EpollSocket) : (a : EpollAction) → Decidable (s.ReadsSuffice a)
  | .read => inferInstanceAs (Decidable (_ ∨ _))
  | .arrive _ | .epollWait => inferInstanceAs (Decidable True)

/-- Bytes are delayed, not lost: what was returned and what is queued are together what has
arrived. -/
theorem returned_append_queue_apply (s : EpollSocket) (a : EpollAction) :
    (s.apply a).returned ++ (s.apply a).queue =
      match a with
      | .arrive bytes => s.returned ++ s.queue ++ bytes
      | _ => s.returned ++ s.queue := by
  cases a with
  | arrive bytes => exact (List.append_assoc ..).symm
  | epollWait =>
    simp only [apply]
    split <;> rfl
  | read =>
    change s.returned ++ s.queue.take bufferSize ++ s.queue.drop bufferSize = _
    rw [List.append_assoc, List.take_append_drop]

/-- After a read nothing is stranded exactly when the read sufficed. -/
theorem nothingStranded_read_iff (s : EpollSocket) :
    NothingStranded (s.apply .read) ↔ s.ReadsSuffice .read := by
  change (EpollPc.waiting = .waiting → s.ready = false → s.queue.drop bufferSize = []) ↔
    s.queue.length ≤ bufferSize ∨ s.ready = true
  rw [List.drop_eq_nil_iff]
  cases s.ready <;> simp

/-- Such steps leave nothing stranded. -/
theorem NothingStranded.step {s : EpollSocket} (h : NothingStranded s) {a : EpollAction}
    (hg : s.ReadsSuffice a) : NothingStranded (s.apply a) := by
  cases a with
  | arrive bytes => exact fun _ hr ↦ nomatch hr
  | epollWait =>
    simp only [apply]
    split
    · exact fun hp ↦ nomatch hp
    · exact h
  | read => exact (nothingStranded_read_iff s).mpr hg

/-- In every run whose reads suffice, nothing is stranded in any state. -/
theorem nothingStranded_of_readsSuffice {s : EpollSocket}
    (h : system.ReachableUnder ReadsSuffice s) : NothingStranded s :=
  StepSystem.ReachableUnder.invariant_of_commands (fun _ _ ↦ rfl) (fun _ _ ht hg _ ↦ ht.step hg) h

/-- Three bytes that are reported and read. -/
theorem nothingStranded_three_bytes :
    NothingStranded (((init.apply (.arrive [1, 2, 3])).apply .epollWait).apply .read) := by
  have hrun : system.run ReadsSuffice init [.arrive [1, 2, 3], .epollWait, .read] =
      some (((init.apply (.arrive [1, 2, 3])).apply .epollWait).apply .read) := rfl
  exact nothingStranded_of_readsSuffice (StepSystem.reachableUnder_of_run hrun)

/-- A burst of one byte more than the buffer holds leaves a byte that is not reported. -/
theorem not_nothingStranded_burst :
    ∃ t : EpollSocket, system.Reachable t ∧ ¬ NothingStranded t := by
  have hrun : ∃ t, system.run (fun _ _ ↦ True) init
      [.arrive (List.replicate 256 0), .epollWait, .read] = some t ∧
      t.pc = .waiting ∧ t.ready = false ∧ t.queue = [0] := ⟨_, rfl, rfl, rfl, rfl⟩
  obtain ⟨t, ht, hpc, hready, hqueue⟩ := hrun
  refine ⟨t, StepSystem.reachableUnder_of_run ht, fun h ↦ ?_⟩
  have hempty := h hpc hready
  rw [hqueue] at hempty
  cases hempty

end EpollSocket
end OctopusIpc.Socket

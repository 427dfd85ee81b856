import OctopusIpc.Server.Replay
import OctopusIpc.System.Connection

/-!
# From the server to a client

The server goes through its inputs, what it writes to a client waits in the connection, and the
client takes it from there in reads of any size and rounds of its drain loop, all in any order.
A number that is accepted again stands for a connection to a client that has just been started.
-/

namespace OctopusIpc.System
open OctopusIpc.Protocol OctopusIpc.Server OctopusIpc.Client

/-- The server's variables, and the connection of each number. -/
structure Downlink where
  server : ServerState
  connection : Int → Connection

/-- What happens. -/
inductive DownlinkAction where
  | serve (input : ServerInput)
  /-- The client with this number takes a step. -/
  | client (fd : Int) (a : ClientStep)

namespace Downlink

variable (E : Environment)

/-- The connection of a number when an input comes. -/
def opened (c : Connection) (fd : Int) : ServerInput → Connection
  | .accept fd' => if fd' = fd then .init else c
  | .request _ _ | .disconnect _ | .push _ _ _ _ => c

/-- An input is handled with all writes succeeding. -/
def serve (s : Downlink) (input : ServerInput) : Downlink :=
  let handled := handleServerInput E input s.server
  ⟨handled.state, fun fd ↦ (opened (s.connection fd) fd input).write (unitsTo fd handled.effects)⟩

/-- The server and its clients as a transition system. -/
def system : StepSystem Downlink DownlinkAction where
  init := ⟨ServerState.init, fun _ ↦ .init⟩
  step s
    | .serve input => if input.Possible s.server then some (s.serve E input) else none
    | .client fd a => ((s.connection fd).step a).map fun c ↦
        { s with connection := Function.update s.connection fd c }

variable {E} {s s' : Downlink}

/-- What a step is. -/
theorem step_cases {a : DownlinkAction} (h : (system E).step s a = some s') :
    (∃ input, a = .serve input ∧ input.Possible s.server ∧ s' = s.serve E input) ∨
      ∃ fd b c, a = .client fd b ∧ (s.connection fd).step b = some c ∧
        s' = { s with connection := Function.update s.connection fd c } := by
  cases a with
  | serve input =>
    obtain ⟨hpossible, hs'⟩ := Option.ite_none_right_eq_some.mp h
    exact .inl ⟨input, rfl, hpossible, (Option.some.inj hs').symm⟩
  | client fd b =>
    obtain ⟨c, hc, hs'⟩ := Option.map_eq_some_iff.mp h
    exact .inr ⟨fd, b, c, rfl, hc, hs'.symm⟩

/-- The requests of a client are all answered in frames. -/
def AnswersInFrames (E : Environment) (fd : Int) (_ : Downlink) : DownlinkAction → Prop
  | .serve (.request clientFd queryMsg) => clientFd = fd → AnsweredInFrames E.header queryMsg.val
  | _ => True

instance (fd : Int) (s : Downlink) : (a : DownlinkAction) → Decidable (AnswersInFrames E fd s a)
  | .serve (.request _ _) => inferInstanceAs (Decidable (_ → _ ∨ _ ∨ _))
  | .serve (.accept _) | .serve (.disconnect _) | .serve (.push _ _ _ _) | .client _ _ =>
    inferInstanceAs (Decidable True)

/-- An input writes frames to a client if it is not a request of it that is answered
otherwise. -/
theorem exists_frames (hflash : E.header.sizeofFlashMetaInfor < 2 ^ 16)
    (hprogress : E.header.sizeofMcuUpdateProgress < 2 ^ 16) {fd : Int} {input : ServerInput}
    (hg : AnswersInFrames E fd s (.serve input)) :
    ∃ ms : List ValidMessage,
      unitsTo fd (handleServerInput E input s.server).effects = ms.map frameCode.encode := by
  have hspeaks (effects : List Effect) (h : ∀ e ∈ effects, e.Framed fd) :
      ∃ ms : List ValidMessage, unitsTo fd effects = ms.map frameCode.encode := by
    obtain ⟨ms, -, hms⟩ := (speaksFrames_iff_framed fd effects).mpr h
    exact ⟨ms, hms⟩
  cases input with
  | accept fd' => exact ⟨[], rfl⟩
  | disconnect fd' => exact ⟨[], rfl⟩
  | push msgGrp msgId data length =>
    exact hspeaks _ (framed_push E hflash hprogress fd msgGrp msgId data length s.server)
  | request clientFd queryMsg =>
    have hframed := (framed_dispatch_iff E hflash fd clientFd queryMsg.val s.server).mpr hg
    refine hspeaks _ fun e he ↦ hframed e ?_
    simpa [handleServerInput] using he

/-- Every step keeps a client in step whose requests are answered in frames. -/
theorem inStep_step (hflash : E.header.sizeofFlashMetaInfor < 2 ^ 16)
    (hprogress : E.header.sizeofMcuUpdateProgress < 2 ^ 16) {fd : Int} {a : DownlinkAction}
    (h : ∃ ms, (s.connection fd).InStep ms) (hg : AnswersInFrames E fd s a)
    (hs : (system E).step s a = some s') : ∃ ms, (s'.connection fd).InStep ms := by
  obtain ⟨ms, h⟩ := h
  obtain ⟨input, rfl, -, rfl⟩ | ⟨fd', b, c, rfl, hstep, rfl⟩ := step_cases hs
  · obtain ⟨new, hnew⟩ := exists_frames hflash hprogress hg
    have hopened : ∃ before, (opened (s.connection fd) fd input).InStep before := by
      unfold opened
      split
      · split_ifs
        · exact ⟨[], Connection.inStep_init⟩
        · exact ⟨ms, h⟩
      all_goals exact ⟨ms, h⟩
    obtain ⟨before, hopened⟩ := hopened
    refine ⟨before ++ new, ?_⟩
    simp only [serve, hnew]
    exact hopened.write new
  · refine ⟨ms, ?_⟩
    by_cases hfd : fd = fd'
    · subst hfd
      simp only [Function.update_self]
      exact (h.step hstep).1
    · simp only [Function.update_of_ne hfd]
      exact h

/-- A client is accepted and a key event is pushed to it. A first read brings half of the base
part, a second one the rest of it without the payload byte, where the drain loop is not left:
after one of its rounds the client has been handed an empty message. -/
def cutKeyEvent : List DownlinkAction :=
  [.serve (.accept 5), .serve (.push 5 13 (some fun _ ↦ 9) 1),
    .client 5 (.read ⟨[0xA5, 0xA5, 5], List.cons_ne_nil _ _, by decide⟩), .client 5 .round,
    .client 5 (.read ⟨[13, 0, 1], List.cons_ne_nil _ _, by decide⟩), .client 5 .round]

/-- The second read brings all the rest. -/
def pushedKeyEvent : List DownlinkAction :=
  cutKeyEvent.take 4 ++
    [.client 5 (.read ⟨[13, 0, 1, 9], List.cons_ne_nil _ _, by decide⟩), .client 5 .round,
      .client 5 .round]

end Downlink
end OctopusIpc.System

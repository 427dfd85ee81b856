import Mathlib.Data.List.TakeWhile
import OctopusIpc.Base.StepSystem
import OctopusIpc.Socket.Query

/-!
# Reading a client that hangs up

`Socket::get_query` on a connection whose client sends and then closes its end. `poll()`
reports unread bytes as `POLLIN` and a closed peer as `POLLHUP`, both at once where both are
the case, and the call looks at `POLLHUP` first: what is unread then is not read any more.
-/

namespace OctopusIpc.Socket

/-- The result says that the client is gone. -/
def QueryResult.isDisconnected : QueryResult → Bool
  | disconnected => true
  | _ => false

/-- The results before the first that says so. -/
def beforeDisconnected (results : List QueryResult) : List QueryResult :=
  results.takeWhile fun r ↦ !r.isDisconnected

/-- Later results do not matter. -/
theorem beforeDisconnected_concat_of_any {results : List QueryResult}
    (h : results.any QueryResult.isDisconnected = true) (r : QueryResult) :
    beforeDisconnected (results ++ [r]) = beforeDisconnected results := by
  obtain ⟨x, hx, hdisconnected⟩ := List.any_eq_true.mp h
  have hne : (beforeDisconnected results).length ≠ results.length := by
    intro hlen
    have heq : beforeDisconnected results = results :=
      (List.takeWhile_prefix _).eq_of_length hlen
    have hkept := List.takeWhile_eq_self_iff.mp heq x hx
    rw [hdisconnected] at hkept
    cases hkept
  exact List.takeWhile_append.trans (if_neg hne)

/-- All results before the first that says so are kept. -/
theorem beforeDisconnected_concat_of_not_any {results : List QueryResult}
    (h : results.any QueryResult.isDisconnected = false) :
    beforeDisconnected (results ++ [.disconnected]) = results := by
  have hkept : ∀ x ∈ results, (!x.isDisconnected) = true := fun x hx ↦ by
    rw [Bool.eq_false_iff.mpr fun hx' ↦ List.any_eq_false.mp h x hx hx']
    rfl
  refine (List.takeWhile_append_of_pos hkept).trans ?_
  exact List.append_nil results

/-- Where the server is in `get_query`. -/
inductive GetQueryPc where
  | outside
  /-- `poll()` has reported bytes and no hang-up. -/
  | readable
  deriving DecidableEq, Repr

/-- The unread bytes, whether the client has closed its end, the place of the server, and for
the specification what the client has sent and what `get_query` has returned. -/
structure ClientStream where
  unread : List UInt8
  hungUp : Bool
  pc : GetQueryPc
  sent : List UInt8
  results : List QueryResult

/-- The steps of the client and the server. -/
inductive StreamAction where
  | send (bytes : List UInt8)
  | close
  /-- `poll()` returns; `src/IPC/octopus_ipc_socket.cpp:261–278`. -/
  | poll
  /-- `poll()` fails; `src/IPC/octopus_ipc_socket.cpp:274–278`. -/
  | pollFails
  /-- `read()` returns this many bytes; `src/IPC/octopus_ipc_socket.cpp:280–287`. -/
  | read (count : Nat)
  deriving DecidableEq, Repr

namespace ClientStream

/-- A connection on which nothing was sent. -/
def init : ClientStream := ⟨[], false, .outside, [], []⟩

/-- A `read()` may return this many bytes. -/
def Readable (s : ClientStream) (count : Nat) : Prop :=
  0 < count ∧ count ≤ bufferSize ∧ count ≤ s.unread.length

instance (s : ClientStream) (count : Nat) : Decidable (s.Readable count) :=
  inferInstanceAs (Decidable (_ ∧ _ ∧ _))

/-- When a step can be taken. -/
def Enabled (s : ClientStream) : StreamAction → Prop
  | .send _ | .close => s.hungUp = false
  | .poll | .pollFails => s.pc = .outside
  | .read count => s.pc = .readable ∧ s.Readable count

instance (s : ClientStream) : (a : StreamAction) → Decidable (s.Enabled a)
  | .send _ | .close => inferInstanceAs (Decidable (_ = _))
  | .poll | .pollFails => inferInstanceAs (Decidable (_ = _))
  | .read _ => inferInstanceAs (Decidable (_ = _ ∧ _))

/-- The call returns. -/
def give (s : ClientStream) (r : QueryResult) : ClientStream :=
  { s with pc := .outside, results := s.results ++ [r] }

/-- The tests behind `poll()`: first for a hang-up, then for the timeout. -/
def afterPoll (s : ClientStream) : ClientStream :=
  if s.hungUp then s.give .disconnected
  else if s.unread = [] then s.give .timeout
  else { s with pc := .readable }

/-- What a step does. -/
def apply (s : ClientStream) : StreamAction → ClientStream
  | .send bytes => { s with unread := s.unread ++ bytes, sent := s.sent ++ bytes }
  | .close => { s with hungUp := true }
  | .poll => s.afterPoll
  | .pollFails => s.give .error
  | .read count =>
    if h : s.Readable count then
      { s with unread := s.unread.drop count }.give
        (.success ⟨s.unread.take count,
          List.ne_nil_of_length_pos (by rw [List.length_take, Nat.min_eq_left h.2.2]; exact h.1),
          by rw [List.length_take, Nat.min_eq_left h.2.2]; exact h.2.1⟩)
    else s

/-- The connection as a transition system. -/
def system : StepSystem ClientStream StreamAction := StepSystem.ofCommands init Enabled apply

/-- The server has been told that the client is gone. -/
def ToldGone (s : ClientStream) : Prop := s.results.any QueryResult.isDisconnected = true

/-- By the time the server is told that the client is gone it has all that the client sent. -/
def NoCommandLost (s : ClientStream) : Prop :=
  s.ToldGone → received (beforeDisconnected s.results) = s.sent

/-- The hang-up is not seen while bytes are unread. -/
def SeesHangUpDrained (s : ClientStream) : StreamAction → Prop
  | .poll => s.hungUp = true → s.unread = []
  | _ => True

instance (s : ClientStream) : (a : StreamAction) → Decidable (s.SeesHangUpDrained a)
  | .poll => inferInstanceAs (Decidable (_ → _))
  | .send _ | .close | .pollFails | .read _ => inferInstanceAs (Decidable True)

/-- Nothing is lost between the client and the server but what is unread, and the server is told
of a hang-up only after it. -/
structure Accounted (s : ClientStream) : Prop where
  stream : received s.results ++ s.unread = s.sent
  told : s.ToldGone → s.hungUp = true

theorem accounted_init : Accounted init := ⟨rfl, nofun⟩

variable {s : ClientStream} {a : StreamAction}

private theorem any_concat (results : List QueryResult) (r : QueryResult) :
    (results ++ [r]).any QueryResult.isDisconnected =
      (results.any QueryResult.isDisconnected || r.isDisconnected) := by
  rw [List.any_append, List.any_cons, List.any_nil, Bool.or_false]

/-- A result without data that does not tell of a hang-up. -/
private theorem Accounted.give (h : Accounted s) {r : QueryResult} (hdata : r.data = [])
    (hr : r.isDisconnected = true → s.hungUp = true) : Accounted (s.give r) := by
  refine ⟨?_, fun ht ↦ ?_⟩
  · simp only [ClientStream.give, received_append, received_singleton, hdata, List.append_nil]
    exact h.stream
  · simp only [ToldGone, ClientStream.give, any_concat, Bool.or_eq_true] at ht
    exact ht.elim h.told hr

/-- Each step keeps the account. -/
theorem Accounted.step (h : Accounted s) (he : s.Enabled a) : Accounted (s.apply a) := by
  cases a with
  | send bytes =>
    refine ⟨?_, h.told⟩
    simp only [ClientStream.apply, ← List.append_assoc, h.stream]
  | close => exact ⟨h.stream, fun _ ↦ rfl⟩
  | poll =>
    simp only [ClientStream.apply, afterPoll]
    split
    · next hup => exact h.give rfl fun _ ↦ hup
    · split
      · exact h.give rfl nofun
      · exact ⟨h.stream, h.told⟩
  | pollFails => exact h.give rfl nofun
  | read count =>
    simp only [ClientStream.apply, dif_pos he.2]
    refine ⟨?_, fun ht ↦ ?_⟩
    · simp only [ClientStream.give, received_append, received_singleton, QueryResult.data]
      rw [List.append_assoc, List.take_append_drop]
      exact h.stream
    · simp only [ToldGone, ClientStream.give, any_concat, QueryResult.isDisconnected,
        Bool.or_false] at ht
      exact h.told ht

/-- In every run what the client sent is what was returned and what is unread. -/
theorem accounted_of_reachable (h : system.Reachable s) : Accounted s :=
  StepSystem.ReachableUnder.invariant_of_commands accounted_init (fun _ _ hi _ he ↦ hi.step he) h

/-- A result that is not the first to tell of a hang-up changes nothing. -/
private theorem NoCommandLost.give (h : NoCommandLost s) {r : QueryResult}
    (hr : r.isDisconnected = true → s.ToldGone) : NoCommandLost (s.give r) := by
  intro ht
  simp only [ToldGone, ClientStream.give, any_concat, Bool.or_eq_true] at ht
  have htold : s.ToldGone := ht.elim id hr
  change received (beforeDisconnected (s.results ++ [r])) = s.sent
  rw [beforeDisconnected_concat_of_any htold]
  exact h htold

/-- A hang-up that the server is told of for the first time loses nothing exactly when nothing
is unread. -/
theorem noCommandLost_hangUp_iff (h : Accounted s) (hfirst : ¬ s.ToldGone) :
    NoCommandLost (s.give .disconnected) ↔ s.unread = [] := by
  have hnone : s.results.any QueryResult.isDisconnected = false := Bool.eq_false_iff.mpr hfirst
  have htold : (s.give .disconnected).ToldGone := by
    simp only [ToldGone, ClientStream.give, any_concat, QueryResult.isDisconnected, Bool.or_true]
  have hbefore : beforeDisconnected (s.give .disconnected).results = s.results :=
    beforeDisconnected_concat_of_not_any hnone
  have hlost : NoCommandLost (s.give .disconnected) ↔ received s.results = s.sent := by
    rw [NoCommandLost, hbefore]
    exact ⟨fun hl ↦ hl htold, fun hl _ ↦ hl⟩
  rw [hlost, ← h.stream]
  exact List.self_eq_append_right

/-- A step that does not see a hang-up while bytes are unread loses no command. -/
theorem NoCommandLost.step (h : NoCommandLost s) (hacc : Accounted s)
    (hg : s.SeesHangUpDrained a) (he : s.Enabled a) : NoCommandLost (s.apply a) := by
  cases a with
  | send bytes =>
    intro ht
    cases (hacc.told ht).symm.trans he
  | close => exact h
  | poll =>
    simp only [ClientStream.apply, afterPoll]
    split
    · next hup =>
      by_cases htold : s.ToldGone
      · exact h.give fun _ ↦ htold
      · exact (noCommandLost_hangUp_iff hacc htold).mpr (hg hup)
    · split
      · exact h.give nofun
      · exact h
  | pollFails => exact h.give nofun
  | read count =>
    simp only [ClientStream.apply, dif_pos he.2]
    have hdrop : NoCommandLost { s with unread := s.unread.drop count } := h
    exact hdrop.give nofun

/-- In every run in which the hang-up is never seen while bytes are unread, no command sent
before it is lost. -/
theorem noCommandLost_of_seesHangUpDrained (h : system.ReachableUnder SeesHangUpDrained s) :
    NoCommandLost s := by
  refine h.invariant_of_reachable ?_ ?_
  · intro ht
    cases ht
  · intro t a t' hr ht hg hs
    obtain ⟨he, rfl⟩ := StepSystem.ofCommands_step_eq_some_iff.mp hs
    exact ht.step (accounted_of_reachable hr.reachable) hg he

/-- Three bytes are read in two pieces, the client closing in between. -/
theorem noCommandLost_closeBetweenReads :
    ∃ s, system.ReachableUnder SeesHangUpDrained s ∧ s.ToldGone ∧ s.sent = [1, 2, 3] ∧
      NoCommandLost s := by
  have hrun : ∃ s, system.run SeesHangUpDrained init
      [.send [1, 2, 3], .poll, .read 2, .poll, .close, .read 1, .poll] = some s ∧
      s.ToldGone ∧ s.sent = [1, 2, 3] := ⟨_, rfl, rfl, rfl⟩
  obtain ⟨s, hs, htold, hsent⟩ := hrun
  have hreach := StepSystem.reachableUnder_of_run hs
  exact ⟨s, hreach, htold, hsent, noCommandLost_of_seesHangUpDrained hreach⟩

/-- A client that sends and closes before the server's next `poll()` sends in vain. -/
theorem not_noCommandLost_closeBeforePoll :
    ∃ s, system.Reachable s ∧ s.sent = [1, 2, 3] ∧ ¬ NoCommandLost s := by
  have hrun : ∃ s, system.run (fun _ _ ↦ True) init [.send [1, 2, 3], .close, .poll] = some s ∧
      s.results = [.disconnected] ∧ s.sent = [1, 2, 3] := ⟨_, rfl, rfl, rfl⟩
  obtain ⟨s, hs, hresults, hsent⟩ := hrun
  refine ⟨s, StepSystem.reachableUnder_of_run hs, hsent, fun h ↦ ?_⟩
  rw [NoCommandLost, ToldGone, hresults, hsent] at h
  cases h rfl

end ClientStream
end OctopusIpc.Socket

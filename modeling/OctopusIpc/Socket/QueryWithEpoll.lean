import Mathlib.Logic.Function.Basic
import OctopusIpc.Socket.HangUp

/-!
# The two ways to read a query

`Socket::get_query` and `Socket::get_query_with_epoll` as whole calls on an open connection,
called again and again with bytes arriving in between. The second keeps an epoll instance in
the `Socket` from call to call, and both its lazy initialisation and the call itself add the
descriptor to it. The argument `timeout_ms` is not used.
-/

namespace OctopusIpc.Socket

/-- What the kernel has of a connection: the unread bytes, and whether the peer has closed. -/
structure Connection where
  unread : List UInt8
  hungUp : Bool
  deriving DecidableEq, Repr

/-- What `epoll_wait` returns. -/
inductive EpollWait where
  | fails
  | timesOut
  /-- An event, with whether `EPOLLIN` is set in it. -/
  | event (readable : Bool)
  deriving DecidableEq, Repr

/-- What happens around one call: what has arrived and whether the peer has closed by the time
its wait ends, and what the system calls of either function return. -/
structure QueryRound where
  arrived : List UInt8
  closes : Bool
  /-- `poll()` fails. -/
  pollFails : Bool
  /-- `epoll_create1`, with the number of the instance. -/
  created : Option Nat
  /-- `epoll_ctl` in `init_epoll` succeeds. -/
  addedFirst : Bool
  /-- `epoll_ctl` in the call succeeds if the descriptor is not in the instance. -/
  added : Bool
  waited : EpollWait
  deriving DecidableEq, Repr

namespace Connection

/-- The connection by the end of the wait. Nothing arrives behind a hang-up. -/
def arrive (c : Connection) (r : QueryRound) : Connection :=
  if c.hungUp then c else ⟨c.unread ++ r.arrived, r.closes⟩

/-- What fits into the buffer is not empty if anything is unread. -/
theorem take_bufferSize_ne_nil {unread : List UInt8} (h : unread ≠ []) :
    unread.take bufferSize ≠ [] := by
  intro htake
  rcases List.take_eq_nil_iff.mp htake with hsize | hunread
  · cases hsize
  · exact h hunread

/-- `read()` into the buffer. With nothing unread it returns when the peer has closed. -/
def read (c : Connection) : QueryResult × Connection :=
  if h : c.unread = [] then (.disconnected, c)
  else
    (.success ⟨c.unread.take bufferSize, take_bufferSize_ne_nil h, List.length_take_le _ _⟩,
      { c with unread := c.unread.drop bufferSize })

/-- What a `read()` of unread bytes returns. -/
theorem read_of_unread {c : Connection} (h : c.unread ≠ []) :
    c.read = (.success ⟨c.unread.take bufferSize, take_bufferSize_ne_nil h,
      List.length_take_le _ _⟩, { c with unread := c.unread.drop bufferSize }) :=
  dif_neg h

/-- `src/IPC/octopus_ipc_socket.cpp:255–287`; a `poll()` that fails reports no events. -/
def getQuery (c : Connection) (pollFails : Bool) : QueryResult × Connection :=
  if pollFails then (.error, c)
  else if c.hungUp then (.disconnected, c)
  else if c.unread = [] then (.timeout, c)
  else c.read

/-- The results of calls of `get_query`, one a round. -/
def queries (c : Connection) : List QueryRound → List QueryResult
  | [] => []
  | r :: rounds =>
    let call := (c.arrive r).getQuery r.pollFails
    call.1 :: call.2.queries rounds

end Connection

/-- The fields of a `Socket` that concern epoll, and the descriptors in its instance;
`src/IPC/octopus_ipc_socket.hpp:103–105`. -/
structure EpollContext where
  epollFd : Int
  epollInitialized : Bool
  watched : Int → Bool

namespace EpollContext

/-- `init_epoll` with a descriptor; `src/IPC/octopus_ipc_socket.cpp:70–97`. -/
def initEpoll (e : EpollContext) (socketFd : Int) (r : QueryRound) : EpollContext :=
  if e.epollInitialized then e
  else
    match r.created with
    | none => { e with epollFd := -1 }
    | some epollFd =>
      if r.addedFirst then ⟨epollFd, true, Function.update (fun _ ↦ false) socketFd true⟩
      else { e with epollFd := -1 }

/-- `src/IPC/octopus_ipc_socket.cpp:310–334`. -/
def waitAndRead (c : Connection) : EpollWait → QueryResult × Connection
  | .fails => (.error, c)
  | .timesOut => (.timeout, c)
  | .event readable => if readable then c.read else (.error, c)

/-- `src/IPC/octopus_ipc_socket.cpp:290–335`. A descriptor that is in the instance cannot be
added again. -/
def getQueryWithEpoll (e : EpollContext) (socketFd : Int) (c : Connection) (r : QueryRound) :
    QueryResult × EpollContext × Connection :=
  let e := e.initEpoll socketFd r
  if e.epollFd = -1 then (.error, e, c)
  else if e.watched socketFd || !r.added then (.error, e, c)
  else
    let call := waitAndRead c r.waited
    (call.1, { e with watched := Function.update e.watched socketFd true }, call.2)

/-- The results of calls of `get_query_with_epoll` on one descriptor, one a round. -/
def queriesWithEpoll (e : EpollContext) (socketFd : Int) (c : Connection) :
    List QueryRound → List QueryResult
  | [] => []
  | r :: rounds =>
    let call := e.getQueryWithEpoll socketFd (c.arrive r) r
    call.1 :: call.2.1.queriesWithEpoll socketFd call.2.2 rounds

end EpollContext

variable {c : Connection} {r : QueryRound} {rounds : List QueryRound}

/-! ### Calls of `get_query` -/

namespace Connection

/-- Only a failing `poll()` makes the call fail. -/
theorem fst_getQuery_eq_error_iff (c : Connection) (pollFails : Bool) :
    (c.getQuery pollFails).1 = .error ↔ pollFails = true := by
  unfold getQuery
  cases pollFails with
  | true => exact iff_of_true rfl rfl
  | false =>
    refine iff_of_false ?_ Bool.false_ne_true
    rw [if_neg Bool.false_ne_true]
    split
    · rintro ⟨⟩
    · split
      · rintro ⟨⟩
      · next hunread =>
        rw [read_of_unread hunread]
        rintro ⟨⟩

/-- All calls fail exactly when each `poll()` does. -/
theorem queries_eq_errors_iff (c : Connection) (rounds : List QueryRound) :
    c.queries rounds = rounds.map (fun _ ↦ .error) ↔ ∀ r ∈ rounds, r.pollFails = true := by
  induction rounds generalizing c with
  | nil => exact iff_of_true rfl fun _ hr ↦ absurd hr List.not_mem_nil
  | cons r rounds ih =>
    rw [queries, List.map_cons, List.cons.injEq, fst_getQuery_eq_error_iff, ih,
      List.forall_mem_cons]

end Connection

/-! ### Calls of `get_query_with_epoll` -/

namespace EpollContext

variable {e : EpollContext} {fd : Int}

/-- An instance, if there is one, has the descriptor. -/
def Registers (e : EpollContext) (fd : Int) : Prop :=
  e.epollInitialized = true → e.watched fd = true

/-- The initialisation leaves an instance with the descriptor, or none. -/
theorem Registers.initEpoll (h : e.Registers fd) (r : QueryRound) :
    (e.initEpoll fd r).Registers fd ∧
      ((e.initEpoll fd r).epollFd = -1 ∨ (e.initEpoll fd r).watched fd = true) := by
  unfold EpollContext.initEpoll
  by_cases hinit : e.epollInitialized = true
  · rw [if_pos hinit]
    exact ⟨h, .inr (h hinit)⟩
  · rw [if_neg hinit]
    cases r.created with
    | none => exact ⟨h, .inl rfl⟩
    | some epollFd =>
      have hwatched : Function.update (fun _ ↦ false) fd true fd = true := Function.update_self ..
      by_cases hadded : r.addedFirst = true
      · simp only [if_pos hadded]
        exact ⟨fun _ ↦ hwatched, .inr hwatched⟩
      · simp only [if_neg hadded]
        exact ⟨h, .inl trivial⟩

/-- A call whose descriptor is registered, before it or by its own initialisation, fails and
reads nothing. -/
theorem Registers.getQueryWithEpoll (h : e.Registers fd) (c : Connection) (r : QueryRound) :
    (e.getQueryWithEpoll fd c r).1 = .error ∧ (e.getQueryWithEpoll fd c r).2.1.Registers fd ∧
      (e.getQueryWithEpoll fd c r).2.2 = c := by
  obtain ⟨hkeeps, hfails⟩ := h.initEpoll r
  unfold EpollContext.getQueryWithEpoll
  by_cases hnone : (e.initEpoll fd r).epollFd = -1
  · simp only [if_pos hnone]
    exact ⟨trivial, hkeeps, trivial⟩
  · have hthere : ((e.initEpoll fd r).watched fd || !r.added) = true := by
      rw [hfails.resolve_left hnone, Bool.true_or]
    simp only [if_neg hnone, if_pos hthere]
    exact ⟨trivial, hkeeps, trivial⟩

/-- All calls on the descriptor fail. -/
theorem Registers.queriesWithEpoll (h : e.Registers fd) (c : Connection)
    (rounds : List QueryRound) :
    e.queriesWithEpoll fd c rounds = rounds.map fun _ ↦ .error := by
  induction rounds generalizing e c with
  | nil => rfl
  | cons r rounds ih =>
    obtain ⟨hresult, hkeeps, -⟩ := h.getQueryWithEpoll (c.arrive r) r
    rw [EpollContext.queriesWithEpoll, List.map_cons, hresult, ih hkeeps]

/-- For every open connection, whatever arrives and whatever the system calls return, calls on
a `Socket` that has no epoll instance yet give the results of `get_query` if and only if each
`poll()` fails. -/
theorem queriesWithEpoll_eq_queries_iff (he : e.epollInitialized = false) (fd : Int)
    (c : Connection) (rounds : List QueryRound) :
    e.queriesWithEpoll fd c rounds = c.queries rounds ↔ ∀ r ∈ rounds, r.pollFails = true := by
  have hregisters : e.Registers fd := fun hinit ↦ absurd (he.symm.trans hinit) Bool.false_ne_true
  rw [hregisters.queriesWithEpoll c rounds, eq_comm]
  exact c.queries_eq_errors_iff rounds

/-- A `Socket` in static storage before its first call. -/
def init : EpollContext := ⟨0, false, fun _ ↦ false⟩

/-- A round in which the bytes arrive and every system call succeeds. -/
def arrives (bytes : List UInt8) : QueryRound :=
  ⟨bytes, false, false, some 9, true, true, .event true⟩

theorem queriesWithEpoll_interrupted :
    init.queriesWithEpoll 7 ⟨[], false⟩ [{ arrives [1, 2, 3] with pollFails := true }] =
      Connection.queries ⟨[], false⟩ [{ arrives [1, 2, 3] with pollFails := true }] :=
  (queriesWithEpoll_eq_queries_iff rfl 7 ⟨[], false⟩ _).mpr fun r hr ↦ by
    rw [List.mem_singleton.mp hr]

/-- Three bytes arrive, and two more before the next call. -/
theorem queriesWithEpoll_ne_queries_readable :
    init.queriesWithEpoll 7 ⟨[], false⟩ [arrives [1, 2, 3], arrives [4, 5]] = [.error, .error] ∧
      (Connection.queries ⟨[], false⟩ [arrives [1, 2, 3], arrives [4, 5]]).map
        QueryResult.data = [[1, 2, 3], [4, 5]] ∧
      init.queriesWithEpoll 7 ⟨[], false⟩ [arrives [1, 2, 3], arrives [4, 5]] ≠
        Connection.queries ⟨[], false⟩ [arrives [1, 2, 3], arrives [4, 5]] := by
  refine ⟨rfl, rfl, fun h ↦ ?_⟩
  have hdata := congrArg (List.map QueryResult.data) h
  cases hdata

end EpollContext

/-! ### Calls and the steps of the connection -/

namespace ClientStream

/-- What the kernel has of it. -/
def connection (s : ClientStream) : Connection := ⟨s.unread, s.hungUp⟩

variable {s : ClientStream}

/-- What arrives around a call arrives in steps of the client. -/
theorem exists_run_arrive (s : ClientStream) (r : QueryRound) :
    ∃ as s', system.run (fun _ _ ↦ True) s as = some s' ∧ s'.pc = s.pc ∧
      s'.results = s.results ∧ s'.connection = s.connection.arrive r := by
  by_cases hup : s.hungUp = true
  · exact ⟨[], s, rfl, rfl, rfl, (if_pos hup).symm⟩
  · have hopen : s.hungUp = false := Bool.eq_false_iff.mpr hup
    have harrive : s.connection.arrive r = ⟨s.unread ++ r.arrived, r.closes⟩ := if_neg hup
    rw [harrive]
    cases hcloses : r.closes with
    | false =>
      refine ⟨[.send r.arrived], s.apply (.send r.arrived), ?_, rfl, rfl, ?_⟩
      · exact StepSystem.run_cons_of_commands_iff.mpr ⟨trivial, hopen, rfl⟩
      · exact congrArg (Connection.mk _) hopen
    | true =>
      have hclose : system.run (fun _ _ ↦ True) (s.apply (.send r.arrived)) [.close] =
          some ((s.apply (.send r.arrived)).apply .close) :=
        StepSystem.run_cons_of_commands_iff.mpr ⟨trivial, hopen, rfl⟩
      refine ⟨[.send r.arrived, .close], (s.apply (.send r.arrived)).apply .close, ?_, rfl, rfl,
        rfl⟩
      exact StepSystem.run_cons_of_commands_iff.mpr ⟨trivial, hopen, hclose⟩

private theorem exists_run_read (hpc : s.pc = .outside) (hup : ¬ s.hungUp = true)
    (hunread : s.unread ≠ []) :
    ∃ as s', system.run (fun _ _ ↦ True) s as = some s' ∧ s'.pc = .outside ∧
      s'.results = s.results ++ [s.connection.read.1] ∧ s'.connection = s.connection.read.2 := by
  have hpoll : s.apply .poll = { s with pc := .readable } := (if_neg hup).trans (if_neg hunread)
  have hcount : ({ s with pc := .readable } : ClientStream).Readable
      (min bufferSize s.unread.length) := by
    have hpos : 0 < s.unread.length := List.length_pos_iff.mpr hunread
    exact ⟨Nat.lt_min.mpr ⟨by decide, hpos⟩, Nat.min_le_left _ _, Nat.min_le_right _ _⟩
  have htake : s.unread.take (min bufferSize s.unread.length) = s.unread.take bufferSize :=
    List.take_eq_take_min.symm
  have hdrop : s.unread.drop (min bufferSize s.unread.length) = s.unread.drop bufferSize :=
    List.drop_eq_drop_min.symm
  have hconnection : s.connection.unread ≠ [] := hunread
  have hread : ({ s with pc := .readable } : ClientStream).apply
      (.read (min bufferSize s.unread.length)) =
        { s with
          unread := s.unread.drop bufferSize
          pc := .outside
          results := s.results ++ [s.connection.read.1] } := by
    rw [Connection.read_of_unread hconnection]
    simp only [ClientStream.apply, dif_pos hcount, give, htake, hdrop]
    rfl
  have hrun : system.run (fun _ _ ↦ True) s [.poll, .read (min bufferSize s.unread.length)] =
      some (({ s with pc := .readable } : ClientStream).apply
        (.read (min bufferSize s.unread.length))) := by
    refine StepSystem.run_cons_of_commands_iff.mpr ⟨trivial, hpc, ?_⟩
    rw [hpoll]
    exact StepSystem.run_cons_of_commands_iff.mpr ⟨trivial, ⟨rfl, hcount⟩, rfl⟩
  refine ⟨_, _, hrun.trans (congrArg some hread), rfl, rfl, ?_⟩
  rw [Connection.read_of_unread hconnection]
  rfl

/-- A whole call of `get_query` is a run of its steps. -/
theorem exists_run_getQuery (hpc : s.pc = .outside) (pollFails : Bool) :
    ∃ as s', system.run (fun _ _ ↦ True) s as = some s' ∧ s'.pc = .outside ∧
      s'.results = s.results ++ [(s.connection.getQuery pollFails).1] ∧
      s'.connection = (s.connection.getQuery pollFails).2 := by
  have hrun {a : StreamAction} (he : s.Enabled a) :
      system.run (fun _ _ ↦ True) s [a] = some (s.apply a) :=
    StepSystem.run_cons_of_commands_iff.mpr ⟨trivial, he, rfl⟩
  unfold Connection.getQuery
  cases pollFails with
  | true => exact ⟨[.pollFails], s.apply .pollFails, hrun hpc, rfl, rfl, rfl⟩
  | false =>
    rw [if_neg Bool.false_ne_true]
    by_cases hup : s.hungUp = true
    · have hpoll : s.apply .poll = s.give .disconnected := if_pos hup
      have hconnection : s.connection.hungUp = true := hup
      rw [if_pos hconnection]
      exact ⟨[.poll], s.give .disconnected, hpoll ▸ hrun hpc, rfl, rfl, rfl⟩
    · have hconnection : ¬ s.connection.hungUp = true := hup
      rw [if_neg hconnection]
      by_cases hunread : s.unread = []
      · have hpoll : s.apply .poll = s.give .timeout := (if_neg hup).trans (if_pos hunread)
        have hempty : s.connection.unread = [] := hunread
        rw [if_pos hempty]
        exact ⟨[.poll], s.give .timeout, hpoll ▸ hrun hpc, rfl, rfl, rfl⟩
      · have hempty : s.connection.unread ≠ [] := hunread
        rw [if_neg hempty]
        exact exists_run_read hpc hup hunread

/-- The results of `get_query`, call after call, are those of a run of the connection. -/
theorem exists_run_queries (hpc : s.pc = .outside) (rounds : List QueryRound) :
    ∃ as s', system.run (fun _ _ ↦ True) s as = some s' ∧
      s'.results = s.results ++ s.connection.queries rounds := by
  induction rounds generalizing s with
  | nil => exact ⟨[], s, rfl, (List.append_nil _).symm⟩
  | cons r rounds ih =>
    obtain ⟨as, t, hrun, hpct, hresults, hconnection⟩ := s.exists_run_arrive r
    obtain ⟨as', t', hrun', hpct', hresults', hconnection'⟩ :=
      exists_run_getQuery (hpct.trans hpc) r.pollFails
    obtain ⟨as'', t'', hrun'', hresults''⟩ := ih hpct'
    refine ⟨as ++ (as' ++ as''), t'', ?_, ?_⟩
    · rw [StepSystem.run_append, hrun, Option.bind_some, StepSystem.run_append, hrun',
        Option.bind_some, hrun'']
    · rw [hresults'', hresults', hconnection', hresults, hconnection, Connection.queries,
        List.append_assoc]
      rfl

end ClientStream
end OctopusIpc.Socket

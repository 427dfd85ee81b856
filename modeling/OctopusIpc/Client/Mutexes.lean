import OctopusIpc.Base.LockOrder

/-!
# The mutexes of the client library

What each function of the library does with `callback_mutex`, the queue mutex of its thread
pool, the epoll mutex of its socket and the mutex of the logger. A registered callback is called
with none of them held, so it may itself call the library, and a thread that waits for a task
has given the queue mutex back. The join of `ipc_exit_cleanup` and of the pool's destructor is
not a matter of mutexes and left out, as are the locks inside the standard library.
-/

namespace OctopusIpc.Client
open LockAction

/-- `callback_mutex`, `queue_mutex_`, `epoll_mutex` and `log_mutex`. -/
inductive ClientMutex where
  | callback
  | queue
  | epoll
  | log
  deriving DecidableEq, Repr

/-- `callback_mutex` is taken first. -/
def ClientMutex.rank : ClientMutex → Nat
  | callback => 0
  | queue | epoll | log => 1

/-- What a thread does with the mutexes. -/
abbrev Locking := List (LockAction ClientMutex)

/-! ### The functions of the library -/

/-- `LOG_CC`, the mutex being taken if the level is logged; `src/IPC/octopus_logger.cpp:84–111`. -/
def logCc (logged : Bool) : Locking := if logged then critical .log [] else []

/-- `src/APP/octopus_ipc_app_client.cpp:245–253`. -/
def ipcRegisterSocketCallback (logged : Bool) : Locking := critical .callback (logCc logged)

/-- `src/APP/octopus_ipc_app_client.cpp:264–289`, the entries it finds being logged one by one. -/
def ipcUnregisterSocketCallback (found : List Bool) : Locking :=
  critical .callback (found.map logCc).flatten

/-- `OctopusThreadPool::enqueue` and `enqueue_delayed`, which give the mutex back for each
round they wait for space; `src/IPC/octopus_ipc_threadpool.cpp:69–115`. -/
def enqueue (rounds : Nat) : Locking :=
  (List.replicate (rounds + 1) (critical .queue [])).flatten

/-- `src/APP/octopus_ipc_app_client.cpp:300–361`, with the rounds each submission waits. -/
def ipcInvokeNotifyResponse (submissions : List Nat) : Locking :=
  critical .callback [] ++ (submissions.map enqueue).flatten

/-- The task of a delivery: the callback runs and does what it does, and if it throws the
failure is counted, at the threshold with a second log line;
`src/APP/octopus_ipc_app_client.cpp:319–359`. -/
def deliver (callback : Locking) : (thrown : Option (Bool × Bool)) → Locking
  | none => callback
  | some (atThreshold, logged) => callback ++ critical .callback
      (logCc logged ++ if atThreshold then logCc logged else [])

/-- A worker gets its task, having waited that many times; the mutex is given back while it
waits; `src/IPC/octopus_ipc_threadpool.cpp:183–206`. -/
def takeTask (waits : Nat) : Locking :=
  (List.replicate (waits + 1) (critical .queue [])).flatten

/-- `Socket::init_epoll` and `register_socket_fd`; `src/IPC/octopus_ipc_socket.cpp:66–141`. -/
def initEpoll : Locking := critical .epoll []

/-- `src/APP/octopus_ipc_app_client.cpp:366–411`, as far as a new socket is opened. -/
def ipcReconnectToServer (opened : Bool) : Locking :=
  if opened then initEpoll ++ critical .epoll [] else []

/-- `OctopusThreadPool::health_check`, adding or removing threads or neither;
`src/IPC/octopus_ipc_threadpool.cpp:224–299`. -/
def healthCheck (scales : Bool) : Locking :=
  critical .queue [] ++ if scales then critical .queue [] else []

/-- What the threads of the client do: those of the library, those of the application that
call it, and the callbacks when they call it. -/
inductive Performs : Locking → Prop
  | nothing : Performs []
  | andThen {as bs : Locking} (ha : Performs as) (hb : Performs bs) : Performs (as ++ bs)
  | register (logged : Bool) : Performs (ipcRegisterSocketCallback logged)
  | unregister (found : List Bool) : Performs (ipcUnregisterSocketCallback found)
  | notify (submissions : List Nat) : Performs (ipcInvokeNotifyResponse submissions)
  | submit (rounds : Nat) : Performs (enqueue rounds)
  | take (waits : Nat) : Performs (takeTask waits)
  | deliver {callback : Locking} (h : Performs callback) (thrown : Option (Bool × Bool)) :
    Performs (deliver callback thrown)
  | receive : Performs initEpoll
  | reconnect (opened : Bool) : Performs (ipcReconnectToServer opened)
  | scale (scales : Bool) : Performs (healthCheck scales)

/-! ### The order of the mutexes -/

/-- Whatever the library does is in the order of the ranks. -/
abbrev InOrder (as : Locking) : Prop := LockState.Ordered ClientMutex.rank [] as

theorem inOrder_critical_nil (m : ClientMutex) : InOrder (critical m []) :=
  LockState.Ordered.critical rfl fun _ h ↦ absurd h List.not_mem_nil

theorem inOrder_logCc (logged : Bool) : InOrder (logCc logged) := by
  cases logged with
  | false => rfl
  | true => exact inOrder_critical_nil .log

/-- Log lines may be written with the callback mutex held. -/
theorem takesAbove_logCc (logged : Bool) :
    LockState.TakesAbove ClientMutex.rank [.callback] (logCc logged) := by
  cases logged <;> simp [LockState.TakesAbove, logCc, critical, ClientMutex.rank]

theorem inOrder_sections (m : ClientMutex) (n : Nat) :
    InOrder (List.replicate n (critical m [])).flatten :=
  LockState.ordered_flatten fun as has ↦ by
    rw [List.eq_of_mem_replicate has]
    exact inOrder_critical_nil m

theorem inOrder_of_performs {as : Locking} (h : Performs as) : InOrder as := by
  induction h with
  | nothing => rfl
  | andThen ha hb iha ihb => exact iha.append ihb
  | register logged => exact (inOrder_logCc logged).critical (takesAbove_logCc logged)
  | unregister found =>
    refine LockState.Ordered.critical (LockState.ordered_flatten fun as has ↦ ?_) fun m hm ↦ ?_
    · obtain ⟨logged, -, rfl⟩ := List.mem_map.mp has
      exact inOrder_logCc logged
    · obtain ⟨as, has, hm⟩ := List.mem_flatten.mp hm
      obtain ⟨logged, -, rfl⟩ := List.mem_map.mp has
      exact takesAbove_logCc logged m hm
  | notify submissions =>
    refine (inOrder_critical_nil .callback).append (LockState.ordered_flatten fun as has ↦ ?_)
    obtain ⟨rounds, -, rfl⟩ := List.mem_map.mp has
    exact inOrder_sections .queue (rounds + 1)
  | submit rounds => exact inOrder_sections .queue (rounds + 1)
  | take waits => exact inOrder_sections .queue (waits + 1)
  | deliver h thrown ih =>
    cases thrown with
    | none => exact ih
    | some thrown =>
      obtain ⟨atThreshold, logged⟩ := thrown
      refine ih.append (LockState.Ordered.critical ?_ ?_)
      · cases atThreshold with
        | false => exact (inOrder_logCc logged).append rfl
        | true => exact (inOrder_logCc logged).append (inOrder_logCc logged)
      · intro m hm
        rcases List.mem_append.mp hm with hm | hm
        · exact takesAbove_logCc logged m hm
        · cases atThreshold with
          | false => exact absurd hm List.not_mem_nil
          | true => exact takesAbove_logCc logged m hm
  | receive => exact inOrder_critical_nil .epoll
  | reconnect opened =>
    cases opened with
    | false => rfl
    | true => exact (inOrder_critical_nil .epoll).append (inOrder_critical_nil .epoll)
  | scale scales =>
    cases scales with
    | false => exact (inOrder_critical_nil .queue).append rfl
    | true => exact (inOrder_critical_nil .queue).append (inOrder_critical_nil .queue)

/-! ### The threads -/

/-- The threads start only what the library does. -/
def StartsCalls (_ : LockState ClientMutex) : LockStep ClientMutex → Prop
  | .start _ operation => Performs operation
  | .act _ => True

/-- The client cannot deadlock on its mutexes: in every interleaving of any number of threads,
of the application, of the pool and the receiver, with callbacks that call the library
themselves to any depth, while some thread is inside a call some thread can go on. -/
theorem exists_enabled_of_startsCalls {s : LockState ClientMutex}
    (h : LockState.system.ReachableUnder StartsCalls s) {i : Nat} (hi : s.rest i ≠ []) :
    ∃ j, s.Enabled (.act j) := by
  have hordered : LockState.system.ReachableUnder (LockState.StartsOrdered ClientMutex.rank) s := by
    refine h.mono fun t a ha ↦ ?_
    cases a with
    | start i operation => exact inOrder_of_performs ha
    | act i => trivial
  have hbound (m : ClientMutex) : m.rank ≤ 1 := by cases m <;> decide
  exact LockState.exists_enabled_of_reachable hbound hordered hi

/-- One thread registers a callback and holds its mutex to log that; a callback on another
thread, about to unregister itself, has to wait for it. -/
theorem exists_enabled_callbackUnregisters :
    ∃ s : LockState ClientMutex, LockState.system.ReachableUnder StartsCalls s ∧
      s.rest 1 ≠ [] ∧ ¬ s.Enabled (.act 1) ∧ ∃ j, s.Enabled (.act j) := by
  have hregister : LockState.system.ReachableUnder StartsCalls _ :=
    StepSystem.ReachableUnder.init.step (a := .start 0 (ipcRegisterSocketCallback true))
      (.register true) rfl
  have hholds : LockState.system.ReachableUnder StartsCalls _ :=
    hregister.step (a := .act 0) trivial rfl
  have hdeliver : LockState.system.ReachableUnder StartsCalls _ :=
    hholds.step (a := .start 1 (deliver (ipcUnregisterSocketCallback [true]) none))
      (.deliver (.unregister [true]) none) rfl
  refine ⟨_, hdeliver, List.cons_ne_nil _ _, ?_, ?_⟩
  · exact fun h ↦ Option.some_ne_none 0 h
  · exact exists_enabled_of_startsCalls (i := 1) hdeliver (List.cons_ne_nil _ _)

end OctopusIpc.Client

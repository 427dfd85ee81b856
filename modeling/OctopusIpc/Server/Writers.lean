import OctopusIpc.Server.HandlerEffects
import OctopusIpc.Server.Threads

/-!
# The bytes the server's threads write

Any number of threads handle requests or run the push callback and write what these send,
each send under `server_mutex`, with as many `write()` calls as the kernel makes it take.
`Socket::send_response` makes one call, and closes the descriptor when that call fails, be it
with `EINTR` or `EAGAIN` only; `Socket::send_buff` goes on until all is written. Apart from
the first, no descriptor is closed here.
-/

namespace OctopusIpc.Server
open OctopusIpc.Protocol Traced

/-- One call of `Socket::send_response` or `Socket::send_buff`. -/
structure Send where
  kind : SendKind
  fd : Int
  buffer : List UInt8
  deriving DecidableEq, Repr

/-- The send an effect calls. -/
def Effect.send : Effect → Option Send
  | sendResponse fd buffer => some ⟨.response, fd, buffer⟩
  | sendBuff fd buffer => some ⟨.buff, fd, buffer⟩
  | _ => none

/-- The sends of a trace, in order. -/
def sends (effects : List Effect) : List Send := effects.filterMap Effect.send

/-- What one `write()` returns: a positive count, a failure with `EINTR`, with `EAGAIN` or
`EWOULDBLOCK`, or a failure because the descriptor is closed. -/
inductive WriteResult where
  | accepted (n : Nat)
  | interrupted
  | wouldBlock
  | badDescriptor
  deriving DecidableEq, Repr

/-- The thread inside `server_mutex`, its send, `total_sent`, and whether the send is left by
a `return` or by the end of the response. -/
structure Turn where
  thread : Nat
  send : Send
  totalSent : Nat
  returned : Bool

/-- Another `write()` comes; `src/IPC/octopus_ipc_socket.cpp:345,361`. -/
def Turn.Writing (h : Turn) : Prop :=
  h.returned = false ∧ (h.send.kind = .buff → h.totalSent < h.send.buffer.length)

instance (h : Turn) : Decidable h.Writing := inferInstanceAs (Decidable (_ ∧ (_ → _)))

/-- The send after a `write()`; `src/IPC/octopus_ipc_socket.cpp:345–354,363–392`. -/
def Turn.afterWrite (h : Turn) : WriteResult → Turn
  | .accepted n =>
    { h with totalSent := h.totalSent + n, returned := h.send.kind = .response }
  | .interrupted | .wouldBlock => { h with returned := h.send.kind = .response }
  | .badDescriptor => { h with returned := true }

/-- The threads that write, what they still have to send, and what reached the descriptors.
For the specification, the sends in the order in which they took the mutex and, of those that
released it, whether they wrote their buffer. -/
structure Writers where
  pending : Nat → List Send
  serverMutex : Option Turn
  closed : Int → Bool
  wire : Int → List UInt8
  acquired : List Send
  log : List (Send × Bool)

namespace Writers

/-- The steps of the threads. The variables a handler or a push finds are part of the step. -/
inductive Action where
  /-- A handler thread handles the data of a query. -/
  | request (t : Nat) (clientFd : Int) (data : List UInt8) (server : ServerState)
  /-- A thread of the library calls the push callback. -/
  | push (t : Nat) (msgGrp msgId : UInt16) (data : Option Memory) (length : UInt16)
    (server : ServerState)
  /-- The next send of a thread takes the mutex. -/
  | lock (t : Nat)
  /-- One `write()` of the send inside the mutex. -/
  | write (result : WriteResult)
  /-- That send releases the mutex. -/
  | unlock

/-- No thread has anything to send. -/
def init : Writers where
  pending _ := []
  serverMutex := none
  closed _ := false
  wire _ := []
  acquired := []
  log := []

/-- A thread has nothing to send and is not sending. -/
def Idle (s : Writers) (t : Nat) : Prop :=
  s.pending t = [] ∧ ∀ h ∈ s.serverMutex, h.thread ≠ t

/-- What `write()` can return: nothing but a failure on a closed descriptor, and no failure
for good on an open one. -/
def CanReturn (s : Writers) (h : Turn) : WriteResult → Prop
  | .accepted n =>
    s.closed h.send.fd = false ∧ 0 < n ∧ h.totalSent + n ≤ h.send.buffer.length
  | .interrupted | .wouldBlock => s.closed h.send.fd = false
  | .badDescriptor => s.closed h.send.fd = true

instance (s : Writers) (h : Turn) : (r : WriteResult) → Decidable (s.CanReturn h r)
  | .accepted _ => inferInstanceAs (Decidable (_ ∧ _ ∧ _))
  | .interrupted | .wouldBlock | .badDescriptor => inferInstanceAs (Decidable (_ = _))

/-- When a step can be taken. -/
def Enabled (s : Writers) : Action → Prop
  | .request t _ _ _ | .push t _ _ _ _ _ => s.Idle t
  | .lock t => s.serverMutex = none ∧ s.pending t ≠ []
  | .write result => ∃ h ∈ s.serverMutex, h.Writing ∧ s.CanReturn h result
  | .unlock => ∃ h ∈ s.serverMutex, ¬ h.Writing

instance (s : Writers) : (a : Action) → Decidable (s.Enabled a)
  | .request t _ _ _ | .push t _ _ _ _ _ =>
    inferInstanceAs (Decidable (s.pending t = [] ∧ ∀ h ∈ s.serverMutex, _))
  | .lock t => inferInstanceAs (Decidable (s.serverMutex = none ∧ s.pending t ≠ []))
  | .write _ => inferInstanceAs (Decidable (∃ h ∈ _, _))
  | .unlock => inferInstanceAs (Decidable (∃ h ∈ _, _))

variable (E : Environment)

/-- The bytes that a `write()` takes. -/
def taken (h : Turn) : WriteResult → List UInt8
  | .accepted n => (h.send.buffer.drop h.totalSent).take n
  | _ => []

/-- `close_socket` follows the failure of a response; `src/IPC/octopus_ipc_socket.cpp:348–352`. -/
def closes (h : Turn) : WriteResult → Bool
  | .accepted _ => false
  | _ => h.send.kind = .response

/-- What a step does. -/
def apply (s : Writers) : Action → Writers
  | .request t clientFd data server =>
    { s with
      pending := Function.update s.pending t
        (sends (ipcServerHandleQuery E clientFd data server).effects) }
  | .push t msgGrp msgId data length server =>
    { s with
      pending := Function.update s.pending t
        (sends (ipcServerMcuMessageDataCallback E msgGrp msgId data length server).effects) }
  | .lock t =>
    match s.pending t with
    | send :: rest =>
      { s with
        pending := Function.update s.pending t rest
        serverMutex := some ⟨t, send, 0, false⟩
        acquired := s.acquired ++ [send] }
    | [] => s
  | .write result =>
    match s.serverMutex with
    | some h =>
      { s with
        serverMutex := some (h.afterWrite result)
        closed := Function.update s.closed h.send.fd
          (s.closed h.send.fd || closes h result)
        wire := Function.update s.wire h.send.fd (s.wire h.send.fd ++ taken h result) }
    | none => s
  | .unlock =>
    match s.serverMutex with
    | some h =>
      { s with
        serverMutex := none
        log := s.log ++ [(h.send, decide (h.send.buffer.length ≤ h.totalSent))] }
    | none => s

/-- The writing threads as a transition system. -/
def system : StepSystem Writers Action := StepSystem.ofCommands init Enabled (apply E)

/-! ### Responses are one byte long -/

/-- A response has one byte. -/
def OneByte (x : Send) : Prop := x.kind = .response → x.buffer.length = 1

/-- A send that an effect calls has one byte if it is a response. -/
def OneByteEffect (e : Effect) : Prop := ∀ x, e.send = some x → OneByte x

private theorem oneByte_response (fd r : Int) :
    OneByteEffect (.sendResponse fd (respBuffer [r])) := by
  intro x hx
  cases hx
  exact fun _ ↦ rfl

private theorem oneByte_buff (fd : Int) (b : List UInt8) : OneByteEffect (.sendBuff fd b) := by
  intro x hx
  cases hx
  exact fun h ↦ nomatch h

private theorem oneByte_of_none {e : Effect} (he : e.send = none) : OneByteEffect e := by
  intro x hx
  rw [he] at hx
  cases hx

variable {E}

private theorem oneByte_function (handler : Handler) (clientFd : Int) (m : DataMessage)
    (s : ServerState) : AllEffects OneByteEffect (handler.function E clientFd m) s := by
  have hread (index size : Nat) : OneByteEffect (.payloadRead index size) := oneByte_of_none rfl
  have hcall (call : OtsmCall) (pointer : FunctionPointer) :
      OneByteEffect (.otsmCall call pointer) := oneByte_of_none rfl
  have hcopy (target : OtsmFunction) (isNull : Bool) (data : List UInt8) (length : Nat) :
      OneByteEffect (.copyPayload target isNull data length) := oneByte_of_none rfl
  cases handler with
  | help => simp [Handler.function, allEffects_help, oneByte_response, hread]
  | config => simp [Handler.function, allEffects_config, oneByte_response, hread, hcall]
  | calculation => simp [Handler.function, allEffects_calculation, oneByte_response, hread]
  | car => simp [Handler.function, allEffects_car, hread, hcall, hcopy]
  | mcu =>
    simp [Handler.function, allEffects_mcu, allEffects_forwardMcuEvent, oneByte_buff, hcall]

private theorem oneByte_query (clientFd : Int) (data : List UInt8) (s : ServerState) :
    AllEffects OneByteEffect (ipcServerHandleQuery E clientFd data) s := by
  have hcall : AllEffects OneByteEffect (dispatch E clientFd
      (DataMessage.deserializeMessage data)) s :=
    (allEffects_dispatch ..).mpr ⟨oneByte_of_none rfl, oneByte_function _ _ _ _⟩
  rw [ipcServerHandleQuery, AllEffects.when_iff]
  intro _
  rw [AllEffects.bind_iff]
  exact ⟨hcall, (AllEffects.pure_iff _).mpr trivial⟩

private theorem oneByte_push (msgGrp msgId : UInt16) (data : Option Memory) (length : UInt16)
    (s : ServerState) :
    AllEffects OneByteEffect (ipcServerMcuMessageDataCallback E msgGrp msgId data length) s :=
  allEffects_mcuMessageDataCallback E (fun client s ↦ allEffects_notifyClient E
    (fun _ ↦ oneByte_of_none rfl) (fun fd _ _ _ _ _ ↦ oneByte_buff fd _) client msgGrp msgId data
    length s) s

private theorem oneByte_sends {effects : List Effect} (h : ∀ e ∈ effects, OneByteEffect e) :
    ∀ x ∈ sends effects, OneByte x := by
  intro x hx
  obtain ⟨e, he, hs⟩ := List.mem_filterMap.mp hx
  exact h e he x hs

/-! ### Whole buffers -/

/-- The whole buffers that reached a descriptor, in the order in which their sends took the
mutex. -/
def units (s : Writers) (fd : Int) : List UInt8 :=
  (s.log.filter fun p ↦ p.1.fd = fd ∧ p.2 = true).flatMap fun p ↦ p.1.buffer

/-- What the send inside the mutex wrote to a descriptor so far. -/
def inProgress (s : Writers) (fd : Int) : List UInt8 :=
  match s.serverMutex with
  | some h => if h.send.fd = fd then h.send.buffer.take h.totalSent else []
  | none => []

/-- Each descriptor got whole buffers in the order in which the mutex was taken, and a
beginning of the buffer that is being written; on descriptors that are not closed no send is
missing. -/
structure WritesUnits (s : Writers) : Prop where
  order : s.acquired = s.log.map Prod.fst ++ (s.serverMutex.map Turn.send).toList
  bytes : ∀ fd, s.wire fd = s.units fd ++ s.inProgress fd
  complete : ∀ p ∈ s.log, s.closed p.1.fd = false → p.2 = true

/-- Where the send inside the mutex can be. -/
structure TurnAt (s : Writers) (h : Turn) : Prop where
  oneByte : OneByte h.send
  within : h.totalSent ≤ h.send.buffer.length
  response : h.returned = false → h.send.kind = .response → h.totalSent = 0
  untouched : h.returned = false → s.closed h.send.fd = true → h.totalSent = 0
  allOrNothing : h.returned = true → h.totalSent = 0 ∨ h.totalSent = h.send.buffer.length
  full : h.returned = true → s.closed h.send.fd = false → h.totalSent = h.send.buffer.length

/-- What runs keep. -/
structure Inv (s : Writers) : Prop where
  pending : ∀ t, ∀ x ∈ s.pending t, OneByte x
  turn : ∀ h ∈ s.serverMutex, s.TurnAt h
  writes : s.WritesUnits

theorem inv_init : Inv init :=
  ⟨fun _ _ h ↦ (nomatch h), fun _ h ↦ (nomatch h), rfl, fun _ ↦ rfl, fun _ h ↦ (nomatch h)⟩

variable {s : Writers}

private theorem Inv.load (h : Inv s) (t : Nat) {xs : List Send} (hxs : ∀ x ∈ xs, OneByte x) :
    Inv { s with pending := Function.update s.pending t xs } where
  pending k x hx := by
    change x ∈ Function.update s.pending t xs k at hx
    rw [Function.update_apply] at hx
    split at hx
    · exact hxs x hx
    · exact h.pending k x hx
  turn g hg := ⟨(h.turn g hg).oneByte, (h.turn g hg).within, (h.turn g hg).response,
    (h.turn g hg).untouched, (h.turn g hg).allOrNothing, (h.turn g hg).full⟩
  writes := ⟨h.writes.order, h.writes.bytes, h.writes.complete⟩

private theorem apply_lock {t : Nat} {send : Send} {rest : List Send}
    (hp : s.pending t = send :: rest) :
    s.apply E (.lock t) = { s with
      pending := Function.update s.pending t rest
      serverMutex := some ⟨t, send, 0, false⟩
      acquired := s.acquired ++ [send] } := by
  simp only [apply, hp]

private theorem apply_write {h : Turn} (hm : s.serverMutex = some h) (result : WriteResult) :
    s.apply E (.write result) = { s with
      serverMutex := some (h.afterWrite result)
      closed := Function.update s.closed h.send.fd (s.closed h.send.fd || closes h result)
      wire := Function.update s.wire h.send.fd (s.wire h.send.fd ++ taken h result) } := by
  simp only [apply, hm]

private theorem apply_unlock {h : Turn} (hm : s.serverMutex = some h) :
    s.apply E .unlock = { s with
      serverMutex := none
      log := s.log ++ [(h.send, decide (h.send.buffer.length ≤ h.totalSent))] } := by
  simp only [apply, hm]

private theorem Inv.lock (h : Inv s) {t : Nat} (he : s.Enabled (.lock t)) :
    Inv (s.apply E (.lock t)) := by
  obtain ⟨hfree, hne⟩ := he
  obtain ⟨send, rest, hp⟩ := List.exists_cons_of_ne_nil hne
  have hone : ∀ x ∈ send :: rest, OneByte x := hp ▸ h.pending t
  have horder := h.writes.order
  have hbytes := h.writes.bytes
  simp only [hfree, inProgress] at horder hbytes
  rw [apply_lock hp]
  refine ⟨?_, fun g hg ↦ ?_, ?_, fun fd ↦ ?_, h.writes.complete⟩
  · exact (h.load t fun x hx ↦ hone x (List.mem_cons_of_mem _ hx)).pending
  · cases hg
    exact ⟨hone send List.mem_cons_self, Nat.zero_le _, fun _ _ ↦ rfl, fun _ _ ↦ rfl,
      fun hr ↦ (nomatch hr), fun hr ↦ (nomatch hr)⟩
  · simp [horder]
  · simp [hbytes fd, units, inProgress]

/-- What a `write()` takes comes behind what the send wrote before. -/
private theorem take_afterWrite {h : Turn} (result : WriteResult) :
    (h.send.buffer.take (h.afterWrite result).totalSent) =
      h.send.buffer.take h.totalSent ++ taken h result := by
  cases result with
  | accepted n => exact List.take_add
  | interrupted => exact (List.append_nil _).symm
  | wouldBlock => exact (List.append_nil _).symm
  | badDescriptor => exact (List.append_nil _).symm

@[simp] private theorem afterWrite_send (h : Turn) (result : WriteResult) :
    (h.afterWrite result).send = h.send := by
  cases result <;> rfl

/-- A `write()` leaves the send where it can be. -/
private theorem Inv.turn_write (h : Inv s) {g : Turn} (hm : s.serverMutex = some g)
    {result : WriteResult} (hw : g.Writing) (hr : s.CanReturn g result) :
    (s.apply E (.write result)).TurnAt (g.afterWrite result) := by
  have ht := h.turn g hm
  have hclosed : (s.apply E (.write result)).closed g.send.fd =
      (s.closed g.send.fd || closes g result) := by
    rw [apply_write hm]
    exact Function.update_self ..
  have hkind : g.send.kind = .response ∨ g.send.kind = .buff := by
    cases g.send.kind <;> simp
  have hone := ht.oneByte
  have hwithin := ht.within
  have hresponse := ht.response hw.1
  have huntouched := ht.untouched hw.1
  refine ⟨?_, ?_, ?_, ?_, ?_, ?_⟩ <;> cases result <;>
    simp only [Turn.afterWrite, CanReturn, closes, OneByte] at * <;> grind

private theorem Inv.write (h : Inv s) {result : WriteResult} (he : s.Enabled (.write result)) :
    Inv (s.apply E (.write result)) := by
  obtain ⟨g, hg, hw, hr⟩ := he
  have hmutex : s.serverMutex = some g := hg
  have hturn := h.turn_write (E := E) hmutex hw hr
  have horder := h.writes.order
  have hbytes := h.writes.bytes
  simp only [hmutex, inProgress] at horder hbytes
  rw [apply_write hmutex] at hturn ⊢
  refine ⟨h.pending, fun k hk ↦ ?_, ?_, fun fd ↦ ?_, fun p hp hc ↦ ?_⟩
  · cases hk
    exact hturn
  · simp [horder]
  · have hfd := hbytes fd
    simp only [inProgress, units, afterWrite_send, Function.update_apply] at hfd ⊢
    by_cases hk : g.send.fd = fd
    · subst hk
      simp [hfd, take_afterWrite]
    · simp [hfd, hk, Ne.symm hk]
  · refine h.writes.complete p hp ?_
    change Function.update s.closed g.send.fd _ p.1.fd = false at hc
    rw [Function.update_apply] at hc
    split at hc
    · next hk =>
      rw [hk]
      exact (Bool.or_eq_false_iff.mp hc).1
    · exact hc

private theorem Inv.unlock (h : Inv s) (he : s.Enabled .unlock) : Inv (s.apply E .unlock) := by
  obtain ⟨g, hg, hw⟩ := he
  have hmutex : s.serverMutex = some g := hg
  have ht := h.turn g hg
  have horder := h.writes.order
  have hbytes := h.writes.bytes
  -- the send was left by its return, or by the condition of the loop
  have hdone : g.totalSent = g.send.buffer.length ∨ g.totalSent = 0 ∧ g.returned = true := by
    have hwithin := ht.within
    have hall := ht.allOrNothing
    simp only [Turn.Writing] at hw
    grind
  simp only [hmutex, inProgress] at horder hbytes
  rw [apply_unlock hmutex]
  refine ⟨h.pending, fun k hk ↦ (nomatch hk), ?_, fun fd ↦ ?_, fun p hp hc ↦ ?_⟩
  · simp [horder]
  · rw [hbytes fd]
    by_cases hk : g.send.fd = fd
    · rcases hdone with hd | ⟨hd, -⟩
      · simp [units, inProgress, hk, hd]
      · by_cases hb : g.send.buffer = []
        · simp [units, inProgress, hk, hd, hb]
        · simp [units, inProgress, hk, hd, hb]
    · simp [units, inProgress, hk]
  · rcases List.mem_append.mp hp with hp | hp
    · exact h.writes.complete p hp hc
    · rw [List.mem_singleton.mp hp] at hc ⊢
      rcases hdone with hd | ⟨-, hret⟩
      · exact decide_eq_true (Nat.le_of_eq hd.symm)
      · exact decide_eq_true (Nat.le_of_eq (ht.full hret hc).symm)

/-- Every step keeps the invariant. -/
theorem Inv.step (h : Inv s) {a : Action} (he : s.Enabled a) : Inv (s.apply E a) := by
  cases a with
  | request t clientFd data server => exact h.load t (oneByte_sends (oneByte_query _ _ _))
  | push t msgGrp msgId data length server =>
    exact h.load t (oneByte_sends (oneByte_push _ _ _ _ _))
  | lock t => exact h.lock he
  | write result => exact h.write he
  | unlock => exact h.unlock he

/-- In every state that any interleaving of threads and any way of accepting the bytes
reaches, each descriptor got whole buffers in the order of the mutex. -/
theorem writesUnits_of_reachable (h : (system E).Reachable s) : WritesUnits s := by
  have hinv : Inv s :=
    StepSystem.ReachableUnder.invariant_of_commands inv_init (fun _ _ ht _ he ↦ ht.step he) h
  exact hinv.writes

/-- A push of a key event comes between two handler threads, and its frame is taken in pieces
with an interrupted call and one that would block. -/
def pushBetweenResponses : List Action :=
  let server := { ServerState.init with
    activeClients := ipcServerAddClient KeyedSet.empty 5 [] true }
  [.push 2 5 13 (some fun _ ↦ 9) 1 server,
    .request 0 5 [0xA5, 0xA5, 0, 0, 0, 0] server,
    .request 1 5 [0xA5, 0xA5, 3, 0, 0, 3, 1, 20, 22] server,
    .lock 0, .write (.accepted 1), .unlock,
    .lock 2, .write .interrupted, .write (.accepted 2), .write .wouldBlock,
    .write (.accepted 5), .unlock,
    .lock 1, .write (.accepted 1), .unlock]

theorem writesUnits_pushBetweenResponses :
    ∃ s, (system Environment.sample).run (fun _ _ ↦ True) init pushBetweenResponses = some s ∧
      s.wire 5 = [0, 0xA5, 0xA5, 5, 13, 0, 1, 9, 42] ∧ WritesUnits s := by
  have hrun : ∃ s, (system Environment.sample).run (fun _ _ ↦ True) init pushBetweenResponses =
      some s ∧ s.wire 5 = [0, 0xA5, 0xA5, 5, 13, 0, 1, 9, 42] := ⟨_, rfl, rfl⟩
  obtain ⟨s, hs, hwire⟩ := hrun
  exact ⟨s, hs, hwire, writesUnits_of_reachable (StepSystem.reachableUnder_of_run hs)⟩

end Writers
end OctopusIpc.Server

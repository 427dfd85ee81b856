import OctopusIpc.Client.SendApi
import OctopusIpc.Server.Replay

/-!
# From a client to the server and on to the MCU

The way of a command: a sending function of the client library transmits a frame, the server's
thread for the client takes what a query finds, handles it and, for the group that is passed
through, hands it to the library. The thread decodes one frame for each query, so a client has
to wait until its last frame is taken before it sends the next one.
-/

namespace OctopusIpc.System
open OctopusIpc.Protocol OctopusIpc.Server OctopusIpc.Client OctopusIpc.Socket Traced

/-! ### What is passed through -/

/-- What the library's function is given: group, id, payload and its length. -/
abbrev PassedThrough := UInt16 × UInt16 × Option (List UInt8) × UInt16

/-- What an effect passes to the MCU. -/
def passedThrough : Effect → Option PassedThrough
  | .otsmCall (.messageDataCallback param1 param2 data length) _ =>
    some (param1, param2, data, length)
  | _ => none

/-- What there is to pass to the MCU of a message: the whole of it, in one group. -/
def toPassThrough (header : OtsmHeader) (m : DataMessage) : Option PassedThrough :=
  if m.msgGroup.toNat = header.msgGroupPassthroughO then
    some (UInt16.ofNat m.msgGroup.toNat, UInt16.ofNat m.msgId.toNat,
      if m.data.isEmpty then none else some m.data, UInt16.ofNat m.data.length)
  else none

/-- The message of a request. -/
def requested : ServerInput → Option DataMessage
  | .request _ queryMsg => some queryMsg.val
  | .accept _ | .disconnect _ | .push _ _ _ _ => none

variable {E : Environment} {m : DataMessage} {clientFd : Int} {s : ServerState}

/-- A computation that passes nothing to the MCU. -/
private theorem passedThrough_of_allEffects {α : Type} {x : Handling α}
    (h : AllEffects (fun e ↦ passedThrough e = none) x s) :
    (x s).effects.filterMap passedThrough = [] :=
  List.filterMap_eq_nil_iff.mpr h

/-- What the first part of the MCU's handler passes on. -/
private theorem passedThrough_forwardMcuEvent
    (hpointer : E.pointer .messageDataCallbackFunc ≠ .null) :
    (forwardMcuEvent E m s).effects.filterMap passedThrough =
      (toPassThrough E.header m).toList := by
  unfold forwardMcuEvent ipcServerNotifyClientInforToMcu Traced.when toPassThrough
  split_ifs
  · rfl
  · rfl
  · rfl
  · rfl

/-- With the function missing nothing is passed on. -/
private theorem passedThrough_forwardMcuEvent_of_null
    (hpointer : E.pointer .messageDataCallbackFunc = .null) :
    (forwardMcuEvent E m s).effects.filterMap passedThrough = [] := by
  refine passedThrough_of_allEffects ?_
  rw [allEffects_forwardMcuEvent]
  exact ⟨fun _ h ↦ absurd hpointer h, fun _ _ _ ↦ rfl⟩

/-- The handlers but the MCU's pass nothing on. -/
private theorem passedThrough_function {handler : Handler} (h : handler ≠ .mcu) :
    ((handler.function E clientFd m) s).effects.filterMap passedThrough = [] := by
  refine passedThrough_of_allEffects ?_
  cases handler with
  | help => simp [Handler.function, allEffects_help, passedThrough]
  | config => simp [Handler.function, allEffects_config, passedThrough]
  | calculation => simp [Handler.function, allEffects_calculation, passedThrough]
  | car => simp [Handler.function, allEffects_car, passedThrough]
  | mcu => exact absurd rfl h

/-- The MCU's handler passes on what its first part does. -/
private theorem passedThrough_mcu :
    (ipcServerHandleMcuEvent E clientFd m s).effects.filterMap passedThrough =
      (forwardMcuEvent E m s).effects.filterMap passedThrough := by
  have hanswer : AllEffects (fun e ↦ passedThrough e = none)
      (Traced.when (m.msgId.toNat = E.header.msgIpcCmdMcuVersion)
        (ipcServerNotifyMcuInforToClient E clientFd m.msgGroup.toNat m.msgId.toNat none 0)) s := by
    rw [AllEffects.when_iff]
    intro _
    rw [allEffects_notifyMcuInfor]
    simp [passedThrough]
  have hparts : (ipcServerHandleMcuEvent E clientFd m s).effects =
      (forwardMcuEvent E m s).effects ++ ((Traced.when
        (m.msgId.toNat = E.header.msgIpcCmdMcuVersion)
        (ipcServerNotifyMcuInforToClient E clientFd m.msgGroup.toNat m.msgId.toNat none 0))
          s).effects := by
    simp [ipcServerHandleMcuEvent]
  rw [hparts, List.filterMap_append, passedThrough_of_allEffects hanswer, List.append_nil]

/-- A message passes itself on if it is in the group and the function is there. -/
private theorem passedThrough_dispatch :
    (dispatch E clientFd m s).effects.filterMap passedThrough =
      if E.pointer .messageDataCallbackFunc = .null then []
      else (toPassThrough E.header m).toList := by
  have hmcu := selectHandler_eq_mcu_iff E.header m.msgGroup
  have hcalled (handler : Handler) : (callHandler E handler clientFd m s).effects =
      .handlerCall handler clientFd m :: (handler.function E clientFd m s).effects := rfl
  rw [dispatch, hcalled, List.filterMap_cons_none rfl]
  by_cases hselect : selectHandler E.header m.msgGroup = .mcu
  · rw [hselect, Handler.function, passedThrough_mcu]
    split_ifs with hpointer
    · exact passedThrough_forwardMcuEvent_of_null hpointer
    · exact passedThrough_forwardMcuEvent hpointer
  · have hgroup : m.msgGroup.toNat ≠ E.header.msgGroupPassthroughO :=
      fun h ↦ hselect (hmcu.mpr (Or.inr h))
    rw [passedThrough_function hselect, toPassThrough, if_neg hgroup]
    split_ifs
    · rfl
    · rfl

/-- What an input passes on. -/
private theorem passedThrough_handleServerInput (input : ServerInput) :
    (handleServerInput E input s).effects.filterMap passedThrough =
      if E.pointer .messageDataCallbackFunc = .null then []
      else ((requested input).bind (toPassThrough E.header)).toList := by
  cases input with
  | accept fd => simp [handleServerInput, requested]
  | disconnect fd => simp [handleServerInput, ipcServerCleanup, requested, passedThrough]
  | request clientFd queryMsg =>
    simpa [handleServerInput, requested] using passedThrough_dispatch
  | push msgGrp msgId data length =>
    have hpush : AllEffects (fun e ↦ passedThrough e = none)
        (ipcServerMcuMessageDataCallback E msgGrp msgId data length) s := by
      refine allEffects_mcuMessageDataCallback E (fun client t ↦ ?_) s
      exact allEffects_notifyClient E (fun _ ↦ rfl) (fun _ _ _ _ _ _ ↦ rfl) client msgGrp msgId
        data length t
    rw [handleServerInput, passedThrough_of_allEffects hpush]
    simp [requested]

/-- Whatever the server goes through, in whatever state, the library is passed exactly the
messages in the group that is passed through, in order, each once and with all of its payload,
if its function is there, and nothing otherwise. -/
theorem passedThrough_of_inputs (inputs : List ServerInput) (s : ServerState) :
    (inputs.forM (handleServerInput E) s).effects.filterMap passedThrough =
      if E.pointer .messageDataCallbackFunc = .null then []
      else (inputs.filterMap requested).filterMap (toPassThrough E.header) := by
  induction inputs generalizing s with
  | nil => simp
  | cons input inputs ih =>
    have hcons : (input :: inputs).forM (handleServerInput E) =
        handleServerInput E input >>= fun _ ↦ inputs.forM (handleServerInput E) := rfl
    rw [hcons, bind_apply, List.filterMap_append, passedThrough_handleServerInput, ih]
    split_ifs
    · rfl
    · cases hr : requested input with
      | none => simp [hr]
      | some m => cases hp : toPassThrough E.header m <;> simp [hr, hp]

/-! ### A client that waits -/

/-- Group, id and payload of a message. -/
def content (m : DataMessage) : UInt8 × UInt8 × List UInt8 := (m.msgGroup, m.msgId, m.data)

/-- What a call transmits that keeps the length is the frame of a valid message with what the
caller gave. -/
theorem exists_frame_of_transmitted {socketClient : Nat → Int}
    (hlive : SendCall.Live socketClient) {call : SendCall} (hbuffer : call.BufferOfSize)
    (hkeeps : call.KeepsLength) {bytes : List UInt8}
    (h : call.transmitted socketClient = some bytes) :
    ∃ m : ValidMessage, bytes = frameCode.encode m ∧ content m.val = call.given := by
  have hvalid {group id : UInt8} {payload : List UInt8} (hl : payload.length < 65536) :
      (DataMessage.ofPayload group id payload).isValid = true :=
    (SendCall.isValid_ofPayload_iff group id payload).mpr hl
  cases call with
  | query group msg queryArray =>
    unfold SendCall.transmitted ipcAppSendQuery clientSendQuery at h
    split_ifs at h
    cases h
    exact ⟨⟨_, hvalid hkeeps⟩, rfl, rfl⟩
  | command group msg parameters =>
    have hnone : parameters = [] := hkeeps
    subst hnone
    unfold SendCall.transmitted ipcAppSendCommand clientSendQuery at h
    split_ifs at h
    cases h
    exact ⟨⟨DataMessage.ofPayload group msg [], rfl⟩, rfl, rfl⟩
  | messageQueue group msgId messageData messageSize =>
    cases messageData with
    | none => cases h
    | some payload =>
      unfold SendCall.transmitted ipcSendMessageQueue at h
      dsimp only at h
      split_ifs at h with hneg
      have hlength : payload.length = messageSize.toNat := hbuffer (Int.not_lt.mp hneg)
      have hsize : messageSize < 65536 := hkeeps (Option.some_ne_none payload)
      rw [hlive.delayedSend, ← hlength, List.take_length] at h
      cases h
      exact ⟨⟨_, hvalid (by omega)⟩, rfl, rfl⟩

/-- The server, one connection, and what has become of the commands sent on it. -/
structure Uplink where
  server : ServerState
  /-- What the caller gave with each call that transmitted something. -/
  given : List (UInt8 × UInt8 × List UInt8)
  /-- The bytes that are transmitted and not yet read. -/
  inFlight : List UInt8
  /-- The messages read from the connection and handed to a handler. -/
  handled : List DataMessage

/-- What happens. -/
inductive UplinkAction where
  /-- The client calls a sending function. -/
  | send (call : SendCall)
  /-- A query of the client's thread finds data and handles it. -/
  | query
  /-- The server does something else. -/
  | serve (input : ServerInput)

namespace Uplink

variable (E : Environment) (fd : Int) (socketFd : Nat)

/-- The frame of a call is written to the connection. -/
def send (t : Uplink) (call : SendCall) : Uplink :=
  match call.transmitted fun _ ↦ socketFd with
  | none => t
  | some bytes => { t with given := t.given ++ [call.given], inFlight := t.inFlight ++ bytes }

/-- A query reads as much as its buffer takes; `src/IPC/octopus_ipc_socket.cpp:255–287`. -/
def query (t : Uplink) : Uplink :=
  let result := ipcServerHandleQuery E fd (t.inFlight.take bufferSize) t.server
  { t with
    server := result.state
    inFlight := t.inFlight.drop bufferSize
    handled := t.handled ++ handledMessages result.effects }

/-- When an action can happen: a query finds data only if there is some, and requests of this
client come with its queries. -/
def Enabled (t : Uplink) : UplinkAction → Prop
  | .send _ => True
  | .query => t.inFlight ≠ []
  | .serve (.request clientFd _) => clientFd ≠ fd
  | .serve input => input.Possible t.server

instance (t : Uplink) : (a : UplinkAction) → Decidable (t.Enabled fd a)
  | .send _ => inferInstanceAs (Decidable True)
  | .query => inferInstanceAs (Decidable (¬ _ = _))
  | .serve (.request _ _) => inferInstanceAs (Decidable (¬ _ = _))
  | .serve (.accept fd') => inferInstanceAs (Decidable ((ServerInput.accept fd').Possible t.server))
  | .serve (.disconnect _) | .serve (.push _ _ _ _) => inferInstanceAs (Decidable True)

/-- What an action does. -/
def apply (t : Uplink) : UplinkAction → Uplink
  | .send call => t.send socketFd call
  | .query => t.query E fd
  | .serve input => { t with server := (handleServerInput E input t.server).state }

/-- The connection among all that the server does. -/
def system : StepSystem Uplink UplinkAction :=
  StepSystem.ofCommands ⟨ServerState.init, [], [], []⟩ (Enabled fd) (apply E fd socketFd)

/-- A client calls only when its last frame has been taken, and with what makes a frame that
fits into the buffer of a query. -/
def Waits (t : Uplink) : UplinkAction → Prop
  | .send call => t.inFlight = [] ∧ call.BufferOfSize ∧ call.KeepsLength ∧
      6 + call.given.2.2.length ≤ bufferSize
  | .query | .serve _ => True

/-- The commands were handled from the first on, each once, in order and as they were given,
but for the one whose frame is on the way. -/
def HandlesInOrder (t : Uplink) : Prop :=
  ∃ rest : Option ValidMessage,
    t.given = t.handled.map content ++ rest.toList.map (fun m ↦ content m.val) ∧
      t.inFlight = frameCode.stream rest.toList

variable {E fd socketFd} {t t' : Uplink}

/-- The frame on the way fits into the buffer of a query. -/
def Inv (t : Uplink) : Prop := t.HandlesInOrder ∧ t.inFlight.length ≤ bufferSize

theorem inv_init : Inv ⟨ServerState.init, [], [], []⟩ := ⟨⟨none, rfl, rfl⟩, Nat.zero_le _⟩

private theorem Inv.send (h : Inv t) {call : SendCall} (hg : t.Waits (.send call)) :
    Inv (t.send socketFd call) := by
  obtain ⟨⟨rest, hgiven, hflight⟩, -⟩ := h
  obtain ⟨hempty, hbuffer, hkeeps, hfits⟩ := hg
  have hlive : SendCall.Live fun _ ↦ (socketFd : Int) := fun _ ↦ Int.natCast_nonneg socketFd
  have hnone : rest.toList = [] := by
    have hstream : frameCode.stream rest.toList = frameCode.stream [] := hflight.symm.trans hempty
    exact frameCode.stream_injective hstream
  rw [hnone, List.map_nil, List.append_nil] at hgiven
  unfold Uplink.send
  cases hsent : call.transmitted fun _ ↦ (socketFd : Int) with
  | none =>
    refine ⟨⟨none, ?_, hempty⟩, ?_⟩
    · exact hgiven.trans (List.append_nil _).symm
    · rw [hempty]
      exact Nat.zero_le _
  | some bytes =>
    obtain ⟨m, rfl, hcontent⟩ := exists_frame_of_transmitted hlive hbuffer hkeeps hsent
    have hpayload : m.val.data = call.given.2.2 := congrArg (fun c ↦ c.2.2) hcontent
    refine ⟨⟨some m, ?_, ?_⟩, ?_⟩
    · simp only [hgiven, Option.toList_some, List.map_singleton, hcontent]
    · simp only [hempty, List.nil_append, Option.toList_some, frameCode.stream_cons,
        frameCode.stream_nil, List.append_nil]
    · simp only [hempty, List.nil_append, frameCode_encode, DataMessage.length_serializeMessage,
        DataMessage.getTotalLength, hpayload]
      exact hfits

/-- What a query does with the frame on the way: it is taken and handled. -/
private theorem query_of_inv (h : Inv t) (he : t.inFlight ≠ []) :
    (t.query E fd).handled.map content = t.given ∧ (t.query E fd).inFlight = [] := by
  obtain ⟨⟨rest, hgiven, hflight⟩, hfits⟩ := h
  cases rest with
  | none => exact absurd hflight he
  | some m =>
    have hframe : t.inFlight = m.val.serializeMessage := by
      rw [hflight, Option.toList_some, frameCode.stream_cons, frameCode.stream_nil,
        List.append_nil, frameCode_encode]
    have hlong : 6 ≤ t.inFlight.length := hframe ▸ m.val.base_le_length_serializeMessage
    have hdecoded : decodeValid t.inFlight = some m :=
      (decodeValid_eq_some_iff hlong m).mpr (hframe ▸ List.prefix_refl _)
    have hhandled : handledMessages (ipcServerHandleQuery E fd t.inFlight t.server).effects =
        [m.val] := handledMessages_of_valid E hdecoded
    refine ⟨?_, List.drop_of_length_le hfits⟩
    simp only [Uplink.query, List.take_of_length_le hfits, hhandled, hgiven, List.map_append,
      Option.toList_some, List.map_singleton]

private theorem Inv.query (h : Inv t) (he : t.inFlight ≠ []) : Inv (t.query E fd) := by
  have hquery : (t.query E fd).handled.map content = t.given ∧ (t.query E fd).inFlight = [] :=
    query_of_inv h he
  obtain ⟨hhandled, hempty⟩ := hquery
  refine ⟨⟨none, ?_, hempty⟩, ?_⟩
  · rw [hhandled]
    exact (List.append_nil _).symm
  · rw [hempty]
    exact Nat.zero_le _

theorem inv_of_waits (h : (system E fd socketFd).ReachableUnder Waits t) : Inv t := by
  refine h.invariant_of_commands (I := Inv) inv_init fun s a hs hg he ↦ ?_
  cases a with
  | send call => exact hs.send hg
  | query => exact hs.query he
  | serve input => exact hs

/-- The next query takes what is on the way, and with it every command has been handled. -/
def HandledNext (E : Environment) (fd : Int) (socketFd : Nat) (t : Uplink) : Prop :=
  t.inFlight ≠ [] → ∃ t', (system E fd socketFd).step t .query = some t' ∧
    t'.given = t.given ∧ t'.handled.map content = t.given ∧ t'.inFlight = []

end Uplink
end OctopusIpc.System

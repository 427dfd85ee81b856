import OctopusIpc.Base.StepSystem
import OctopusIpc.Cli.Arguments
import OctopusIpc.Server.Initialization
import OctopusIpc.Server.PayloadSafety
import OctopusIpc.Server.WireFormat

/-!
# The answer to a command

One run of the command line client against the server: the server accepts the connection and
subscribes it to pushes, a thread handles the client's message, the library calls the push
callback whenever it likes, and the client reads once. Each call of a writer is one step, and
the read returns whatever is there.
-/

namespace OctopusIpc.Cli
open OctopusIpc.Protocol OctopusIpc.Server OctopusIpc.Socket Traced

/-! ### What a message is answered with -/

variable (E : Environment) (fd : Int) (m : DataMessage)

/-- The bytes that handling the message writes to its sender, one list for each writer call. -/
def answerUnits (s : ServerState) : List (List UInt8) := unitsTo fd (dispatch E fd m s).effects

/-- The client's buffer holds all of it, and there is something to read. -/
def FitsResponse (b : List UInt8) : Prop := b ≠ [] ∧ b.length ≤ bufferSize

/-- The handler of the message answers: that of the car never does, and that of the MCU only
with the version, if the library has it and the frame fits. -/
def IsAnswered (s : ServerState) : Prop :=
  match selectHandler E.header m.msgGroup with
  | .help | .config | .calculation => True
  | .car => False
  | .mcu =>
    m.msgId.toNat = E.header.msgIpcCmdMcuVersion ∧ E.pointer .getMcuFlashMetaInfor ≠ .null ∧
      (E.info s.answers .getMcuFlashMetaInfor).isSome = true ∧
      6 + E.header.sizeofFlashMetaInfor ≤ bufferSize

instance (s : ServerState) : Decidable (IsAnswered E m s) := by
  unfold IsAnswered
  split <;> infer_instance

/-- The handler calls the library through usable pointers only. -/
def CallsUsable : Prop :=
  (∀ f ∈ calledUntested E.header m, E.pointer f = .loaded) ∧
    ∀ f ∈ calledIfSet E.header m, E.pointer f ≠ .closed

instance : Decidable (CallsUsable E m) := inferInstanceAs (Decidable (_ ∧ _))

instance : (e : Effect) → Decidable e.Usable
  | .otsmCall _ _ => inferInstanceAs (Decidable (_ = _))
  | .handlerCall _ _ _ | .payloadRead _ _ | .copyPayload _ _ _ _ | .sendResponse _ _
  | .sendBuff _ _ | .close _ => inferInstanceAs (Decidable True)

/-- The handler gets to its end: it calls nothing through an unusable pointer, reads nothing
behind its payload and copies nothing where no structure is. -/
def Survives (s : ServerState) : Prop :=
  ∀ e ∈ (dispatch E fd m s).effects, e.Usable ∧ e.AccessOk

instance (s : ServerState) : Decidable (Survives E fd m s) :=
  inferInstanceAs (Decidable (∀ e ∈ _, _ ∧ _))

variable {E fd m} {s : ServerState} {α β : Type}

/-- The server gets through a message that is answered exactly if the calls are usable and it is
not a push delay without its byte. -/
theorem survives_iff (h : IsAnswered E m s) :
    Survives E fd m s ↔ CallsUsable E m ∧ ¬ ReadsBehindEnd E m := by
  have hcar : m.msgGroup.toNat ≠ E.header.msgGroupCar := by
    intro hgroup
    have hselect := (selectHandler_eq_car_iff E.header m.msgGroup).mpr hgroup
    simp only [IsAnswered, hselect] at h
  have husable : AllEffects Effect.Usable (dispatch E fd m) s ↔ CallsUsable E m :=
    usable_dispatch_iff fd m s
  have haccess : AllEffects Effect.AccessOk (dispatch E fd m) s ↔ ¬ ReadsBehindEnd E m :=
    accessOk_dispatch_iff fd m s hcar
  rw [← husable, ← haccess]
  exact ⟨fun hall ↦ ⟨fun e he ↦ (hall e he).1, fun e he ↦ (hall e he).2⟩,
    fun hboth e he ↦ ⟨hboth.1 e he, hboth.2 e he⟩⟩

theorem unitsTo_append (es es' : List Effect) :
    unitsTo fd (es ++ es') = unitsTo fd es ++ unitsTo fd es' := List.filterMap_append

/-- A computation that writes nothing to the client. -/
def Quiet (fd : Int) (x : Handling α) (s : ServerState) : Prop :=
  AllEffects (fun e ↦ e.unitTo fd = none) x s

theorem Quiet.unitsTo {x : Handling α} (h : Quiet fd x s) : unitsTo fd (x s).effects = [] :=
  List.filterMap_eq_nil_iff.mpr h

/-- What comes before an answer may be quiet. -/
theorem unitsTo_bind {x : Handling α} {f : α → Handling β} (h : Quiet fd x s) :
    Server.unitsTo fd ((x >>= f) s).effects =
      Server.unitsTo fd (f (x s).value (x s).state).effects := by
  rw [bind_apply, unitsTo_append, h.unitsTo, List.nil_append]

/-- A response as the last effect is what is written. -/
theorem unitsTo_sendResponse (respVector : List Int) (value : α) :
    Server.unitsTo fd ((sendResponse fd respVector >>= fun _ ↦ pure value) s).effects =
      [respBuffer respVector] := by
  simp [sendResponse, Server.unitsTo, Effect.unitTo]

theorem unitsTo_bind_pure {x : Handling α} (value : β) :
    Server.unitsTo fd ((x >>= fun _ ↦ pure value) s).effects = Server.unitsTo fd (x s).effects := by
  rw [bind_apply, pure_apply, List.append_nil]

theorem answerUnits_eq (s : ServerState) :
    answerUnits E fd m s =
      Server.unitsTo fd
        (((selectHandler E.header m.msgGroup).function E fd m) s).effects := by
  rw [answerUnits, dispatch, callHandler]
  exact unitsTo_bind (s := s) (by simp [Quiet, Effect.unitTo])

private theorem quiet_calculate (data : List UInt8) : Quiet fd (calculate E data) s := by
  simp [Quiet, Effect.unitTo]

private theorem quiet_forwardMcuEvent : Quiet fd (forwardMcuEvent E m) s := by
  simp [Quiet, allEffects_forwardMcuEvent, Effect.unitTo]

/-- A help request is answered with one byte. -/
theorem units_help (s : ServerState) :
    Server.unitsTo fd (ipcServerHandleHelpEvent E fd m s).effects =
      [respBuffer [E.header.msgGroupHelp]] := by
  rw [ipcServerHandleHelpEvent]
  rw [unitsTo_bind (by simp [Quiet, helpDebug, AllEffects.ite_iff, Effect.unitTo])]
  rw [unitsTo_bind (by simp [Quiet])]
  exact unitsTo_sendResponse _ _

/-- So is a configuration command. -/
theorem units_config (s : ServerState) :
    Server.unitsTo fd (ipcServerHandleConfigEvent E fd m s).effects =
      [respBuffer [E.header.msgGroupSet]] := by
  rw [ipcServerHandleConfigEvent]
  rw [unitsTo_bind (by simp [Quiet, configTarget, AllEffects.ite_iff, Effect.unitTo])]
  rw [unitsTo_bind (by
    simp [Quiet, configure, configFlag, configActive, AllEffects.ite_iff, Effect.unitTo])]
  exact unitsTo_sendResponse _ _

/-- And a calculation. -/
theorem units_calculation (s : ServerState) :
    ∃ r, Server.unitsTo fd (ipcServerHandleCalculationEvent E fd m s).effects =
      [respBuffer [r]] := by
  rw [ipcServerHandleCalculationEvent]
  split
  · exact ⟨-1, unitsTo_sendResponse _ _⟩
  · rw [unitsTo_bind (quiet_calculate m.data)]
    exact ⟨_, unitsTo_sendResponse _ _⟩

/-- A command for the car is not answered. -/
theorem units_car (s : ServerState) :
    Server.unitsTo fd (ipcServerHandleCarEvent E fd m s).effects = [] := by
  refine Quiet.unitsTo ?_
  simp [Quiet, allEffects_car, Effect.unitTo]

/-- A structure is sent as one unit, and nothing if there is none. -/
theorem units_sendMessageToClient (msgGrp msgId size : Nat) (tInfo : Option Memory)
    (s : ServerState) :
    Server.unitsTo fd (ipcServerSendMessageToClient fd msgGrp msgId tInfo size s).effects =
      tInfo.toList.map fun memory ↦ (infoMessage msgGrp msgId memory size).serializeMessage := by
  cases tInfo with
  | none => rfl
  | some memory => exact List.filterMap_cons_some (if_pos rfl)

/-- A message for the MCU is answered with the frame of the version if it asks for it and the
library has it. -/
theorem units_mcu (s : ServerState) :
    Server.unitsTo fd (ipcServerHandleMcuEvent E fd m s).effects =
      if m.msgId.toNat = E.header.msgIpcCmdMcuVersion ∧
          E.pointer .getMcuFlashMetaInfor ≠ .null then
        (E.info s.answers .getMcuFlashMetaInfor).toList.map fun memory ↦
          (infoMessage m.msgGroup.toNat m.msgId.toNat memory
            E.header.sizeofFlashMetaInfor).serializeMessage
      else [] := by
  have hne : E.header.msgIpcCmdMcuVersion ≠ E.header.msgIpcCmdMcuUpdating := by
    have hinfos := E.header.mcuInfos_nodup
    grind
  rw [ipcServerHandleMcuEvent, unitsTo_bind quiet_forwardMcuEvent, forwardMcuEvent_state,
    unitsTo_bind_pure, Traced.when]
  split
  · next hv =>
    rw [ipcServerNotifyMcuInforToClient, hv, if_neg hne, if_pos rfl, Traced.when]
    split
    · next hp =>
      rw [unitsTo_bind (by simp [Quiet, Effect.unitTo]), askOtsm_value, if_pos ⟨rfl, hp⟩]
      exact units_sendMessageToClient _ _ _ _ _
    · next hp =>
      rw [if_neg fun h ↦ hp h.2]
      rfl
  · next hv =>
    rw [if_neg fun h ↦ hv h.1]
    rfl

theorem length_infoMessage (msgGrp msgId size : Nat) (memory : Memory) :
    (infoMessage msgGrp msgId memory size).serializeMessage.length = 6 + size := by
  rw [DataMessage.length_serializeMessage, DataMessage.getTotalLength, infoMessage,
    List.length_map, List.length_range]

private theorem fitsResponse_oneByte (r : Int) : FitsResponse (respBuffer [r]) :=
  ⟨nofun, Nat.succ_le_of_lt (Nat.zero_lt_succ 254)⟩

/-- A message is answered exactly when its handler writes one response that fits. -/
theorem isAnswered_iff (s : ServerState) :
    IsAnswered E m s ↔ ∃ b, answerUnits E fd m s = [b] ∧ FitsResponse b := by
  rw [answerUnits_eq, IsAnswered]
  cases selectHandler E.header m.msgGroup with
  | help => exact iff_of_true trivial ⟨_, units_help s, fitsResponse_oneByte _⟩
  | config => exact iff_of_true trivial ⟨_, units_config s, fitsResponse_oneByte _⟩
  | calculation =>
    obtain ⟨r, hr⟩ : ∃ r, Server.unitsTo fd (ipcServerHandleCalculationEvent E fd m s).effects =
      [respBuffer [r]] := units_calculation s
    exact iff_of_true trivial ⟨_, hr, fitsResponse_oneByte r⟩
  | car =>
    simp only [Handler.function, units_car]
    refine iff_of_false id ?_
    rintro ⟨b, ⟨⟩, -⟩
  | mcu =>
    simp only [Handler.function, units_mcu]
    by_cases hv : m.msgId.toNat = E.header.msgIpcCmdMcuVersion ∧
        E.pointer .getMcuFlashMetaInfor ≠ .null
    · rw [if_pos hv]
      cases E.info s.answers .getMcuFlashMetaInfor with
      | none =>
        refine iff_of_false ?_ ?_
        · rintro ⟨-, -, ⟨⟩, -⟩
        · rintro ⟨b, ⟨⟩, -⟩
      | some memory =>
        have hlength := length_infoMessage m.msgGroup.toNat m.msgId.toNat
          E.header.sizeofFlashMetaInfor memory
        constructor
        · rintro ⟨-, -, -, hsize⟩
          refine ⟨_, rfl, fun hnil ↦ ?_, hlength ▸ hsize⟩
          have hzero : 6 + E.header.sizeofFlashMetaInfor = 0 :=
            hlength.symm.trans (congrArg List.length hnil)
          omega
        · rintro ⟨b, hb, -, hsize⟩
          cases hb
          exact ⟨hv.1, hv.2, rfl, hlength ▸ hsize⟩
    · rw [if_neg hv]
      refine iff_of_false (fun h ↦ hv ⟨h.1, h.2.1⟩) ?_
      rintro ⟨b, ⟨⟩, -⟩

/-! ### The exchange -/

/-- Where the server is with the client. -/
inductive ServerPlace where
  /-- Before it accepts the connection. -/
  | listening
  /-- Before it reads the message. -/
  | serving
  /-- In the handler of the message. -/
  | answering
  /-- The handler has returned. -/
  | done
  /-- Died in the handler. -/
  | crashed
  deriving DecidableEq, Repr

/-- The server and the client, with the bytes that the writers still have for the client's
descriptor and those that the client has not read. For the specification it also carries
what the handler has written. -/
structure Exchange where
  server : ServerState
  place : ServerPlace
  asked : Bool
  pushing : List (List UInt8)
  answering : List (List UInt8)
  inbox : List UInt8
  answer : Option (List UInt8)
  received : Option (List UInt8)

/-- The steps. -/
inductive ExchangeAction where
  /-- `src/IPC/octopus_ipc_server.cpp:1017–1040`. -/
  | accept
  /-- The client sends its message; `src/IPC/octopus_ipc_client.cpp:159`. -/
  | ask
  /-- The message is read, decoded and dispatched; `src/IPC/octopus_ipc_server.cpp:395–436`. -/
  | handle
  /-- A writer call of the handler. -/
  | respond
  /-- The handler returns. -/
  | finish
  /-- The library calls the push callback; `src/IPC/octopus_ipc_server.cpp:266–304`. -/
  | push (msgGrp msgId : UInt16) (data : Option Memory) (length : UInt16)
  /-- A writer call of the callback for this client. -/
  | writePush
  /-- Other threads of the server change its variables. -/
  | others (server : ServerState)
  /-- The one `get_response`; `src/IPC/octopus_ipc_socket.cpp:487–502`. -/
  | read

namespace Exchange

/-- The client has not connected yet. -/
def init (server : ServerState) : Exchange := ⟨server, .listening, false, [], [], [], none, none⟩

variable (E : Environment) (fd : Int) (m : DataMessage)

/-- When a step can be taken. The callback is registered only with the library loaded, and
the message is decoded if it comes whole in one read. -/
def Enabled (s : Exchange) : ExchangeAction → Prop
  | .accept => s.place = .listening
  | .ask => s.asked = false
  | .handle =>
    s.place = .serving ∧ s.asked = true ∧ m.isValid = true ∧
      m.serializeMessage.length ≤ bufferSize
  | .respond => s.place = .answering ∧ s.answering ≠ []
  | .finish => s.place = .answering ∧ s.answering = []
  | .push _ _ _ _ => s.place ≠ .crashed ∧ ∀ p ∈ otsmSymbols, E.pointer p.1 = .loaded
  | .writePush => s.place ≠ .crashed ∧ s.pushing ≠ []
  | .others _ => s.place ≠ .crashed
  | .read => s.asked = true ∧ s.received = none ∧ (s.inbox ≠ [] ∨ s.place = .crashed)

instance (s : Exchange) : (a : ExchangeAction) → Decidable (s.Enabled E m a)
  | .accept => inferInstanceAs (Decidable (_ = _))
  | .ask => inferInstanceAs (Decidable (_ = _))
  | .handle => inferInstanceAs (Decidable (_ ∧ _ ∧ _ ∧ _))
  | .respond => inferInstanceAs (Decidable (_ ∧ _))
  | .finish => inferInstanceAs (Decidable (_ ∧ _))
  | .push _ _ _ _ => inferInstanceAs (Decidable (_ ∧ ∀ p ∈ otsmSymbols, _))
  | .writePush => inferInstanceAs (Decidable (_ ∧ _))
  | .others _ => inferInstanceAs (Decidable (_ ≠ _))
  | .read => inferInstanceAs (Decidable (_ ∧ _ ∧ _))

/-- The message in its handler. -/
def handle (s : Exchange) : Exchange :=
  if Survives E fd m s.server then
    { s with
      server := (dispatch E fd m s.server).state
      place := .answering
      answering := answerUnits E fd m s.server }
  else { s with place := .crashed }

/-- A writer call of the handler. -/
def respond (s : Exchange) : Exchange :=
  match s.answering with
  | [] => s
  | b :: rest => { s with inbox := s.inbox ++ b, answering := rest, answer := some b }

/-- A writer call of the callback. -/
def writePush (s : Exchange) : Exchange :=
  match s.pushing with
  | [] => s
  | b :: rest => { s with inbox := s.inbox ++ b, pushing := rest }

/-- What a step does. -/
def apply (s : Exchange) : ExchangeAction → Exchange
  | .accept =>
    { s with
      server := { s.server with
        activeClients := ipcServerAddClient s.server.activeClients fd [] true }
      place := .serving }
  | .ask => { s with asked := true }
  | .handle => s.handle E fd m
  | .respond => s.respond
  | .finish => { s with place := .done }
  | .push msgGrp msgId data length =>
    let r := ipcServerMcuMessageDataCallback E msgGrp msgId data length s.server
    { s with server := r.state, pushing := s.pushing ++ unitsTo fd r.effects }
  | .writePush => s.writePush
  | .others server => { s with server := server }
  | .read =>
    { s with
      received := some (s.inbox.take bufferSize)
      inbox := s.inbox.drop bufferSize }

/-- The exchange as a transition system. -/
def system (server : ServerState) : StepSystem Exchange ExchangeAction :=
  StepSystem.ofCommands (init server) (Enabled E m) (apply E fd m)

/-- The handler of the message, when it has returned, has written a response, and what the
client has read is that response. -/
def ReadsOwnAnswer (s : Exchange) : Prop :=
  s.place ≠ .crashed ∧ (s.place = .done → s.answer.isSome = true) ∧
    ∀ b, s.received = some b → s.answer = some b

/-- The message is one that is answered when its handler is called and that the handler gets
through, and no pushed frame is written to the client before the client has read. -/
def Undisturbed (s : Exchange) : ExchangeAction → Prop
  | .handle => (CallsUsable E m ∧ ¬ ReadsBehindEnd E m) ∧ IsAnswered E m s.server
  | .writePush => s.received ≠ none
  | _ => True

instance (s : Exchange) : (a : ExchangeAction) → Decidable (s.Undisturbed E m a)
  | .handle => inferInstanceAs (Decidable (_ ∧ _))
  | .writePush => inferInstanceAs (Decidable (_ ≠ _))
  | .accept | .ask | .respond | .finish | .push _ _ _ _ | .others _ | .read =>
    inferInstanceAs (Decidable True)

/-- Nothing has been written to the client. -/
def Silent (s : Exchange) : Prop := s.inbox = [] ∧ s.answer = none ∧ s.received = none

/-- The answer has been written, and is there or has been read. -/
def Delivered (s : Exchange) : Prop :=
  ∃ b, FitsResponse b ∧ s.answer = some b ∧
    (s.received = none ∧ s.inbox = b ∨ s.received = some b)

/-- What holds at each place of the server. -/
def AnswerOk (s : Exchange) : Prop :=
  match s.place with
  | .listening | .serving => Silent s
  | .answering =>
    Silent s ∧ (∃ b, s.answering = [b] ∧ FitsResponse b) ∨ Delivered s ∧ s.answering = []
  | .done => Delivered s
  | .crashed => False

variable {E fd m} {s : Exchange} {a : ExchangeAction}

/-- In a state with the invariant nothing is unread, or the answer is. -/
theorem AnswerOk.silent_or_delivered (h : s.AnswerOk) : s.Silent ∨ s.Delivered := by
  unfold AnswerOk at h
  split at h
  · exact .inl h
  · exact .inl h
  · exact h.imp And.left And.left
  · exact .inr h
  · exact h.elim

/-- Once something has been written to the client, the invariant only asks for the answer. -/
private theorem AnswerOk.of_delivered {t : Exchange} (h : s.AnswerOk) (hs : ¬ s.Silent)
    (ht : t.Delivered) (hplace : t.place = s.place) (hanswering : t.answering = s.answering) :
    t.AnswerOk := by
  unfold AnswerOk at h ⊢
  rw [hplace, hanswering]
  cases hpc : s.place with
  | listening | serving =>
    rw [hpc] at h
    exact absurd h hs
  | answering =>
    rw [hpc] at h
    exact .inr ⟨ht, (h.resolve_left fun hl ↦ hs hl.1).2⟩
  | done => exact ht
  | crashed =>
    rw [hpc] at h
    exact h.elim

private theorem Delivered.read (h : s.Delivered) (hr : s.received = none) :
    Delivered { s with
      received := some (s.inbox.take bufferSize)
      inbox := s.inbox.drop bufferSize } := by
  obtain ⟨b, hb, ha, hread⟩ := h
  have hinbox : s.inbox = b := by
    rcases hread with ⟨-, hinbox⟩ | hread
    · exact hinbox
    · cases hr.symm.trans hread
  refine ⟨b, hb, ha, .inr ?_⟩
  rw [hinbox, List.take_of_length_le hb.2]

private theorem Delivered.writePush (h : s.Delivered) (hr : s.received ≠ none)
    (inbox : List UInt8) (pushing : List (List UInt8)) :
    Delivered { s with inbox := inbox, pushing := pushing } := by
  obtain ⟨b, hb, ha, hread⟩ := h
  refine ⟨b, hb, ha, .inr ?_⟩
  exact hread.resolve_left fun h ↦ hr h.1

/-- Each undisturbed step keeps the invariant. -/
theorem AnswerOk.step (h : s.AnswerOk) (hg : s.Undisturbed E m a) (he : s.Enabled E m a) :
    (s.apply E fd m a).AnswerOk := by
  cases a with
  | accept =>
    have hplace : s.place = .listening := he
    simp only [AnswerOk, hplace] at h
    exact h
  | ask | push | others => exact h
  | handle =>
    obtain ⟨hplace, -⟩ := he
    obtain ⟨hsafe, hanswered⟩ := hg
    simp only [AnswerOk, hplace] at h
    simp only [apply, handle, if_pos ((survives_iff hanswered).mpr hsafe)]
    exact .inl ⟨h, (isAnswered_iff s.server).mp hanswered⟩
  | respond =>
    obtain ⟨hplace, hne⟩ := he
    simp only [AnswerOk, hplace] at h
    rcases h with ⟨⟨hinbox, -, hr⟩, b, hb, hfits⟩ | ⟨-, hnil⟩
    · simp only [apply, respond, hb, AnswerOk, hplace]
      exact .inr ⟨⟨b, hfits, rfl, .inl ⟨hr, by rw [hinbox, List.nil_append]⟩⟩, trivial⟩
    · exact absurd hnil hne
  | finish =>
    obtain ⟨hplace, hnil⟩ := he
    simp only [AnswerOk, hplace] at h
    rcases h with ⟨-, b, hb, -⟩ | ⟨hdelivered, -⟩
    · cases hb.symm.trans hnil
    · exact hdelivered
  | writePush =>
    have hr : s.received ≠ none := hg
    have hs : ¬ s.Silent := fun hs ↦ hr hs.2.2
    have hdelivered : s.Delivered := h.silent_or_delivered.resolve_left hs
    cases hp : s.pushing with
    | nil =>
      simp only [apply, writePush, hp]
      exact h
    | cons b rest =>
      simp only [apply, writePush, hp]
      exact h.of_delivered hs (hdelivered.writePush hr (s.inbox ++ b) rest) rfl rfl
  | read =>
    obtain ⟨-, hr, hthere⟩ := he
    have hne : s.inbox ≠ [] := by
      refine hthere.resolve_right fun hcrashed ↦ ?_
      simp only [AnswerOk, hcrashed] at h
    have hs : ¬ s.Silent := fun hs ↦ hne hs.1
    have hdelivered : s.Delivered := h.silent_or_delivered.resolve_left hs
    exact h.of_delivered hs (hdelivered.read hr) rfl rfl

theorem answerOk_init (server : ServerState) : (init server).AnswerOk := ⟨rfl, rfl, rfl⟩

/-- In every run whose steps are undisturbed the client reads the answer to its own message. -/
theorem readsOwnAnswer_of_reachable {server : ServerState}
    (h : (system E fd m server).ReachableUnder (Undisturbed E m) s) : s.ReadsOwnAnswer := by
  have hok : s.AnswerOk :=
    h.invariant_of_commands (answerOk_init server) fun _ _ hi hg he ↦ hi.step hg he
  refine ⟨fun hcrashed ↦ ?_, fun hdone ↦ ?_, fun b hb ↦ ?_⟩
  · simp only [AnswerOk, hcrashed] at hok
  · simp only [AnswerOk, hdone] at hok
    obtain ⟨b, -, ha, -⟩ := hok
    rw [ha]
    rfl
  · rcases hok.silent_or_delivered with hs | ⟨b', -, ha, hread⟩
    · cases hs.2.2.symm.trans hb
    · rcases hread with ⟨hr, -⟩ | hr
      · cases hr.symm.trans hb
      · rw [ha, ← hr, hb]

/-- The command line `help 0`. -/
def helpCommand : DataMessage :=
  parseArguments .sample [[99], [104, 101, 108, 112], [48]]

/-- The command line `car 20`. -/
def carCommand : DataMessage := parseArguments .sample [[99], [99, 97, 114], [50, 48]]

/-- A key event of the MCU. -/
def keyEvent : ExchangeAction := .push 5 13 (some fun _ ↦ 1) 2

/-- A push comes while a help request is handled, but is written after the client has read. -/
theorem readsOwnAnswer_help :
    ∃ s, (system Environment.sample 7 helpCommand ServerState.init).ReachableUnder
        (Undisturbed Environment.sample helpCommand) s ∧
      s.received = some [0] ∧ s.ReadsOwnAnswer := by
  have hrun : ∃ s, (system Environment.sample 7 helpCommand ServerState.init).run
      (Undisturbed Environment.sample helpCommand) (init ServerState.init)
      [.ask, .accept, keyEvent, .handle, .respond, .finish, .read, .writePush] = some s ∧
      s.received = some [0] := ⟨_, rfl, rfl⟩
  obtain ⟨s, hs, hr⟩ := hrun
  have hreach := StepSystem.reachableUnder_of_run hs
  exact ⟨s, hreach, hr, readsOwnAnswer_of_reachable hreach⟩

/-- A command for the car is handled without an answer. The answer to a help request comes
behind a pushed frame that is written between accept and request. -/
theorem not_readsOwnAnswer :
    (∃ s, (system Environment.sample 7 carCommand ServerState.init).Reachable s ∧
      s.place = .done ∧ ¬ s.ReadsOwnAnswer) ∧
      ∃ s, (system Environment.sample 7 helpCommand ServerState.init).Reachable s ∧
        s.received = some [0xA5, 0xA5, 5, 13, 0, 2, 1, 1, 0] ∧ s.answer = some [0] ∧
        ¬ s.ReadsOwnAnswer := by
  constructor
  · have hrun : ∃ s, (system Environment.sample 7 carCommand ServerState.init).run
        (fun _ _ ↦ True) (init ServerState.init) [.ask, .accept, .handle, .finish] = some s ∧
        s.place = .done ∧ s.answer = none := ⟨_, rfl, rfl, rfl⟩
    obtain ⟨s, hs, hdone, ha⟩ := hrun
    refine ⟨s, StepSystem.reachableUnder_of_run hs, hdone, fun h ↦ ?_⟩
    have hsome := h.2.1 hdone
    rw [ha] at hsome
    cases hsome
  · have hrun : ∃ s, (system Environment.sample 7 helpCommand ServerState.init).run
        (fun _ _ ↦ True) (init ServerState.init)
        [.accept, keyEvent, .writePush, .ask, .handle, .respond, .read] = some s ∧
        s.received = some [0xA5, 0xA5, 5, 13, 0, 2, 1, 1, 0] ∧ s.answer = some [0] :=
      ⟨_, rfl, rfl, rfl⟩
    obtain ⟨s, hs, hr, ha⟩ := hrun
    refine ⟨s, StepSystem.reachableUnder_of_run hs, hr, ha, fun h ↦ ?_⟩
    cases ha.symm.trans (h.2.2 _ hr)

end Exchange

end OctopusIpc.Cli

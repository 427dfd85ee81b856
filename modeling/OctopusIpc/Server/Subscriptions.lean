import OctopusIpc.Base.StepSystem
import OctopusIpc.Server.WireFormat

/-!
# Who gets a push

Runs of whole operations on the registry: accepting a client, handling a configuration
message with the push flag, ending a client's thread, and calling the push callback. A client
subscribes by default and by the last configuration message that named it, which any client
may have sent.
-/

namespace OctopusIpc.Server
open OctopusIpc.Protocol Traced

/-- The operations of a run. -/
inductive ClientOperation where
  /-- `src/IPC/octopus_ipc_server.cpp:1035`. -/
  | accept (fd : Int)
  /-- A configuration message with the push flag arrives from a client. -/
  | configFlag (sender : Int) (queryMsg : ValidMessage)
  /-- `src/IPC/octopus_ipc_server.cpp:447–448`. -/
  | disconnect (fd : Int)
  | broadcast (msgGrp msgId : UInt16) (data : Option Memory) (length : UInt16)

/-- The client that a configuration message names: the one whose number is the first payload
byte, or its sender. -/
def namedBy (sender : Int) : List UInt8 → Int
  | [] => sender
  | b :: _ => if b = 0 then sender else b.toNat

/-- What a configuration message asks for. -/
def asksForPush (data : List UInt8) : Bool := decide (2 ≤ data.length ∧ 0 < data.getD 1 0)

/-! ### The history of a run, the most recent operation first -/

/-- A client is connected. -/
def connected (k : Int) : List ClientOperation → Bool
  | [] => false
  | .accept fd :: before => if fd = k then true else connected k before
  | .disconnect fd :: before => if fd = k then false else connected k before
  | _ :: before => connected k before

/-- The payload of the last configuration message since its accept that named a client. -/
def lastNaming (k : Int) : List ClientOperation → Option (List UInt8)
  | [] => none
  | .accept fd :: before => if fd = k then none else lastNaming k before
  | .configFlag sender queryMsg :: before =>
    if namedBy sender queryMsg.val.data = k then some queryMsg.val.data else lastNaming k before
  | _ :: before => lastNaming k before

/-- A client wants pushes: no message named it, or the last one asked for them. -/
def subscribed (k : Int) (history : List ClientOperation) : Bool :=
  match lastNaming k history with
  | none => true
  | some data => asksForPush data

/-! ### Runs -/

/-- The server's variables and the operations that led to them. -/
structure PushRun where
  server : ServerState
  history : List ClientOperation

namespace PushRun

variable (E : Environment)

/-- When an operation can happen: the number of an accepted client is not in use, and a
client that sends or disconnects is connected. -/
def Enabled (s : PushRun) : ClientOperation → Prop
  | .accept fd => connected fd s.history = false
  | .configFlag sender queryMsg => connected sender s.history = true ∧
      queryMsg.val.msgGroup.toNat = E.header.msgGroupIpcConfig ∧
      queryMsg.val.msgId.toNat = E.header.msgIpcCmdConfigFlag
  | .disconnect fd => connected fd s.history = true
  | .broadcast _ _ _ _ => True

instance (s : PushRun) : (op : ClientOperation) → Decidable (s.Enabled E op)
  | .accept _ | .disconnect _ => inferInstanceAs (Decidable (_ = _))
  | .configFlag _ _ => inferInstanceAs (Decidable (_ ∧ _ ∧ _))
  | .broadcast _ _ _ _ => inferInstanceAs (Decidable True)

/-- What an operation runs. -/
def handleOperation : ClientOperation → Handling Unit
  | .accept fd => Traced.update fun s ↦
    { s with activeClients := ipcServerAddClient s.activeClients fd [] true }
  | .configFlag sender queryMsg => do
    let _handleResult ← dispatch E sender queryMsg.val
  | .disconnect fd => ipcServerCleanup fd
  | .broadcast msgGrp msgId data length =>
    ipcServerMcuMessageDataCallback E msgGrp msgId data length

/-- What an operation does. -/
def apply (s : PushRun) (op : ClientOperation) : PushRun :=
  ⟨(handleOperation E op s.server).state, op :: s.history⟩

/-- The runs of operations, with no client connected at first. -/
def system : StepSystem PushRun ClientOperation :=
  StepSystem.ofCommands ⟨ServerState.init, []⟩ (Enabled E) (apply E)

/-! ### What the operations do to the registry -/

variable {E}

/-- A configuration message sets the flag of the client it names to what it asks for. -/
theorem activeClients_configFlag (sender : Int) (m : DataMessage) (s : ServerState)
    (hg : m.msgGroup.toNat = E.header.msgGroupIpcConfig)
    (hi : m.msgId.toNat = E.header.msgIpcCmdConfigFlag) :
    (dispatch E sender m s).state.activeClients =
      ipcServerUpdateClientFlag s.activeClients (namedBy sender m.data) (asksForPush m.data) := by
  have hselect := (selectHandler_eq_config_iff E.header m.msgGroup).mpr hg
  have hzero (b : UInt8) : b ≤ 0 ↔ b = 0 := by
    rw [UInt8.le_iff_toNat_le, ← UInt8.toNat_inj]
    exact Nat.le_zero
  rw [dispatch, hselect]
  simp only [callHandler, Handler.function, ipcServerHandleConfigEvent, configure, hi]
  rcases hdata : m.data with _ | ⟨b, _ | ⟨c, rest⟩⟩
  · rfl
  · simp [configTarget, payloadAt, configFlag, configActive, namedBy, asksForPush, hzero,
      sendResponse, Traced.when]
  · simp [configTarget, payloadAt, configFlag, configActive, namedBy, asksForPush, hzero,
      sendResponse, Traced.when]
    split_ifs <;> rfl

/-- A push does not touch the registry. -/
theorem activeClients_broadcast (msgGrp msgId : UInt16) (data : Option Memory) (length : UInt16)
    (s : ServerState) :
    (ipcServerMcuMessageDataCallback E msgGrp msgId data length s).state.activeClients =
      s.activeClients := by
  let J : ServerState → List Effect → Prop := fun t _ ↦ t.activeClients = s.activeClients
  have hask {α : Type} (f : OtsmFunction) (answer : Nat → α) : Keeps J (askOtsm E f answer) :=
    fun _ _ h ↦ h
  have hsend (fd : Int) (msgGrp msgId size : Nat) (info : Option Memory) :
      Keeps J (ipcServerSendMessageToClient fd msgGrp msgId info size) := by
    cases info <;> exact fun _ _ h ↦ h
  have hcar (getter : OtsmFunction) (fd : Int) (msgGrp msgId : Nat) :
      Keeps J (notifyCarInfo E getter fd msgGrp msgId length) :=
    .when fun _ ↦ (hask _ _).bind fun _ ↦ hsend _ _ _ _ _
  have hclient (client : ClientInfo) :
      Keeps J (notifyClient E client msgGrp msgId data length) := by
    apply Keeps.when
    intro _
    apply Keeps.ite
    · intro _
      refine .ite (fun _ ↦ hcar _ _ _ _) fun _ ↦ ?_
      refine .ite (fun _ ↦ hcar _ _ _ _) fun _ ↦ ?_
      refine .ite (fun _ ↦ hcar _ _ _ _) fun _ ↦ ?_
      refine .ite (fun _ ↦ hcar _ _ _ _) fun _ ↦ ?_
      exact .when fun _ ↦ hsend _ _ _ _ _
    · intro _
      refine .ite (fun _ ↦ .when fun _ ↦ (hask _ _).bind fun _ ↦ hsend _ _ _ _ _) fun _ ↦ ?_
      refine .ite (fun _ ↦ .when fun _ ↦ (hask _ _).bind fun _ ↦ hsend _ _ _ _ _) fun _ ↦ ?_
      exact hsend _ _ _ _ _
  exact ((Keeps.reads ServerState.activeClients).bind fun clients ↦
    Keeps.forM hclient clients.elems) s [] rfl

/-! ### The registry and the history -/

/-- The flag of each record is whether the client with its number is connected and what it
subscribed. -/
def Inv (s : PushRun) : Prop :=
  ∀ k, (s.server.activeClients.find? k).map ClientInfo.flag =
    if connected k s.history = true then some (subscribed k s.history) else none

theorem inv_init : Inv ⟨ServerState.init, []⟩ := fun _ ↦ rfl

variable {s : PushRun}

private theorem Inv.find?_eq_none (h : Inv s) {k : Int} (hk : connected k s.history = false) :
    s.server.activeClients.find? k = none := by
  have hn := h k
  rw [hk] at hn
  exact Option.map_eq_none_iff.mp hn

private theorem Inv.accept (h : Inv s) {fd : Int} (he : connected fd s.history = false) :
    Inv (s.apply E (.accept fd)) := by
  intro k
  have hfind : (s.apply E (.accept fd)).server.activeClients.find? k = _ :=
    find?_ipcServerAddClient s.server.activeClients fd [] true k
  rw [hfind]
  by_cases hk : fd = k
  · subst hk
    simp [apply, connected, subscribed, lastNaming, h.find?_eq_none he]
  · simpa [apply, connected, subscribed, lastNaming, hk] using h k

private theorem Inv.disconnect (h : Inv s) (fd : Int) : Inv (s.apply E (.disconnect fd)) := by
  intro k
  have hfind : (s.apply E (.disconnect fd)).server.activeClients.find? k = _ :=
    find?_ipcServerRemoveClient s.server.activeClients fd k
  rw [hfind]
  by_cases hk : fd = k
  · simp [apply, connected, hk]
  · simpa [apply, connected, subscribed, lastNaming, hk] using h k

private theorem Inv.configFlag (h : Inv s) {sender : Int} {queryMsg : ValidMessage}
    (hg : queryMsg.val.msgGroup.toNat = E.header.msgGroupIpcConfig)
    (hi : queryMsg.val.msgId.toNat = E.header.msgIpcCmdConfigFlag) :
    Inv (s.apply E (.configFlag sender queryMsg)) := by
  intro k
  have hclients : (s.apply E (.configFlag sender queryMsg)).server.activeClients = _ :=
    activeClients_configFlag sender queryMsg.val s.server hg hi
  rw [hclients, find?_ipcServerUpdateClientFlag]
  by_cases hk : namedBy sender queryMsg.val.data = k
  · have hflag := h k
    rw [if_pos hk, Option.map_map]
    cases hf : s.server.activeClients.find? k with
    | none =>
      rw [hf] at hflag
      have hc : connected k s.history = false := by
        by_contra hc
        rw [if_pos (by simpa using hc)] at hflag
        cases hflag
      simp [apply, connected, hc]
    | some r =>
      rw [hf] at hflag
      have hc : connected k s.history = true := by
        by_contra hc
        rw [if_neg hc] at hflag
        cases hflag
      simp [apply, connected, subscribed, lastNaming, hk, hc]
  · simpa [apply, connected, subscribed, lastNaming, hk] using h k

/-- Every operation keeps the invariant. -/
theorem Inv.step (h : Inv s) {op : ClientOperation} (he : s.Enabled E op) : Inv (s.apply E op) := by
  cases op with
  | accept fd => exact h.accept he
  | configFlag sender queryMsg => exact h.configFlag he.2.1 he.2.2
  | disconnect fd => exact h.disconnect fd
  | broadcast msgGrp msgId data length =>
    intro k
    have hclients : (s.apply E (.broadcast msgGrp msgId data length)).server.activeClients = _ :=
      activeClients_broadcast msgGrp msgId data length s.server
    rw [hclients]
    exact h k

/-! ### A broadcast -/

/-- The frame of a forwarded push. -/
def pushFrame (msgGrp msgId : UInt16) (payload : Memory) (length : UInt16) : List UInt8 :=
  (infoMessage msgGrp.toNat msgId.toNat payload length.toNat).serializeMessage

/-- In the forwarding branches a push to one client sends the frame if the flag is set. -/
theorem notifyClient_forwarded {msgGrp msgId : UInt16}
    (hcar : msgGrp.toNat ≠ E.header.msgGroupCar)
    (hupdating : msgId.toNat ≠ E.header.msgIpcCmdMcuUpdating)
    (hversion : msgId.toNat ≠ E.header.msgIpcCmdMcuVersion) (payload : Memory) (length : UInt16)
    (client : ClientInfo) (s : ServerState) :
    notifyClient E client msgGrp msgId (some payload) length s =
      ⟨(), s, if client.flag = true then
        [.sendBuff client.fd (pushFrame msgGrp msgId payload length)] else []⟩ := by
  unfold notifyClient Traced.when
  split_ifs
  · simp [ipcServerNotifyMcuInforToClient, hupdating, hversion, ipcServerSendMessageToClient,
      pushFrame]
  · rfl

/-- Of the pushes to the records of a list a client gets those to records with its number and
the flag set. -/
theorem unitsTo_flatMap (fd : Int) (frame : List UInt8) (clients : List ClientInfo) :
    unitsTo fd (clients.flatMap fun client ↦
        if client.flag = true then [.sendBuff client.fd frame] else []) =
      (clients.filter fun client ↦ client.fd = fd).flatMap fun client ↦
        if client.flag = true then [frame] else [] := by
  induction clients with
  | nil => rfl
  | cons client clients ih =>
    rw [List.flatMap_cons, unitsTo, List.filterMap_append, ← unitsTo, ← unitsTo, ih,
      List.filter_cons]
    by_cases hf : client.fd = fd <;> by_cases hflag : client.flag = true <;>
      simp [unitsTo, Effect.unitTo, hf, hflag]

/-- Bytes decode to a valid message with that group, id and payload. -/
def DecodesTo (frame : List UInt8) (msgGrp msgId : UInt16) (payload : List UInt8) : Prop :=
  (DataMessage.deserializeMessage frame).isValid = true ∧
    (DataMessage.deserializeMessage frame).msgGroup.toNat = msgGrp.toNat ∧
    (DataMessage.deserializeMessage frame).msgId.toNat = msgId.toNat ∧
    (DataMessage.deserializeMessage frame).data = payload

theorem pushFrame_decodesTo {msgGrp msgId : UInt16} (hg : msgGrp.toNat < 256)
    (hi : msgId.toNat < 256) (payload : Memory) (length : UInt16) :
    DecodesTo (pushFrame msgGrp msgId payload length) msgGrp msgId
      ((List.range length.toNat).map payload) := by
  have hvalid := isValid_infoMessage msgGrp.toNat msgId.toNat payload length.toNat_lt
  have hm := DataMessage.deserializeMessage_of_prefix hvalid (List.prefix_refl _)
  rw [DecodesTo, pushFrame, hm]
  exact ⟨hvalid, UInt8.toNat_ofNat_of_lt' hg, UInt8.toNat_ofNat_of_lt' hi, rfl⟩

/-- In every state that a run reaches: for a broadcast of a payload of any length in the
forwarding branches, there is one frame that decodes to group, id and payload; the clients
that are connected and subscribed are sent this frame once, all others nothing. -/
theorem broadcast_recipients (h : (system E).Reachable s) (msgGrp msgId : UInt16)
    (hcar : msgGrp.toNat ≠ E.header.msgGroupCar) (hg : msgGrp.toNat < 256)
    (hi : msgId.toNat < 256) (hupdating : msgId.toNat ≠ E.header.msgIpcCmdMcuUpdating)
    (hversion : msgId.toNat ≠ E.header.msgIpcCmdMcuVersion) (payload : Memory)
    (length : UInt16) :
    ∃ frame, DecodesTo frame msgGrp msgId ((List.range length.toNat).map payload) ∧
      ∀ fd, unitsTo fd (ipcServerMcuMessageDataCallback E msgGrp msgId (some payload) length
          s.server).effects =
        if connected fd s.history = true ∧ subscribed fd s.history = true then [frame] else [] := by
  have hinv : Inv s := StepSystem.ReachableUnder.invariant_of_commands inv_init
    (fun _ _ ht _ he ↦ ht.step he) h
  refine ⟨pushFrame msgGrp msgId payload length, pushFrame_decodesTo hg hi payload length,
    fun fd ↦ ?_⟩
  have heffects : (ipcServerMcuMessageDataCallback E msgGrp msgId (some payload) length
      s.server).effects = _ := congrArg Traced.Result.effects (Traced.forM_apply
    (fun client ↦ notifyClient_forwarded hcar hupdating hversion payload length client s.server)
    s.server.activeClients.elems)
  rw [heffects, unitsTo_flatMap, KeyedSet.filter_key_eq_toList]
  have hflag := hinv fd
  cases hf : s.server.activeClients.find? fd with
  | none =>
    rw [hf] at hflag
    by_cases hc : connected fd s.history = true
    · rw [if_pos hc] at hflag
      cases hflag
    · simp [hc]
  | some r =>
    rw [hf] at hflag
    by_cases hc : connected fd s.history = true
    · rw [if_pos hc, Option.map_some, Option.some.injEq] at hflag
      simp [hc, hflag]
    · rw [if_neg hc] at hflag
      cases hflag

/-- Client 5 takes itself out, and client 6 names it again. -/
def namedByAnother : List ClientOperation :=
  [.accept 5, .configFlag 5 ⟨DataMessage.ofPayload 2 1 [0, 0], rfl⟩, .accept 6,
    .configFlag 6 ⟨DataMessage.ofPayload 2 1 [5, 1], rfl⟩]

theorem broadcast_recipients_namedByAnother :
    ∃ s, (system Environment.sample).run (fun _ _ ↦ True) ⟨ServerState.init, []⟩
        namedByAnother = some s ∧
      ∃ frame, DecodesTo frame 5 13 [9, 9] ∧ ∀ fd,
        unitsTo fd (ipcServerMcuMessageDataCallback Environment.sample 5 13 (some fun _ ↦ 9) 2
          s.server).effects =
        if connected fd s.history = true ∧ subscribed fd s.history = true then [frame] else [] := by
  have hrun : ∃ s, (system Environment.sample).run (fun _ _ ↦ True) ⟨ServerState.init, []⟩
      namedByAnother = some s := ⟨_, rfl⟩
  obtain ⟨s, hs⟩ := hrun
  exact ⟨s, hs, broadcast_recipients (StepSystem.reachableUnder_of_run hs) 5 13 (by decide)
    (by decide) (by decide) (by decide) (by decide) (fun _ ↦ 9) 2⟩

end PushRun
end OctopusIpc.Server

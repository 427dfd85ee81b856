import OctopusIpc.System.Downlink

/-!
# Publish and subscribe

What the server and the client library are for: a client that is accepted is subscribed, any
client may subscribe or unsubscribe any client by its number, and what the MCU publishes is
owed to each client subscribed at that time. Where the server only forwards what is published,
the whole way down to the callbacks refines this service.
-/

namespace OctopusIpc.System
open OctopusIpc.Protocol OctopusIpc.Server OctopusIpc.Client Traced

/-- What is published, with its group and its id reduced to a byte. -/
def published (msgGrp msgId : UInt16) (data : Option Memory) (length : UInt16) :
    List ValidMessage :=
  data.toList.map fun payload ↦
    ⟨infoMessage msgGrp.toNat msgId.toNat payload length.toNat,
      isValid_infoMessage msgGrp.toNat msgId.toNat payload length.toNat_lt⟩

/-- The clients, and what each is owed since it was accepted. -/
structure Service where
  clients : ClientMap
  due : Int → List ValidMessage

namespace Service

variable (E : Environment)

/-- Nobody is connected. -/
def init : Service := ⟨∅, fun _ ↦ []⟩

/-- A client is connected and subscribed. -/
def subscribed (s : Service) (fd : Int) : Bool := (s.clients.lookup fd).any Prod.fst

/-- What an input means. -/
def apply (s : Service) : ServerInput → Service
  | .accept fd => ⟨s.clients.insert fd (true, []), Function.update s.due fd []⟩
  | .request clientFd queryMsg =>
    { s with
      clients := (registryOperation E (.request clientFd queryMsg)).elim s.clients fun op ↦
        op.onMap s.clients }
  | .disconnect fd => { s with clients := s.clients.erase fd }
  | .push msgGrp msgId data length =>
    { s with
      due := fun fd ↦
        if s.subscribed fd then s.due fd ++ published msgGrp msgId data length else s.due fd }

end Service

/-- Messages to which nothing is answered: those of the car, and those passed on to the MCU
which do not ask for its version. -/
def Unanswered (header : OtsmHeader) (m : DataMessage) : Prop :=
  m.msgGroup.toNat = header.msgGroupCar ∨
    (m.msgGroup.toNat = header.msgGroupMcu ∨ m.msgGroup.toNat = header.msgGroupPassthroughO) ∧
      m.msgId.toNat ≠ header.msgIpcCmdMcuVersion

namespace Downlink

variable {E : Environment} {s s' : Downlink} {fd : Int}

/-- Everything published is forwarded, and a client sends only messages that are not answered. -/
def Forwards (E : Environment) (fd : Int) : DownlinkAction → Prop
  | .serve (.push msgGrp msgId _ _) => msgGrp.toNat ≠ E.header.msgGroupCar ∧
      msgId.toNat ≠ E.header.msgIpcCmdMcuUpdating ∧ msgId.toNat ≠ E.header.msgIpcCmdMcuVersion
  | .serve (.request clientFd queryMsg) => clientFd = fd → Unanswered E.header queryMsg.val
  | _ => True

/-- The inputs among the actions. -/
def inputs (actions : List DownlinkAction) : List ServerInput :=
  actions.filterMap fun
    | .serve input => some input
    | .client _ _ => none

/-! ### What an input writes to a client -/

/-- A message that is not answered, or is another client's, writes nothing to a client. -/
theorem unitsTo_request {clientFd : Int} {queryMsg : ValidMessage} {t : ServerState}
    (h : clientFd = fd → Unanswered E.header queryMsg.val) :
    unitsTo fd (handleServerInput E (.request clientFd queryMsg) t).effects = [] := by
  have hsilent : AllEffects (fun e ↦ e.unitTo fd = none) (dispatch E clientFd queryMsg.val) t := by
    rw [allEffects_dispatch]
    refine ⟨rfl, ?_⟩
    by_cases hfd : clientFd = fd
    · have hgroup := h hfd
      have hcar := selectHandler_eq_car_iff E.header queryMsg.val.msgGroup
      have hmcu := selectHandler_eq_mcu_iff E.header queryMsg.val.msgGroup
      rcases hgroup with hgroup | ⟨hgroup, hversion⟩
      · rw [hcar.mpr hgroup]
        simp [Handler.function, allEffects_car, Effect.unitTo]
      · rw [hmcu.mpr hgroup]
        simp [Handler.function, allEffects_mcu, allEffects_forwardMcuEvent, hversion,
          Effect.unitTo]
    · cases selectHandler E.header queryMsg.val.msgGroup with
      | help => simp [Handler.function, allEffects_help, Effect.unitTo, hfd]
      | config => simp [Handler.function, allEffects_config, Effect.unitTo, hfd]
      | calculation => simp [Handler.function, allEffects_calculation, Effect.unitTo, hfd]
      | car => simp [Handler.function, allEffects_car, Effect.unitTo]
      | mcu =>
        simp [Handler.function, allEffects_mcu, allEffects_forwardMcuEvent, Effect.unitTo, hfd]
  refine List.filterMap_eq_nil_iff.mpr fun e he ↦ hsilent e ?_
  simpa [handleServerInput] using he

/-- What is published is written to a client as its frame if the client's flag is set. -/
theorem unitsTo_push {msgGrp msgId : UInt16} (hcar : msgGrp.toNat ≠ E.header.msgGroupCar)
    (hupdating : msgId.toNat ≠ E.header.msgIpcCmdMcuUpdating)
    (hversion : msgId.toNat ≠ E.header.msgIpcCmdMcuVersion) (data : Option Memory)
    (length : UInt16) (t : ServerState) :
    unitsTo fd (handleServerInput E (.push msgGrp msgId data length) t).effects =
      if ((clientMap t.activeClients).lookup fd).any Prod.fst then
        (published msgGrp msgId data length).map frameCode.encode else [] := by
  have hlookup : ((clientMap t.activeClients).lookup fd).any Prod.fst =
      (t.activeClients.find? fd).any ClientInfo.flag := by
    rw [clientMap, KeyedSet.lookup_toFinmap, Option.any_map]
    rfl
  rw [hlookup]
  cases data with
  | none =>
    have hnothing (client : ClientInfo) : notifyClient E client msgGrp msgId none length t =
        ⟨(), t, []⟩ := by
      unfold notifyClient Traced.when
      split_ifs
      · simp [ipcServerNotifyMcuInforToClient, hupdating, hversion, ipcServerSendMessageToClient]
      · rfl
    have heffects : (ipcServerMcuMessageDataCallback E msgGrp msgId none length t).effects = _ :=
      congrArg Traced.Result.effects (Traced.forM_apply hnothing t.activeClients.elems)
    rw [handleServerInput, heffects]
    simp [unitsTo, published]
  | some payload =>
    have heffects : (ipcServerMcuMessageDataCallback E msgGrp msgId (some payload) length
        t).effects = _ := congrArg Traced.Result.effects (Traced.forM_apply
      (fun client ↦ PushRun.notifyClient_forwarded hcar hupdating hversion payload length client t)
      t.activeClients.elems)
    rw [handleServerInput, heffects, PushRun.unitsTo_flatMap, KeyedSet.filter_key_eq_toList]
    cases t.activeClients.find? fd with
    | none => simp
    | some r => simp [published, PushRun.pushFrame]

/-! ### Runs -/

/-- A state of the chain stands for one of the service, as far as a client is concerned. -/
structure StandsFor (fd : Int) (s : Downlink) (t : Service) : Prop where
  clients : clientMap s.server.activeClients = t.clients
  inStep : (s.connection fd).InStep (t.due fd)

theorem standsFor_init : StandsFor fd (system E).init Service.init where
  clients := KeyedSet.toFinmap_empty
  inStep := Connection.inStep_init

/-- The clients after an input are those of the service after it. -/
theorem StandsFor.clients_serve {t : Service} {input : ServerInput} (h : StandsFor fd s t)
    (hpossible : input.Possible s.server) :
    clientMap (s.serve E input).server.activeClients = (t.apply E input).clients := by
  have hstate := (state_handleServerInput (E := E) input s.server).1
  have hmap : clientMap (s.serve E input).server.activeClients = _ :=
    (congrArg clientMap hstate).trans (clientMap_afterOperation hpossible)
  rw [hmap, h.clients]
  cases input <;> rfl

/-- The chain and the service agree after an input if what is written to the client is what the
service comes to owe it. -/
private theorem StandsFor.write {t : Service} {input : ServerInput} (h : StandsFor fd s t)
    (hpossible : input.Possible s.server) (due new : List ValidMessage)
    (hopened : (opened (s.connection fd) fd input).InStep due)
    (hunits : unitsTo fd (handleServerInput E input s.server).effects = new.map frameCode.encode)
    (happly : (t.apply E input).due fd = due ++ new) :
    StandsFor fd (s.serve E input) (t.apply E input) where
  clients := h.clients_serve hpossible
  inStep := by
    rw [happly]
    simp only [Downlink.serve, hunits]
    exact hopened.write new

/-- An input of the chain is the same input of the service. -/
theorem StandsFor.serve {t : Service} {input : ServerInput} (h : StandsFor fd s t)
    (hg : Forwards E fd (.serve input)) (hpossible : input.Possible s.server) :
    StandsFor fd (s.serve E input) (t.apply E input) := by
  have hnothing (due : List ValidMessage) : due = due ++ [] := (List.append_nil due).symm
  cases input with
  | accept fd' =>
    by_cases hfd : fd' = fd
    · have hnew : opened (s.connection fd) fd (.accept fd') = .init := if_pos hfd
      refine h.write hpossible [] [] ?_ rfl ?_
      · rw [hnew]
        exact Connection.inStep_init
      · simp [Service.apply, hfd]
    · have hsame : opened (s.connection fd) fd (.accept fd') = s.connection fd := if_neg hfd
      refine h.write hpossible (t.due fd) [] ?_ rfl ?_
      · rw [hsame]
        exact h.inStep
      · simp [Service.apply, Function.update_of_ne (Ne.symm hfd)]
  | disconnect fd' => exact h.write hpossible _ [] h.inStep rfl (hnothing _)
  | request clientFd queryMsg =>
    exact h.write hpossible _ [] h.inStep (unitsTo_request hg) (hnothing _)
  | push msgGrp msgId data length =>
    refine h.write hpossible (t.due fd)
      (if t.subscribed fd then published msgGrp msgId data length else []) h.inStep ?_ ?_
    · rw [unitsTo_push hg.1 hg.2.1 hg.2.2, h.clients, Service.subscribed]
      split_ifs
      · rfl
      · rfl
    · simp only [Service.apply]
      split_ifs
      · rfl
      · exact hnothing _

/-- A step of a client means nothing to the service. -/
theorem StandsFor.client {t : Service} {fd' : Int} {a : ClientStep} {c : Connection}
    (h : StandsFor fd s t) (hstep : (s.connection fd').step a = some c) :
    StandsFor fd { s with connection := Function.update s.connection fd' c } t := by
  refine ⟨h.clients, ?_⟩
  by_cases hfd : fd = fd'
  · subst hfd
    simp only [Function.update_self]
    exact (h.inStep.step hstep).1
  · simp only [Function.update_of_ne hfd]
    exact h.inStep

private theorem standsFor_of_run {actions : List DownlinkAction} {t : Service}
    (hg : ∀ a ∈ actions, Forwards E fd a) (h : StandsFor fd s t)
    (hrun : (system E).run (fun _ _ ↦ True) s actions = some s') :
    StandsFor fd s' ((inputs actions).foldl (Service.apply E) t) := by
  induction actions generalizing s t with
  | nil =>
    cases hrun
    exact h
  | cons a actions ih =>
    obtain ⟨-, u, hstep, hrun⟩ := StepSystem.run_cons_eq_some_iff.mp hrun
    obtain ⟨ha, hactions⟩ := List.forall_mem_cons.mp hg
    obtain ⟨input, rfl, hpossible, rfl⟩ | ⟨fd', b, c, rfl, hb, rfl⟩ := step_cases hstep
    · exact ih hactions (h.serve ha hpossible) hrun
    · exact ih hactions (h.client hb) hrun

/-- A client is pushed a key event and then unsubscribed by another, so that the next one is not
pushed to it. It reads the first bytes of its frame, and then the others. -/
def unsubscribedByAnother : List DownlinkAction :=
  [.serve (.accept 5), .serve (.accept 6), .serve (.push 5 13 (some fun _ ↦ 9) 1),
    .serve (.request 6 ⟨.ofPayload 2 1 [5], rfl⟩),
    .serve (.push 5 14 (some fun _ ↦ 9) 1),
    .client 5 (.read ⟨[0xA5, 0xA5, 5, 13], List.cons_ne_nil _ _, by decide⟩), .client 5 .round,
    .client 5 (.read ⟨[0, 1, 9], List.cons_ne_nil _ _, by decide⟩), .client 5 .round,
    .client 5 .round]

end Downlink
end OctopusIpc.System

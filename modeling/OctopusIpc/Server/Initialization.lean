import OctopusIpc.Server.HandlerEffects

/-!
# Loading the OTSM library

`ipc_server_initialize_otsm` resolves the function pointers one by one and closes the library
again at the first symbol it does not find. The pointers resolved before stay set and point
into the closed library, the others stay null. A null test in a handler tells only the
second kind from a usable pointer, and some calls make no test at all.
-/

namespace OctopusIpc.Server
open OctopusIpc.Protocol Traced

/-! ### The lookups -/

/-- The pointers with their symbols, in the order of the lookups;
`src/IPC/octopus_ipc_server.cpp:856–947`. -/
def otsmSymbols : List (OtsmFunction × String) :=
  [(.registerMessageCallback, "register_message_data_callback"),
    (.stopRunning, "TaskManagerStateStopRunning"),
    (.updatePushIntervalMs, "update_push_interval_ms"),
    (.getMeterInfo, "task_carinfo_get_meter_info"),
    (.getIndicatorInfo, "task_carinfo_get_indicator_info"),
    (.getBatteryInfo, "task_carinfo_get_battery_info"),
    (.getErrorInfo, "task_carinfo_get_error_info"),
    (.sendMessage, "send_message_adapter"),
    (.getMcuUpgradeProgressInfo, "get_mcu_update_progress"),
    (.getMcuFlashMetaInfor, "flash_get_meta_infor"),
    (.messageDataCallbackFunc, "ipc_notify_message_to_mcu")]

/-- The values of all pointers. -/
abbrev Pointers := OtsmFunction → FunctionPointer

/-- `dlclose`: what points into the library points into a closed one. -/
def dlclose (pointers : Pointers) : Pointers := fun f ↦
  if pointers f = .loaded then .closed else pointers f

/-- The lookups of some symbols, up to the first one not found. The flag says whether the end
is reached, where the push callback is registered. -/
def lookup (found : String → Bool) : List (OtsmFunction × String) → Pointers → Pointers × Bool
  | [], pointers => (pointers, true)
  | (f, symbol) :: rest, pointers =>
    if found symbol then
      lookup found rest (Function.update pointers f .loaded)
    else (dlclose (Function.update pointers f .null), false)

/-- `src/IPC/octopus_ipc_server.cpp:843–958`, for what `dlopen` and `dlsym` return. -/
def ipcServerInitializeOtsm (opened : Bool) (found : String → Bool) : Pointers × Bool :=
  if opened then lookup found otsmSymbols fun _ ↦ .null else (fun _ ↦ .null, false)

/-- The pointers resolved before the first lookup that fails. -/
def resolvedFirst (found : String → Bool) : List OtsmFunction :=
  (otsmSymbols.takeWhile fun p ↦ found p.2).map Prod.fst

/-- The library is loaded and all its symbols are found. -/
def FullyLoaded (opened : Bool) (found : String → Bool) : Prop :=
  opened = true ∧ ∀ p ∈ otsmSymbols, found p.2 = true

instance (opened : Bool) (found : String → Bool) : Decidable (FullyLoaded opened found) :=
  inferInstanceAs (Decidable (_ ∧ _))

private theorem lookup_of_all {found : String → Bool} {symbols : List (OtsmFunction × String)}
    (h : ∀ p ∈ symbols, found p.2 = true) (pointers : Pointers) (f : OtsmFunction) :
    (lookup found symbols pointers).1 f =
      if f ∈ symbols.map Prod.fst then .loaded else pointers f := by
  induction symbols generalizing pointers with
  | nil => rfl
  | cons p rest ih =>
    obtain ⟨g, symbol⟩ := p
    obtain ⟨hp, hrest⟩ := List.forall_mem_cons.mp h
    rw [lookup, if_pos hp, ih hrest, Function.update_apply]
    simp only [List.map_cons, List.mem_cons]
    split_ifs <;> tauto

private theorem lookup_of_not_all {found : String → Bool}
    {symbols : List (OtsmFunction × String)} (h : ¬ ∀ p ∈ symbols, found p.2 = true)
    (hnodup : (symbols.map Prod.fst).Nodup) {pointers : Pointers}
    (hp : ∀ f ∈ symbols.map Prod.fst, pointers f = .null) (f : OtsmFunction) :
    (lookup found symbols pointers).1 f =
      if f ∈ (symbols.takeWhile fun p ↦ found p.2).map Prod.fst then .closed
      else dlclose pointers f := by
  induction symbols generalizing pointers with
  | nil => exact absurd (fun p hp ↦ nomatch hp) h
  | cons p rest ih =>
    obtain ⟨g, symbol⟩ := p
    obtain ⟨hg, hnodup⟩ := List.nodup_cons.mp hnodup
    rw [lookup]
    by_cases hs : found symbol = true
    · have hrest : ¬ ∀ p ∈ rest, found p.2 = true := fun hr ↦
        h (List.forall_mem_cons.mpr ⟨hs, hr⟩)
      have hnull (f : OtsmFunction) (hf : f ∈ rest.map Prod.fst) :
          Function.update pointers g .loaded f = .null := by
        rw [Function.update_of_ne (by rintro rfl; exact hg hf)]
        exact hp f (List.mem_cons_of_mem _ hf)
      rw [if_pos hs, ih hrest hnodup hnull]
      simp only [List.takeWhile_cons_of_pos (p := fun p ↦ found p.2) (a := (g, symbol)) hs,
        List.map_cons, List.mem_cons]
      by_cases hf : f = g
      · subst hf
        simp [dlclose]
      · rw [dlclose, Function.update_of_ne hf, dlclose]
        split_ifs <;> tauto
    · rw [if_neg hs, List.takeWhile_cons_of_neg (a := (g, symbol)) hs]
      have hsame : Function.update pointers g .null = pointers :=
        Function.update_eq_self_iff.mpr (hp g List.mem_cons_self).symm
      rw [hsame]
      rfl

/-- Every pointer is looked up, once. -/
theorem otsmSymbols_complete : (otsmSymbols.map Prod.fst).Nodup ∧
    ∀ f, f ∈ otsmSymbols.map Prod.fst := by
  refine ⟨by decide, fun f ↦ ?_⟩
  cases f <;> decide

/-- What each pointer holds after the initialisation. -/
theorem ipcServerInitializeOtsm_pointer (opened : Bool) (found : String → Bool)
    (f : OtsmFunction) :
    (ipcServerInitializeOtsm opened found).1 f =
      if FullyLoaded opened found then .loaded
      else if opened = true ∧ f ∈ resolvedFirst found then .closed
      else .null := by
  unfold ipcServerInitializeOtsm
  cases opened with
  | false => simp [FullyLoaded]
  | true =>
    rw [if_pos rfl]
    by_cases h : ∀ p ∈ otsmSymbols, found p.2 = true
    · rw [lookup_of_all h, if_pos (otsmSymbols_complete.2 f), if_pos ⟨rfl, h⟩]
    · rw [lookup_of_not_all h otsmSymbols_complete.1 (fun _ _ ↦ rfl),
        if_neg fun hl : FullyLoaded true found ↦ h hl.2]
      exact if_congr (iff_and_self.mpr fun _ ↦ rfl) rfl rfl

/-- The push callback is registered only with a library all of whose symbols are found. -/
theorem ipcServerInitializeOtsm_registered_iff (opened : Bool) (found : String → Bool) :
    (ipcServerInitializeOtsm opened found).2 = true ↔ FullyLoaded opened found := by
  have hlookup (symbols : List (OtsmFunction × String)) (pointers : Pointers) :
      (lookup found symbols pointers).2 = true ↔ ∀ p ∈ symbols, found p.2 = true := by
    induction symbols generalizing pointers with
    | nil => simp [lookup]
    | cons p rest ih =>
      rw [lookup, List.forall_mem_cons]
      split
      · next hs => simp [hs, ih]
      · next hs => simp [hs]
  unfold ipcServerInitializeOtsm FullyLoaded
  cases opened with
  | false => simp
  | true => simp [hlookup]

/-! ### The calls of the handlers -/

/-- The pointers that handling a message calls without a test. -/
def calledUntested (header : OtsmHeader) (m : DataMessage) : List OtsmFunction :=
  if m.msgGroup.toNat = header.msgGroupIpcConfig ∧
      m.msgId.toNat = header.msgIpcCmdConfigFlag ∧ 3 ≤ m.data.length then
    [.updatePushIntervalMs]
  else if m.msgGroup.toNat = header.msgGroupCar then
    if m.msgId.toNat = header.msgIpcCmdCarSetIndicator then [.getIndicatorInfo, .sendMessage]
    else if m.msgId.toNat = header.msgIpcCmdCarSetMeter then [.getMeterInfo, .sendMessage]
    else if m.msgId.toNat = header.msgIpcCmdCarSetBattery then [.getBatteryInfo, .sendMessage]
    else []
  else []

/-- The pointers that handling a message calls if they are not null. -/
def calledIfSet (header : OtsmHeader) (m : DataMessage) : List OtsmFunction :=
  if m.msgGroup.toNat = header.msgGroupIpcConfig then
    if m.msgId.toNat ≠ header.msgIpcCmdConfigFlag ∧
        m.msgId.toNat = header.msgIpcCmdConfigPushDelay then [.updatePushIntervalMs]
    else []
  else if m.msgGroup.toNat = header.msgGroupCar then
    if m.msgId.toNat ∈ header.carCommands then [.sendMessage] else []
  else if m.msgGroup.toNat = header.msgGroupPassthroughO then
    .messageDataCallbackFunc ::
      if m.msgId.toNat = header.msgIpcCmdMcuVersion then [.getMcuFlashMetaInfor] else []
  else if m.msgGroup.toNat = header.msgGroupMcu then
    (if m.msgId.toNat = header.msgIpcCmdMcuRequestUpgrading then [.sendMessage] else []) ++
      if m.msgId.toNat = header.msgIpcCmdMcuVersion then [.getMcuFlashMetaInfor] else []
  else []

/-- A call of the library goes through a pointer into the loaded library. -/
def Effect.Usable : Effect → Prop
  | otsmCall _ pointer => pointer = .loaded
  | _ => True

/-- A call behind a null test is usable unless the library was closed. -/
private theorem loaded_of_ne_null_iff (p : FunctionPointer) :
    (p ≠ .null → p = .loaded) ↔ p ≠ .closed := by
  cases p <;> simp

variable {E : Environment} (clientFd : Int) (m : DataMessage) (s : ServerState)

private theorem usable_config_iff (hg : m.msgGroup.toNat = E.header.msgGroupIpcConfig) :
    AllEffects Effect.Usable (ipcServerHandleConfigEvent E clientFd m) s ↔
      (∀ f ∈ calledUntested E.header m, E.pointer f = .loaded) ∧
        ∀ f ∈ calledIfSet E.header m, E.pointer f ≠ .closed := by
  have hgroups := E.header.groups_ne
  have htest := loaded_of_ne_null_iff (E.pointer .updatePushIntervalMs)
  simp only [allEffects_config, Effect.Usable, calledUntested, calledIfSet, hg]
  grind

private theorem usable_car_iff (hg : m.msgGroup.toNat = E.header.msgGroupCar) :
    AllEffects Effect.Usable (ipcServerHandleCarEvent E clientFd m) s ↔
      (∀ f ∈ calledUntested E.header m, E.pointer f = .loaded) ∧
        ∀ f ∈ calledIfSet E.header m, E.pointer f ≠ .closed := by
  have hgroups := E.header.groups_ne
  have htest := loaded_of_ne_null_iff (E.pointer .sendMessage)
  have hsets := E.header.carSets_ne
  simp only [allEffects_car, allEffects_sendCarEvent, allEffects_setCarInfo, Effect.Usable,
    calledUntested, calledIfSet, hg]
  grind

private theorem usable_mcu_iff (hg : m.msgGroup.toNat = E.header.msgGroupMcu ∨
      m.msgGroup.toNat = E.header.msgGroupPassthroughO) :
    AllEffects Effect.Usable (ipcServerHandleMcuEvent E clientFd m) s ↔
      (∀ f ∈ calledUntested E.header m, E.pointer f = .loaded) ∧
        ∀ f ∈ calledIfSet E.header m, E.pointer f ≠ .closed := by
  have hgroups := E.header.groups_ne
  have hsend := loaded_of_ne_null_iff (E.pointer .sendMessage)
  have hcallback := loaded_of_ne_null_iff (E.pointer .messageDataCallbackFunc)
  have hflash := loaded_of_ne_null_iff (E.pointer .getMcuFlashMetaInfor)
  simp only [allEffects_mcu, allEffects_forwardMcuEvent, Effect.Usable, calledUntested,
    calledIfSet]
  grind

/-- Handling a message is free of unusable calls exactly when the untested pointers it calls
are loaded and the tested ones are not closed. -/
theorem usable_dispatch_iff :
    AllEffects Effect.Usable (dispatch E clientFd m) s ↔
      (∀ f ∈ calledUntested E.header m, E.pointer f = .loaded) ∧
        ∀ f ∈ calledIfSet E.header m, E.pointer f ≠ .closed := by
  have hconfig := selectHandler_eq_config_iff E.header m.msgGroup
  have hcar := selectHandler_eq_car_iff E.header m.msgGroup
  have hmcu := selectHandler_eq_mcu_iff E.header m.msgGroup
  -- the other handlers call nothing
  have hnone (hc : m.msgGroup.toNat ≠ E.header.msgGroupIpcConfig)
      (hr : m.msgGroup.toNat ≠ E.header.msgGroupCar)
      (hu : ¬ (m.msgGroup.toNat = E.header.msgGroupMcu ∨
        m.msgGroup.toNat = E.header.msgGroupPassthroughO)) :
      calledUntested E.header m = [] ∧ calledIfSet E.header m = [] := by
    simp only [calledUntested, calledIfSet, hc, hr, not_or.mp hu]
    exact ⟨rfl, rfl⟩
  rw [allEffects_dispatch]
  cases h : selectHandler E.header m.msgGroup with
  | config => exact (and_iff_right trivial).trans (usable_config_iff clientFd m s (hconfig.mp h))
  | car => exact (and_iff_right trivial).trans (usable_car_iff clientFd m s (hcar.mp h))
  | mcu => exact (and_iff_right trivial).trans (usable_mcu_iff clientFd m s (hmcu.mp h))
  | help =>
    rw [h] at hconfig hcar hmcu
    obtain ⟨hu, hi⟩ := hnone (by simpa using hconfig) (by simpa using hcar) (by simpa using hmcu)
    simp [Handler.function, allEffects_help, Effect.Usable, hu, hi]
  | calculation =>
    rw [h] at hconfig hcar hmcu
    obtain ⟨hu, hi⟩ := hnone (by simpa using hconfig) (by simpa using hcar) (by simpa using hmcu)
    simp [Handler.function, allEffects_calculation, Effect.Usable, hu, hi]

variable (E)

/-- The environment that the initialisation leaves behind. -/
def Environment.initialized (opened : Bool) (found : String → Bool) : Environment :=
  { E with pointer := (ipcServerInitializeOtsm opened found).1 }

/-- For each outcome of the initialisation and each sequence of valid messages, in any state:
no handler calls an unusable pointer, exactly when the library is fully loaded, or no message
of the sequence calls a pointer untested, or one under a null test that was resolved before
the library was closed. -/
theorem usable_handleMessages_iff (opened : Bool) (found : String → Bool)
    (messages : List (Int × ValidMessage)) :
    AllEffects Effect.Usable (handleMessages (E.initialized opened found) messages) s ↔
      FullyLoaded opened found ∨
        ∀ p ∈ messages, calledUntested E.header p.2.val = [] ∧
          ∀ f ∈ calledIfSet E.header p.2.val, ¬ (opened = true ∧ f ∈ resolvedFirst found) := by
  have hpointer (f : OtsmFunction) : (E.initialized opened found).pointer f = _ :=
    ipcServerInitializeOtsm_pointer opened found f
  rw [allEffects_handleMessages (E.initialized opened found)
    (fun p s ↦ usable_dispatch_iff p.1 p.2.val s) messages s]
  by_cases h : FullyLoaded opened found
  · simp only [hpointer, h]
    simp
  · simp only [hpointer, h, if_false, false_or]
    refine forall₂_congr fun p _ ↦ and_congr ?_ (forall₂_congr fun f _ ↦ ?_)
    · rw [List.eq_nil_iff_forall_not_mem]
      refine forall_congr' fun f ↦ ?_
      split_ifs <;> simp [Environment.initialized]
    · split_ifs with hf <;> simp [hf]

/-- A request to overwrite the state of the battery. -/
def setBattery : ValidMessage := ⟨DataMessage.ofPayload 6 28 [1], rfl⟩

/-- A request to save the settings. -/
def settingSave : ValidMessage := ⟨DataMessage.ofPayload 6 20 [], rfl⟩

/-- Without the library, the first request is a call through null. With the last symbol
missing, the second passes its null test and calls into the closed library. -/
theorem not_usable_handleMessages :
    ¬ AllEffects Effect.Usable (handleMessages
        (Environment.sample.initialized false fun _ ↦ true) [(5, setBattery)])
        ServerState.init ∧
      ¬ AllEffects Effect.Usable (handleMessages
        (Environment.sample.initialized true (· ≠ "ipc_notify_message_to_mcu"))
        [(5, settingSave)]) ServerState.init := by
  refine ⟨fun h ↦ ?_, fun h ↦ ?_⟩
  · have hcall : Effect.otsmCall (.getInfo .getBatteryInfo) .null ∈
        (handleMessages (Environment.sample.initialized false fun _ ↦ true) [(5, setBattery)]
          ServerState.init).effects := by
      decide
    exact absurd (h _ hcall) (by simp [Effect.Usable])
  · have hcall : Effect.otsmCall (.sendMessage 50 43 20 0) .closed ∈
        (handleMessages (Environment.sample.initialized true (· ≠ "ipc_notify_message_to_mcu"))
          [(5, settingSave)] ServerState.init).effects := by
      decide
    exact absurd (h _ hcall) (by simp [Effect.Usable])

end OctopusIpc.Server

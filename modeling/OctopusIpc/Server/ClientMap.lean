import OctopusIpc.Base.KeyedMap
import OctopusIpc.Base.StepSystem
import OctopusIpc.Server.Registry

/-!
# The registry as a finite map

What the registry is for: the flag and the address of each client, by the number of its
descriptor. The operations under `clients_mutex` come one after another in any order, a client
being added only while its number is absent.
-/

namespace OctopusIpc.Server

/-- The flag and the address of each client. -/
abbrev ClientMap := Finmap fun _ : Int ↦ Bool × List UInt8

/-- What the map keeps of a record. -/
def ClientInfo.entry (r : ClientInfo) : Bool × List UInt8 := (r.flag, r.ip)

/-- A configuration command on the entry of a client. -/
def Update.onEntry : Update → Bool × List UInt8 → Bool × List UInt8
  | flag newFlag, entry => (newFlag, entry.2)
  | ip newIp, entry => (entry.1, newIp)

/-- An operation on the registry. -/
inductive RegistryOperation where
  | add (fd : Int) (ip : List UInt8) (flag : Bool)
  | remove (fd : Int)
  | update (fd : Int) (u : Update)

namespace RegistryOperation

/-- The number it is about. -/
def fd : RegistryOperation → Int
  | add fd _ _ | remove fd | update fd _ => fd

/-- The operation of the source. -/
def onClients (clients : ActiveClients) : RegistryOperation → ActiveClients
  | add fd ip flag => ipcServerAddClient clients fd ip flag
  | remove fd => ipcServerRemoveClient clients fd
  | update fd u => u.onClients clients fd

/-- The operation on the map. -/
def onMap (m : ClientMap) : RegistryOperation → ClientMap
  | add fd ip flag => m.insert fd (flag, ip)
  | remove fd => m.erase fd
  | update fd u => KeyedSet.adjust m fd u.onEntry

/-- The operation on the record of its number. -/
def onRecord : RegistryOperation → Option ClientInfo → Option ClientInfo
  | add fd ip flag, none => some ⟨fd, flag, ip⟩
  | add _ _ _, some r => some r
  | remove _, _ => none
  | update _ u, r => r.map u.onRecord

/-- A client is added only while its number is absent. -/
def Possible (clients : ActiveClients) : RegistryOperation → Prop
  | add fd _ _ => clients.find? fd = none
  | remove _ | update _ _ => True

instance (clients : ActiveClients) : (op : RegistryOperation) → Decidable (op.Possible clients)
  | add _ _ _ => inferInstanceAs (Decidable (_ = none))
  | remove _ | update _ _ => inferInstanceAs (Decidable True)

end RegistryOperation

/-- The operations on the registry as a transition system. -/
def registry : StepSystem ActiveClients RegistryOperation :=
  StepSystem.ofCommands KeyedSet.empty RegistryOperation.Possible RegistryOperation.onClients

/-- The map that the registry stands for. -/
def clientMap (clients : ActiveClients) : ClientMap := clients.toFinmap ClientInfo.entry

/-- At most one record has a number, and the records are the entries of the map. -/
structure SimulatesMap (clients : ActiveClients) (m : ClientMap) : Prop where
  unique : ∀ r ∈ clients.elems, ∀ r' ∈ clients.elems, r.fd = r'.fd → r = r'
  same : clientMap clients = m

/-- Each operation changes the record of its own number, in the field it is about, and nothing
else, so that operations on different numbers can be exchanged. -/
structure ActsOnOwnRecord (clients : ActiveClients) : Prop where
  flag : ∀ fd newFlag r, clients.find? fd = some r →
    (ipcServerUpdateClientFlag clients fd newFlag).find? fd = some { r with flag := newFlag }
  ip : ∀ fd ip r, clients.find? fd = some r →
    (ipcServerUpdateClientIp clients fd ip).find? fd = some { r with ip := ip }
  frame : ∀ (op : RegistryOperation) k, k ≠ op.fd →
    (op.onClients clients).find? k = clients.find? k
  updateAbsent : ∀ fd (u : Update), clients.find? fd = none → u.onClients clients fd = clients
  removeAbsent : ∀ fd, clients.find? fd = none → ipcServerRemoveClient clients fd = clients
  commute : ∀ op op' : RegistryOperation, op.fd ≠ op'.fd → ∀ r,
    r ∈ (op'.onClients (op.onClients clients)).elems ↔
      r ∈ (op.onClients (op'.onClients clients)).elems

variable {clients : ActiveClients} {op op' : RegistryOperation} {ops : List RegistryOperation}

/-! ### One operation -/

/-- What is found under a number after an operation. -/
theorem find?_operation (clients : ActiveClients) (op : RegistryOperation) (k : Int) :
    (op.onClients clients).find? k =
      if op.fd = k then op.onRecord (clients.find? k) else clients.find? k := by
  cases op with
  | add fd ip flag =>
    have hadd := find?_ipcServerAddClient clients fd ip flag k
    by_cases hk : fd = k
    · refine hadd.trans (Eq.trans ?_ (if_pos hk).symm)
      cases hfind : clients.find? k with
      | none => exact if_pos ⟨hk, rfl⟩
      | some r =>
        refine if_neg ?_
        rintro ⟨-, ⟨⟩⟩
    · exact (hadd.trans (if_neg fun h ↦ hk h.1)).trans (if_neg hk).symm
  | remove fd => exact find?_ipcServerRemoveClient clients fd k
  | update fd u => exact find?_onClients clients fd k u

/-- A record of another number stays what it is. -/
theorem find?_operation_of_ne {k : Int} (h : k ≠ op.fd) :
    (op.onClients clients).find? k = clients.find? k :=
  (find?_operation clients op k).trans (if_neg h.symm)

/-- Operations on different numbers can be exchanged. -/
theorem mem_operation_comm (h : op.fd ≠ op'.fd) (r : ClientInfo) :
    r ∈ (op'.onClients (op.onClients clients)).elems ↔
      r ∈ (op.onClients (op'.onClients clients)).elems := by
  refine KeyedSet.mem_iff_of_find?_eq (fun k ↦ ?_) r
  rw [find?_operation (op.onClients clients) op', find?_operation (op'.onClients clients) op]
  by_cases hk : op.fd = k
  · have hk' : op'.fd ≠ k := fun hk' ↦ h (hk.trans hk'.symm)
    rw [if_neg hk', if_pos hk, find?_operation_of_ne hk'.symm, find?_operation clients op,
      if_pos hk]
  · have hne : k ≠ op.fd := Ne.symm hk
    rw [if_neg hk, find?_operation_of_ne hne, find?_operation clients op']

/-- An update of an absent client does nothing. -/
theorem onClients_of_absent {fd : Int} (h : clients.find? fd = none) (u : Update) :
    u.onClients clients fd = clients := by
  cases u with
  | flag | ip => exact KeyedSet.replace_of_find?_eq_none h _

/-- For every registry. -/
theorem actsOnOwnRecord (clients : ActiveClients) : ActsOnOwnRecord clients where
  flag fd newFlag r h := by rw [find?_ipcServerUpdateClientFlag, if_pos rfl, h, Option.map_some]
  ip fd ip r h := by rw [find?_ipcServerUpdateClientIp, if_pos rfl, h, Option.map_some]
  frame _ _ h := find?_operation_of_ne h
  updateAbsent _ u h := onClients_of_absent h u
  removeAbsent _ h := KeyedSet.erase_of_find?_eq_none h
  commute _ _ h := mem_operation_comm h

/-! ### Sequences of operations -/

/-- An operation on the registry is the one on the map. -/
theorem clientMap_onClients (h : op.Possible clients) :
    clientMap (op.onClients clients) = op.onMap (clientMap clients) := by
  cases op with
  | add fd ip flag => exact KeyedSet.toFinmap_insert h
  | remove fd => exact KeyedSet.toFinmap_erase
  | update fd u =>
    cases u with
    | flag newFlag => exact KeyedSet.toFinmap_replace (fun _ ↦ rfl) fun _ ↦ rfl
    | ip newIp => exact KeyedSet.toFinmap_replace (fun _ ↦ rfl) fun _ ↦ rfl

private theorem clientMap_of_run {clients' : ActiveClients}
    (hrun : registry.run (fun _ _ ↦ True) clients ops = some clients') :
    clientMap clients' = ops.foldl RegistryOperation.onMap (clientMap clients) := by
  induction ops generalizing clients with
  | nil =>
    cases hrun
    rfl
  | cons op ops ih =>
    obtain ⟨-, hpossible, hrun⟩ := StepSystem.run_cons_of_commands_iff.mp hrun
    rw [ih hrun, clientMap_onClients hpossible, List.foldl_cons]

/-- Whatever sequence of operations is made on the empty registry, it stands for the map that
the same operations make of the empty map, and each further operation acts on its own record. -/
theorem simulatesMap_of_run
    (hrun : registry.run (fun _ _ ↦ True) KeyedSet.empty ops = some clients) :
    SimulatesMap clients (ops.foldl RegistryOperation.onMap ∅) ∧ ActsOnOwnRecord clients := by
  refine ⟨⟨fun r hr r' hr' ↦ ?_, ?_⟩, actsOnOwnRecord clients⟩
  · exact List.inj_on_of_nodup_map clients.nodup hr hr'
  · rw [clientMap_of_run hrun, clientMap, KeyedSet.toFinmap_empty]

/-- Two clients are added and configured, a third is not there, and the second is removed. -/
def twoConfigured : List RegistryOperation :=
  [.add 5 [] true, .add 6 [49] false, .update 5 (.ip [55]), .update 6 (.flag true),
    .update 7 (.flag true), .remove 7, .remove 6]

theorem simulatesMap_twoConfigured :
    ∃ clients : ActiveClients, clients.elems = [⟨5, true, [55]⟩] ∧
      SimulatesMap clients (twoConfigured.foldl RegistryOperation.onMap ∅) ∧
      ActsOnOwnRecord clients := by
  have hrun : ∃ clients, registry.run (fun _ _ ↦ True) KeyedSet.empty twoConfigured =
      some clients ∧ clients.elems = [⟨5, true, [55]⟩] := ⟨_, rfl, rfl⟩
  obtain ⟨clients, hs, helems⟩ := hrun
  exact ⟨clients, helems, simulatesMap_of_run hs⟩

end OctopusIpc.Server

import OctopusIpc.Base.KeyedSet

/-!
# The registry of active clients

`active_clients` of `src/IPC/octopus_ipc_server.cpp` and the operations on it, each of which
runs as a whole under `clients_mutex`. The set's equality and hash look at the descriptor
number only, so a record stays what it is when its number is added again.
-/

namespace OctopusIpc.Server

/-- Fields of a record; `src/IPC/octopus_ipc_socket.hpp:46–50`. -/
structure ClientInfo where
  fd : Int
  flag : Bool
  ip : List UInt8
  deriving DecidableEq, Repr

/-- `std::unordered_set<ClientInfo>`; `src/IPC/octopus_ipc_socket.hpp:57–60,79–89`. -/
abbrev ActiveClients := KeyedSet ClientInfo ClientInfo.fd

/-- `src/IPC/octopus_ipc_server.cpp:114–118`. -/
def ipcServerAddClient (clients : ActiveClients) (fd : Int) (ip : List UInt8) (flag : Bool) :
    ActiveClients :=
  clients.insert ⟨fd, flag, ip⟩

/-- `src/IPC/octopus_ipc_server.cpp:120–131`. -/
def ipcServerRemoveClient (clients : ActiveClients) (fd : Int) : ActiveClients :=
  clients.erase fd

/-- The update of the flag; `src/IPC/octopus_ipc_server.cpp:157–179`. -/
def ipcServerUpdateClientFlag (clients : ActiveClients) (fd : Int) (newFlag : Bool) :
    ActiveClients :=
  clients.replace fd fun c ↦ { c with flag := newFlag }

/-- The update of the address; `src/IPC/octopus_ipc_server.cpp:181–203`. -/
def ipcServerUpdateClientIp (clients : ActiveClients) (fd : Int) (ip : List UInt8) :
    ActiveClients :=
  clients.replace fd fun c ↦ { c with ip := ip }

/-- Adding a client whose number is absent stores its record and no other. -/
theorem find?_ipcServerAddClient (clients : ActiveClients) (fd : Int) (ip : List UInt8)
    (flag : Bool) (k : Int) :
    (ipcServerAddClient clients fd ip flag).find? k =
      if fd = k ∧ clients.find? k = none then some ⟨fd, flag, ip⟩ else clients.find? k :=
  KeyedSet.find?_insert _ _ _

/-- Removing a client removes the record of its number and no other. -/
theorem find?_ipcServerRemoveClient (clients : ActiveClients) (fd k : Int) :
    (ipcServerRemoveClient clients fd).find? k = if fd = k then none else clients.find? k :=
  KeyedSet.find?_erase _ _ _

/-- Updating a flag changes that field of the one record. -/
theorem find?_ipcServerUpdateClientFlag (clients : ActiveClients) (fd k : Int) (f : Bool) :
    (ipcServerUpdateClientFlag clients fd f).find? k =
      if fd = k then (clients.find? k).map fun c ↦ { c with flag := f } else clients.find? k :=
  KeyedSet.find?_replace _ _ _ _ fun _ ↦ rfl

/-- Updating an address changes that field of the one record. -/
theorem find?_ipcServerUpdateClientIp (clients : ActiveClients) (fd k : Int) (ip : List UInt8) :
    (ipcServerUpdateClientIp clients fd ip).find? k =
      if fd = k then (clients.find? k).map fun c ↦ { c with ip := ip } else clients.find? k :=
  KeyedSet.find?_replace _ _ _ _ fun _ ↦ rfl

/-! ### Configuration commands -/

/-- A configuration command. -/
inductive Update where
  | flag (newFlag : Bool)
  | ip (newIp : List UInt8)

/-- A configuration command on the registry. -/
def Update.onClients (clients : ActiveClients) (fd : Int) : Update → ActiveClients
  | flag newFlag => ipcServerUpdateClientFlag clients fd newFlag
  | ip newIp => ipcServerUpdateClientIp clients fd newIp

/-- A configuration command on one record. -/
def Update.onRecord : Update → ClientInfo → ClientInfo
  | flag newFlag, r => { r with flag := newFlag }
  | ip newIp, r => { r with ip := newIp }

/-- A configuration command on the registry is one on the record of the number. -/
theorem find?_onClients (clients : ActiveClients) (fd k : Int) (u : Update) :
    (u.onClients clients fd).find? k =
      if fd = k then (clients.find? k).map u.onRecord else clients.find? k := by
  cases u with
  | flag newFlag => exact find?_ipcServerUpdateClientFlag ..
  | ip newIp => exact find?_ipcServerUpdateClientIp ..

end OctopusIpc.Server

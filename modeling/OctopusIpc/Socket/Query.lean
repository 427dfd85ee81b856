import Mathlib.Init

/-!
# Results of one read

The `QueryResult` values that `Socket::get_query` and `Socket::get_response_with_epoll`
hand to their callers. A successful result carries what one `read()` put into the stack
buffer, so its bytes are never empty and never more than the buffer holds.
-/

namespace OctopusIpc.Socket

/-- `IPC_SOCKET_QUERY_BUFFER_SIZE` and `IPC_SOCKET_RESPONSE_BUFFER_SIZE`;
`src/IPC/octopus_ipc_socket.hpp:42–43`. -/
def bufferSize : Nat := 255

/-- The bytes of one successful `read()` into a buffer of that size. -/
structure Chunk where
  bytes : List UInt8
  nonempty : bytes ≠ []
  fits : bytes.length ≤ bufferSize

/-- `QueryStatus` with the data of a success; `src/IPC/octopus_ipc_socket.hpp:63–76`. Every
other status is returned with an empty vector. -/
inductive QueryResult where
  | success (data : Chunk)
  | timeout
  | disconnected
  | error

namespace QueryResult

/-- The data vector of a result. -/
def data : QueryResult → List UInt8
  | success c => c.bytes
  | _ => []

/-- The result leaves the connection open. -/
def Alive : QueryResult → Prop
  | success _ | timeout => True
  | disconnected | error => False

end QueryResult

/-- All bytes of a sequence of results. -/
def received (results : List QueryResult) : List UInt8 := results.flatMap QueryResult.data

@[simp] theorem received_nil : received [] = [] := rfl

@[simp] theorem received_append (rs rs' : List QueryResult) :
    received (rs ++ rs') = received rs ++ received rs' := List.flatMap_append

@[simp] theorem received_singleton (r : QueryResult) : received [r] = r.data :=
  List.append_nil _

end OctopusIpc.Socket

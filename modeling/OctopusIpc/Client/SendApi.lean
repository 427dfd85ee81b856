import OctopusIpc.Protocol.DataMessage

/-!
# The sending functions of the client library

`ipc_app_send_query`, `ipc_app_send_command` and `ipc_send_message_queue` up to the bytes
they hand to `send_query`. Each function fills in the length field of its message in its own
way, and the frame is faithful exactly when that field says how long the payload is. Every
read of `socket_client` may find another value, so the reads of a call are numbered.
-/

namespace OctopusIpc.Client
open OctopusIpc.Protocol

/-- The bytes a `send_query` on this descriptor transmits when its write accepts them, nothing
being accepted on a negative one; `src/IPC/octopus_ipc_socket.cpp:468–485`. -/
def clientSendQuery (socketFd : Int) (serializedData : List UInt8) : Option (List UInt8) :=
  if socketFd < 0 then none else some serializedData

/-- `src/APP/octopus_ipc_app_client.cpp:205–222`. -/
def ipcAppSendQuery (socketClient : Nat → Int) (group msg : UInt8) (queryArray : List UInt8) :
    Option (List UInt8) :=
  if socketClient 0 < 0 then none
  else
    let queryMsg : DataMessage :=
      { DataMessage.new with
        msgGroup := group
        msgId := msg
        data := queryArray
        msgLength := UInt16.ofNat queryArray.length }
    clientSendQuery (socketClient 1) queryMsg.serializeMessage

/-- `src/APP/octopus_ipc_app_client.cpp:225–240`, which leaves the length field alone. -/
def ipcAppSendCommand (socketClient : Nat → Int) (group msg : UInt8) (parameters : List UInt8) :
    Option (List UInt8) :=
  if socketClient 0 < 0 then none
  else
    let queryMsg : DataMessage :=
      { DataMessage.new with
        msgGroup := group
        msgId := msg
        data := parameters }
    clientSendQuery (socketClient 1) queryMsg.serializeMessage

/-- `max_wait_time_ms` in units of `retry_interval_ms`;
`src/APP/octopus_ipc_app_client.cpp:785–786`. -/
def maxWaitRounds : Nat := 100

/-- The number of reads of `socket_client` the wait loop makes;
`src/APP/octopus_ipc_app_client.cpp:791–796`. -/
def waitForSocket (socketClient : Nat → Int) : (rounds read : Nat) → Nat
  | 0, read => read + 1
  | rounds + 1, read =>
    if socketClient read < 0 then waitForSocket socketClient rounds (read + 1) else read + 1

/-- The task of `ipc_send_message_queue_delayed`, run after its delay;
`src/APP/octopus_ipc_app_client.cpp:782–817`. -/
def delayedSend (socketClient : Nat → Int) (copiedMsg : DataMessage) : Option (List UInt8) :=
  let reads := waitForSocket socketClient maxWaitRounds 0
  if socketClient reads < 0 then none
  else clientSendQuery (socketClient (reads + 1)) copiedMsg.serializeMessage

/-- `src/APP/octopus_ipc_app_client.cpp:831–844`. A vector of negative size is not constructed,
its constructor throws. -/
def ipcSendMessageQueue (socketClient : Nat → Int) (group msgId : UInt8)
    (messageData : Option (List UInt8)) (messageSize : Int) : Option (List UInt8) :=
  match messageData with
  | none => none
  | some bytes =>
    if messageSize < 0 then none
    else delayedSend socketClient (DataMessage.ofPayload group msgId (bytes.take messageSize.toNat))

/-! ### Calls -/

/-- A call of one of the functions. -/
inductive SendCall where
  | query (group msg : UInt8) (queryArray : List UInt8)
  | command (group msg : UInt8) (parameters : List UInt8)
  | messageQueue (group msgId : UInt8) (messageData : Option (List UInt8)) (messageSize : Int)
  deriving DecidableEq, Repr

namespace SendCall

/-- The bytes a call transmits, if it transmits any. -/
def transmitted (socketClient : Nat → Int) : SendCall → Option (List UInt8)
  | query group msg queryArray => ipcAppSendQuery socketClient group msg queryArray
  | command group msg parameters => ipcAppSendCommand socketClient group msg parameters
  | messageQueue group msgId messageData messageSize =>
    ipcSendMessageQueue socketClient group msgId messageData messageSize

/-- The group, id and payload the caller gives. -/
def given : SendCall → UInt8 × UInt8 × List UInt8
  | query group msg queryArray => (group, msg, queryArray)
  | command group msg parameters => (group, msg, parameters)
  | messageQueue group msgId messageData _ => (group, msgId, messageData.getD [])

/-- A buffer is as long as the size given for it. -/
def BufferOfSize : SendCall → Prop
  | messageQueue _ _ (some bytes) messageSize => 0 ≤ messageSize → bytes.length = messageSize.toNat
  | _ => True

/-- The bytes are one frame, which decodes to a valid message with what the caller gave. -/
def Faithful (call : SendCall) (bytes : List UInt8) : Prop :=
  let m := DataMessage.deserializeMessage bytes
  m.isValid = true ∧ (m.msgGroup, m.msgId, m.data) = call.given ∧ m.getTotalLength = bytes.length

/-- The length field says how long the payload is. -/
def KeepsLength : SendCall → Prop
  | query _ _ queryArray => queryArray.length < 65536
  | command _ _ parameters => parameters = []
  | messageQueue _ _ messageData messageSize => messageData ≠ none → messageSize < 65536

/-- Serialised bytes that decode to a valid message of their own length come from a valid one. -/
theorem isValid_of_decoded {m : DataMessage}
    (hvalid : (DataMessage.deserializeMessage m.serializeMessage).isValid = true)
    (hlength : (DataMessage.deserializeMessage m.serializeMessage).getTotalLength =
      m.serializeMessage.length) : m.isValid = true := by
  rw [DataMessage.length_serializeMessage] at hlength
  simp only [DataMessage.getTotalLength, Nat.add_left_cancel_iff] at hlength
  obtain ⟨hheader, hlen⟩ := (DataMessage.isValid_iff _).mp hvalid
  rw [hlength] at hlen
  simp only [DataMessage.serializeMessage, List.cons_append, List.nil_append,
    DataMessage.deserializeMessage, BigEndian.join_high_low] at hheader hlen
  exact (DataMessage.isValid_iff m).mpr ⟨hheader, hlen⟩

/-- A serialised message that carries what the caller gave is a faithful frame exactly when it
is valid. -/
theorem faithful_serializeMessage_iff {call : SendCall} {m : DataMessage}
    (h : (m.msgGroup, m.msgId, m.data) = call.given) :
    call.Faithful m.serializeMessage ↔ m.isValid = true := by
  constructor
  · rintro ⟨hvalid, -, hlength⟩
    exact isValid_of_decoded hvalid hlength
  · intro hvalid
    have hdecoded : DataMessage.deserializeMessage m.serializeMessage = m :=
      DataMessage.deserializeMessage_of_prefix hvalid (List.prefix_refl _)
    rw [Faithful, hdecoded]
    exact ⟨hvalid, h, (DataMessage.length_serializeMessage m).symm⟩

/-- A length that is written to a 16-bit field is kept below `2 ^ 16` only. -/
theorem isValid_ofPayload_iff (group msgId : UInt8) (payload : List UInt8) :
    (DataMessage.ofPayload group msgId payload).isValid = true ↔ payload.length < 65536 := by
  rw [DataMessage.isValid_iff]
  simp only [DataMessage.ofPayload, true_and, UInt16.toNat_ofNat']
  omega

/-! ### On a live connection -/

/-- The connection is open at every read of `socket_client`. -/
def Live (socketClient : Nat → Int) : Prop := ∀ k, 0 ≤ socketClient k

variable {socketClient : Nat → Int}

private theorem Live.clientSendQuery (h : Live socketClient) (k : Nat) (bytes : List UInt8) :
    Client.clientSendQuery (socketClient k) bytes = some bytes :=
  if_neg (Int.not_lt.mpr (h k))

/-- On a live connection the task does not wait and sends its message. -/
theorem Live.delayedSend (h : Live socketClient) (copiedMsg : DataMessage) :
    Client.delayedSend socketClient copiedMsg = some copiedMsg.serializeMessage := by
  unfold Client.delayedSend
  rw [if_neg (Int.not_lt.mpr (h _)), h.clientSendQuery]

private theorem forall_eq_some_iff {α : Type} {P : α → Prop} (x : α) :
    (∀ y, some x = some y → P y) ↔ P x :=
  ⟨fun h ↦ h x rfl, fun h _ hy ↦ Option.some.inj hy ▸ h⟩

/-- On a live connection a call transmits nothing or one frame with exactly the group, id and
payload it was given, exactly when it is a query of less than `2 ^ 16` bytes, a command without
parameters, or a queued message that is null or of a size below `2 ^ 16`. -/
theorem faithful_transmitted_iff (hlive : Live socketClient) (call : SendCall)
    (hbuffer : call.BufferOfSize) :
    (∀ bytes, call.transmitted socketClient = some bytes → call.Faithful bytes) ↔
      call.KeepsLength := by
  cases call with
  | query group msg queryArray =>
    have hsent : (query group msg queryArray).transmitted socketClient =
        some (DataMessage.ofPayload group msg queryArray).serializeMessage :=
      (if_neg (Int.not_lt.mpr (hlive 0))).trans (hlive.clientSendQuery 1 _)
    rw [hsent, forall_eq_some_iff, faithful_serializeMessage_iff rfl]
    exact isValid_ofPayload_iff group msg queryArray
  | command group msg parameters =>
    have hsent : (command group msg parameters).transmitted socketClient =
        some (DataMessage.mk DataMessage.header group msg 0 parameters).serializeMessage :=
      (if_neg (Int.not_lt.mpr (hlive 0))).trans (hlive.clientSendQuery 1 _)
    rw [hsent, forall_eq_some_iff, faithful_serializeMessage_iff rfl, DataMessage.isValid_iff]
    simp only [true_and, KeepsLength]
    exact eq_comm.trans List.length_eq_zero_iff
  | messageQueue group msgId messageData messageSize =>
    cases messageData with
    | none => exact iff_of_true nofun fun h ↦ absurd rfl h
    | some bytes =>
      by_cases hneg : messageSize < 0
      · have hsent : (messageQueue group msgId (some bytes) messageSize).transmitted socketClient =
            none := if_pos hneg
        rw [hsent]
        exact iff_of_true nofun fun _ ↦ by omega
      · have hlength : bytes.length = messageSize.toNat := hbuffer (Int.not_lt.mp hneg)
        have hsent : (messageQueue group msgId (some bytes) messageSize).transmitted socketClient =
            some (DataMessage.ofPayload group msgId bytes).serializeMessage := by
          refine (if_neg hneg).trans ?_
          rw [hlive.delayedSend, ← hlength, List.take_length]
        rw [hsent, forall_eq_some_iff, faithful_serializeMessage_iff rfl, isValid_ofPayload_iff,
          hlength]
        simp only [KeepsLength, ne_eq, reduceCtorEq, not_false_eq_true, forall_const]
        omega

/-- A queued message of one byte is a faithful frame. -/
theorem faithful_queued_byte :
    (messageQueue 2 1 (some [7]) 1).transmitted (fun _ ↦ 5) = some [0xA5, 0xA5, 2, 1, 0, 1, 7] ∧
      (messageQueue 2 1 (some [7]) 1).Faithful [0xA5, 0xA5, 2, 1, 0, 1, 7] := by
  have hlive : Live fun _ ↦ 5 := fun _ ↦ (by decide : (0 : Int) ≤ 5)
  have hsize : (1 : Int) < 65536 := by decide
  have hsent : (messageQueue 2 1 (some [7]) 1).transmitted (fun _ ↦ 5) =
      some [0xA5, 0xA5, 2, 1, 0, 1, 7] := rfl
  have hfaithful := faithful_transmitted_iff hlive (messageQueue 2 1 (some [7]) 1) fun _ ↦ rfl
  exact ⟨hsent, hfaithful.mpr (fun _ ↦ hsize) _ hsent⟩

/-- A command with a parameter arrives as a command without one. -/
theorem not_faithful_command_byte :
    Live (fun _ ↦ 5) ∧
      (command 2 1 [7]).transmitted (fun _ ↦ 5) = some [0xA5, 0xA5, 2, 1, 0, 0, 7] ∧
      ¬ (command 2 1 [7]).Faithful [0xA5, 0xA5, 2, 1, 0, 0, 7] := by
  refine ⟨fun _ ↦ (by decide : (0 : Int) ≤ 5), rfl, ?_⟩
  rintro ⟨-, hgiven, -⟩
  cases hgiven

end SendCall

end OctopusIpc.Client

import OctopusIpc.Server.Subscriptions

/-!
# The address a client sends

A configuration message with the client's address carries a text and nothing else, and the
whole of it is stored. The handler has taken its first byte for the number of the client to
configure before it looks at the command.
-/

namespace OctopusIpc.Server
open OctopusIpc.Protocol Traced

variable {E : Environment} {m : DataMessage} {s : ServerState} {c : Int} {record : ClientInfo}

/-- The message sets the address of the client that its first byte names. -/
theorem activeClients_configIp (sender : Int) (s : ServerState)
    (hip : m.msgId.toNat = E.header.msgIpcCmdConfigIp)
    (hflag : E.header.msgIpcCmdConfigIp ≠ E.header.msgIpcCmdConfigFlag)
    (hdelay : E.header.msgIpcCmdConfigIp ≠ E.header.msgIpcCmdConfigPushDelay) :
    (ipcServerHandleConfigEvent E sender m s).state.activeClients =
      ipcServerUpdateClientIp s.activeClients (namedBy sender m.data) m.data := by
  have hzero (b : UInt8) : b ≤ 0 ↔ b = 0 := by
    rw [UInt8.le_iff_toNat_le, ← UInt8.toNat_inj]
    exact Nat.le_zero
  have htarget : (configTarget E sender m.data s).value = namedBy sender m.data ∧
      (configTarget E sender m.data s).state = s := by
    cases hdata : m.data with
    | nil => exact ⟨rfl, rfl⟩
    | cons b rest => simp [configTarget, payloadAt, namedBy, hzero]
  simp only [ipcServerHandleConfigEvent, bind_apply, htarget.1, htarget.2]
  simp [configure, hip, hflag, hdelay, sendResponse, Traced.when]

/-- The record of the sender has the text as its address, and is otherwise as it was; all other
records are as they were. -/
def NamesSenderOnly (clients clients' : ActiveClients) (c : Int) (record : ClientInfo)
    (text : List UInt8) : Prop :=
  ∀ k, clients'.find? k = if k = c then some { record with ip := text } else clients.find? k

/-- Setting the address of another client names the sender only if it changes nothing that is
not there already. -/
theorem namesSenderOnly_update_iff {clients : ActiveClients} {fd : Int} {text : List UInt8}
    (hc : clients.find? c = some record) :
    NamesSenderOnly clients (ipcServerUpdateClientIp clients fd text) c record text ↔
      fd = c ∨ record.ip = text ∧ ∀ r, clients.find? fd = some r → r.ip = text := by
  have hset (r : ClientInfo) : r = { r with ip := text } ↔ r.ip = text := by
    constructor
    · exact fun h ↦ congrArg ClientInfo.ip h
    · rintro rfl
      rfl
  by_cases hfd : fd = c
  · refine iff_of_true (fun k ↦ ?_) (.inl hfd)
    rw [find?_ipcServerUpdateClientIp, hfd]
    by_cases hk : k = c
    · rw [if_pos hk.symm, if_pos hk, hk, hc, Option.map_some]
    · rw [if_neg (Ne.symm hk), if_neg hk]
  · rw [or_iff_right hfd]
    constructor
    · intro h
      constructor
      · have hsender := h c
        rw [find?_ipcServerUpdateClientIp, if_neg hfd, if_pos rfl, hc] at hsender
        exact (hset record).mp (Option.some.inj hsender)
      · intro r hr
        have hother := h fd
        rw [find?_ipcServerUpdateClientIp, if_pos rfl, if_neg hfd, hr, Option.map_some] at hother
        exact (hset r).mp (Option.some.inj hother).symm
    · rintro ⟨hsender, hother⟩ k
      rw [find?_ipcServerUpdateClientIp]
      by_cases hkc : k = c
      · have hkfd : fd ≠ k := hkc ▸ hfd
        rw [if_neg hkfd, if_pos hkc, hkc, hc, ← (hset record).mpr hsender]
      · rw [if_neg hkc]
        split
        · next hkfd =>
          subst hkfd
          cases hr : clients.find? fd with
          | none => rfl
          | some r => rw [Option.map_some, ← (hset r).mpr (hother r hr)]
        · rfl

/-- For every registry, every client in it and every text of an address message: the message
names its sender and nobody else if and only if the first byte of the text is zero or the
sender's own number, or the sender and the client that the byte names, if there is one, have
the text as their address already. -/
theorem namesSenderOnly_iff (hip : m.msgId.toNat = E.header.msgIpcCmdConfigIp)
    (hflag : E.header.msgIpcCmdConfigIp ≠ E.header.msgIpcCmdConfigFlag)
    (hdelay : E.header.msgIpcCmdConfigIp ≠ E.header.msgIpcCmdConfigPushDelay)
    (hc : s.activeClients.find? c = some record) (b : UInt8) (rest : List UInt8)
    (hdata : m.data = b :: rest) :
    NamesSenderOnly s.activeClients (ipcServerHandleConfigEvent E c m s).state.activeClients c
        record m.data ↔
      (b = 0 ∨ (b.toNat : Int) = c) ∨ record.ip = m.data ∧
        ∀ r, s.activeClients.find? b.toNat = some r → r.ip = m.data := by
  rw [activeClients_configIp c s hip hflag hdelay, namesSenderOnly_update_iff hc]
  have hnamed : namedBy c m.data = if b = 0 then c else (b.toNat : Int) := by rw [hdata, namedBy]
  rw [hnamed]
  by_cases hb : b = 0
  · rw [if_pos hb]
    exact iff_of_true (.inl rfl) (.inl (.inl hb))
  · rw [if_neg hb, or_iff_right hb]

/-- Two connected clients, the second under the number of the letter `o`. -/
def twoClients : ServerState :=
  { ServerState.init with
    activeClients := ipcServerAddClient (ipcServerAddClient KeyedSet.empty 5 [] true) 111 [] true }

/-- The text `octopus`. -/
def octopusText : DataMessage := DataMessage.ofPayload 2 3 [111, 99, 116, 111, 112, 117, 115]

/-- A text that starts with the number of its sender. -/
def ownNumberText : DataMessage := DataMessage.ofPayload 2 3 [5, 97]

theorem namesSenderOnly_ownNumber :
    NamesSenderOnly twoClients.activeClients
      (ipcServerHandleConfigEvent Environment.sample 5 ownNumberText twoClients).state.activeClients
      5 ⟨5, true, []⟩ ownNumberText.data :=
  (namesSenderOnly_iff (m := ownNumberText) rfl (by decide) (by decide) rfl 5 [97] rfl).mpr
    (.inl (.inr rfl))

/-- The text names another client, and its sender stays without an address. -/
theorem not_namesSenderOnly_octopus :
    octopusText.isValid = true ∧
      (ipcServerHandleConfigEvent Environment.sample 5 octopusText
        twoClients).state.activeClients.find? 111 = some ⟨111, true, octopusText.data⟩ ∧
      ¬ NamesSenderOnly twoClients.activeClients
        (ipcServerHandleConfigEvent Environment.sample 5 octopusText
          twoClients).state.activeClients 5 ⟨5, true, []⟩ octopusText.data := by
  refine ⟨rfl, rfl, fun h ↦ ?_⟩
  have hsender : some (⟨5, true, []⟩ : ClientInfo) = some ⟨5, true, octopusText.data⟩ := h 5
  cases hsender

end OctopusIpc.Server

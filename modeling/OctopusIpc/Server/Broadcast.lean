import Mathlib.Data.List.Perm.Basic
import OctopusIpc.Base.StepSystem
import OctopusIpc.Server.Handlers

/-!
# A broadcast while other threads change the registry

`ipc_server_mcu_message_data_callback` iterates over `active_clients` without taking
`clients_mutex`, while adding, removing and updating a client take it. The set is a chain of
nodes in its iteration order; an update erases the node of a client and inserts a new one. An
insertion may put its node anywhere, and reorder all nodes when it makes the set grow.
-/

namespace OctopusIpc.Server

/-- A node of the set. Addresses are not used twice. -/
structure Node where
  address : Nat
  record : ClientInfo
  deriving DecidableEq, Repr

/-- The descriptor number of a node's record. -/
def Node.fd (n : Node) : Int := n.record.fd

/-- `active_clients` as a chain of nodes in iteration order. -/
abbrev Nodes := KeyedSet Node Node.fd

/-- The registry in the nodes, without its order. -/
def Nodes.clients (nodes : Nodes) : ActiveClients :=
  ⟨nodes.elems.map Node.record, by
    rw [List.map_map]
    exact nodes.nodup⟩

/-- Where the iteration is. -/
inductive Cursor where
  | idle
  /-- At the node with an address, before or after the client was notified. -/
  | at (address : Nat) (notified : Bool)
  | finished
  deriving DecidableEq, Repr

/-- The set and the iteration over it. For the specification, the records for which the body
of the loop was run, and the clients registered with the flag set since the start. -/
structure Broadcast where
  nodes : Nodes
  nextAddress : Nat
  cursor : Cursor
  visited : List ClientInfo
  steady : Int → Bool

namespace Broadcast

/-- The steps of the broadcast and of other threads, an insertion with the iteration order
that it leaves. -/
inductive Action where
  /-- `src/IPC/octopus_ipc_server.cpp:269–275`. -/
  | start
  /-- The body of the loop; `src/IPC/octopus_ipc_server.cpp:279–302`. -/
  | notify
  /-- The iterator moves on; `src/IPC/octopus_ipc_server.cpp:275`. -/
  | advance
  /-- `ipc_server_add_client`. -/
  | add (fd : Int) (ip : List UInt8) (flag : Bool) (order : List Node)
  /-- `ipc_server_remove_client`. -/
  | remove (fd : Int)
  /-- `ipc_server_update_client`. -/
  | update (fd : Int) (u : Update) (order : List Node)

/-- No client and no broadcast. -/
def init : Broadcast := ⟨KeyedSet.empty, 0, .idle, [], fun _ ↦ false⟩

/-- The nodes in another order. -/
def reorder (nodes : Nodes) (order : List Node) : Nodes :=
  if h : order.Perm nodes.elems then ⟨order, (h.map Node.fd).nodup_iff.mpr nodes.nodup⟩
  else nodes

/-- The nodes after a change, before insertion has decided on their order. -/
def changed (s : Broadcast) : Action → Nodes
  | .add fd ip flag _ => s.nodes.insert ⟨s.nextAddress, ⟨fd, flag, ip⟩⟩
  | .remove fd => s.nodes.erase fd
  | .update fd u _ => s.nodes.replace fd fun n ↦ ⟨s.nextAddress, u.onRecord n.record⟩
  | .start | .notify | .advance => s.nodes

/-- The nodes after a change. -/
def nodesAfter (s : Broadcast) (a : Action) : Nodes :=
  match a with
  | .add _ _ _ order | .update _ _ order => reorder (s.changed a) order
  | .remove _ | .start | .notify | .advance => s.changed a

/-- The nodes in front of an address. -/
def behind (address : Nat) (elems : List Node) : List Node :=
  elems.takeWhile fun n ↦ n.address ≠ address

/-- The nodes after an address. -/
def ahead (address : Nat) (elems : List Node) : List Node :=
  (elems.dropWhile fun n ↦ n.address ≠ address).tail

/-- The iterator at the first of some nodes, or at the end. -/
def cursorAt : List Node → Cursor
  | [] => .finished
  | n :: _ => .at n.address false

/-- A client is registered with the flag set. -/
def wanted (nodes : Nodes) (fd : Int) : Bool := (nodes.find? fd).any fun n ↦ n.record.flag

/-- A node at the iterator, if the iterator still points to an element. -/
def current (s : Broadcast) : Option Node :=
  match s.cursor with
  | .at address _ => s.nodes.elems.find? fun n ↦ n.address = address
  | _ => none

/-- When a step can be taken; the body of the loop and the iterator need their node. -/
def Enabled (s : Broadcast) : Action → Prop
  | .start => s.cursor = .idle
  | .notify => ∃ n ∈ s.current, s.cursor = .at n.address false
  | .advance => ∃ n ∈ s.current, s.cursor = .at n.address true
  | .add fd ip flag order => order.Perm (s.changed (.add fd ip flag order)).elems ∧
      (s.nodes.find? fd ≠ none → order = s.nodes.elems)
  | .remove _ => True
  | .update fd u order => order.Perm (s.changed (.update fd u order)).elems ∧
      (s.nodes.find? fd = none → order = s.nodes.elems)

instance (s : Broadcast) : (a : Action) → Decidable (s.Enabled a)
  | .start => inferInstanceAs (Decidable (_ = _))
  | .notify | .advance => inferInstanceAs (Decidable (∃ n ∈ s.current, _))
  | .add _ _ _ _ | .update _ _ _ => inferInstanceAs (Decidable (_ ∧ (_ → _)))
  | .remove _ => inferInstanceAs (Decidable True)

/-- What a step does. -/
def apply (s : Broadcast) (a : Action) : Broadcast :=
  match a with
  | .start => { s with cursor := cursorAt s.nodes.elems, steady := wanted s.nodes }
  | .notify =>
    match s.current with
    | some n => { s with cursor := .at n.address true, visited := s.visited ++ [n.record] }
    | none => s
  | .advance =>
    match s.current with
    | some n => { s with cursor := cursorAt (ahead n.address s.nodes.elems) }
    | none => s
  | .add _ _ _ _ | .remove _ | .update _ _ _ =>
    { s with
      nodes := s.nodesAfter a
      nextAddress := s.nextAddress + 1
      steady := fun fd ↦ s.steady fd && wanted (s.nodesAfter a) fd }

/-- One broadcast and the threads that change the registry as a transition system. -/
def system : StepSystem Broadcast Action := StepSystem.ofCommands init Enabled apply

/-! ### The nodes and the registry -/

theorem find?_clients (nodes : Nodes) (k : Int) :
    nodes.clients.find? k = (nodes.find? k).map Node.record := by
  unfold KeyedSet.find? Nodes.clients
  rw [List.find?_map]
  rfl

theorem mem_reorder_iff (nodes : Nodes) (order : List Node) (n : Node) :
    n ∈ (reorder nodes order).elems ↔ n ∈ nodes.elems := by
  unfold reorder
  split
  · next h => exact h.mem_iff
  · rfl

theorem find?_reorder (nodes : Nodes) (order : List Node) (k : Int) :
    (reorder nodes order).find? k = nodes.find? k := by
  apply Option.ext
  intro n
  rw [KeyedSet.find?_eq_some_iff, KeyedSet.find?_eq_some_iff, mem_reorder_iff]

/-- Adding a client to the nodes is adding it to the registry. -/
theorem find?_clients_add (s : Broadcast) (fd : Int) (ip : List UInt8) (flag : Bool)
    (order : List Node) (k : Int) :
    (s.nodesAfter (.add fd ip flag order)).clients.find? k =
      (ipcServerAddClient s.nodes.clients fd ip flag).find? k := by
  rw [find?_clients, find?_ipcServerAddClient, nodesAfter, find?_reorder, changed,
    KeyedSet.find?_insert, find?_clients, apply_ite (Option.map Node.record)]
  exact if_congr (and_congr Iff.rfl Option.map_eq_none_iff.symm) rfl rfl

/-- Removing a client from the nodes is removing it from the registry. -/
theorem find?_clients_remove (s : Broadcast) (fd k : Int) :
    (s.nodesAfter (.remove fd)).clients.find? k =
      (ipcServerRemoveClient s.nodes.clients fd).find? k := by
  rw [find?_clients, find?_ipcServerRemoveClient, nodesAfter, changed, KeyedSet.find?_erase,
    find?_clients]
  split_ifs <;> rfl

/-- Updating a client in the nodes is updating it in the registry. -/
theorem find?_clients_update (s : Broadcast) (fd : Int) (u : Update) (order : List Node)
    (k : Int) :
    (s.nodesAfter (.update fd u order)).clients.find? k =
      (u.onClients s.nodes.clients fd).find? k := by
  have hfd (r : ClientInfo) : (u.onRecord r).fd = r.fd := by
    cases u <;> rfl
  rw [find?_clients, find?_onClients, nodesAfter, find?_reorder, changed,
    KeyedSet.find?_replace _ _ _ _ fun n ↦ hfd n.record, find?_clients]
  split_ifs with h
  · rw [Option.map_map, Option.map_map]
    rfl
  · rfl

/-! ### Addresses -/

/-- Addresses are below a bound and are not used twice. -/
structure Addressed (next : Nat) (nodes : Nodes) : Prop where
  below : ∀ n ∈ nodes.elems, n.address < next
  nodup : (nodes.elems.map Node.address).Nodup

variable {nodes : Nodes} {next : Nat}

theorem Addressed.mono (h : Addressed next nodes) : Addressed (next + 1) nodes :=
  ⟨fun n hn ↦ Nat.lt_succ_of_lt (h.below n hn), h.nodup⟩

theorem Addressed.erase (h : Addressed next nodes) (fd : Int) :
    Addressed next (nodes.erase fd) :=
  ⟨fun n hn ↦ h.below n ((KeyedSet.mem_erase_iff _ _ _).mp hn).1,
    (List.eraseP_sublist.map Node.address).nodup h.nodup⟩

theorem Addressed.insert (h : Addressed next nodes) (r : ClientInfo) :
    Addressed (next + 1) (nodes.insert ⟨next, r⟩) := by
  unfold KeyedSet.insert
  split
  · exact h.mono
  · refine ⟨fun n hn ↦ ?_, List.nodup_cons.mpr ⟨fun hm ↦ ?_, h.nodup⟩⟩
    · rcases List.mem_cons.mp hn with rfl | hn
      · exact Nat.lt_succ_self next
      · exact h.mono.below n hn
    · obtain ⟨n, hn, ha⟩ := List.mem_map.mp hm
      exact absurd (h.below n hn) (by rw [ha]; exact Nat.lt_irrefl next)

theorem Addressed.replace (h : Addressed next nodes) (fd : Int) (f : Node → ClientInfo) :
    Addressed (next + 1) (nodes.replace fd fun n ↦ ⟨next, f n⟩) := by
  unfold KeyedSet.replace
  split
  · exact (h.erase fd).insert _
  · exact h.mono

theorem Addressed.reorder (h : Addressed next nodes) (order : List Node) :
    Addressed next (reorder nodes order) := by
  unfold Broadcast.reorder
  split
  · next hp =>
    exact ⟨fun n hn ↦ h.below n (hp.mem_iff.mp hn), (hp.map _).nodup_iff.mpr h.nodup⟩
  · exact h

/-- A change gives every new node a new address. -/
theorem Addressed.changed {s : Broadcast} (h : Addressed s.nextAddress s.nodes) (a : Action) :
    Addressed (s.nextAddress + 1) (s.changed a) := by
  cases a with
  | add fd ip flag order => exact h.insert _
  | remove fd => exact (h.erase fd).mono
  | update fd u order => exact h.replace fd _
  | start => exact h.mono
  | notify => exact h.mono
  | advance => exact h.mono

theorem Addressed.nodesAfter {s : Broadcast} (h : Addressed s.nextAddress s.nodes) (a : Action) :
    Addressed (s.nextAddress + 1) (s.nodesAfter a) := by
  cases a with
  | add fd ip flag order => exact (h.changed _).reorder order
  | update fd u order => exact (h.changed _).reorder order
  | remove fd => exact h.changed (.remove fd)
  | start => exact h.changed .start
  | notify => exact h.changed .notify
  | advance => exact h.changed .advance

/-! ### The iterator -/

/-- Nodes around the one at an address. -/
theorem around {elems : List Node} (hnodup : (elems.map Node.address).Nodup) {pre post : List Node}
    {n : Node} (h : elems = pre ++ n :: post) :
    behind n.address elems = pre ∧ ahead n.address elems = post := by
  subst h
  rw [List.map_append, List.map_cons, List.nodup_append] at hnodup
  have hpre : ∀ m ∈ pre, decide (m.address ≠ n.address) = true := fun m hm ↦
    decide_eq_true (hnodup.2.2 _ (List.mem_map_of_mem hm) _ List.mem_cons_self)
  constructor
  · rw [behind, List.takeWhile_append_of_pos hpre]
    simp
  · rw [ahead, List.dropWhile_append_of_pos hpre]
    simp

/-- The node at the iterator. -/
theorem current_eq_some_iff {s : Broadcast} (hnodup : (s.nodes.elems.map Node.address).Nodup)
    (n : Node) : s.current = some n ↔
      n ∈ s.nodes.elems ∧ ∃ notified, s.cursor = .at n.address notified := by
  unfold current
  cases hc : s.cursor with
  | idle => simp
  | finished => simp
  | «at» address notified =>
    constructor
    · intro h
      have ha : n.address = address := by simpa using List.find?_some h
      exact ⟨List.mem_of_find?_eq_some h, notified, by rw [ha]⟩
    · rintro ⟨hn, notified', ha⟩
      cases ha
      cases hf : s.nodes.elems.find? fun m ↦ m.address = n.address with
      | none =>
        have hne := List.find?_eq_none.mp hf n hn
        simp at hne
      | some m =>
        have hm : m.address = n.address := by simpa using List.find?_some hf
        have hmn := List.inj_on_of_nodup_map hnodup (List.mem_of_find?_eq_some hf) hn hm
        exact hf.trans (congrArg some hmn)

/-! ### What a broadcast should do -/

/-- The iterator points to an element during each visit; at the end each client that stayed
registered with the flag set was visited once. -/
structure VisitsEachOnce (s : Broadcast) : Prop where
  element : ∀ address notified, s.cursor = .at address notified →
    ∃ n ∈ s.nodes.elems, n.address = address
  once : s.cursor = .finished → ∀ fd, s.steady fd = true →
    (s.visited.map ClientInfo.fd).count fd = 1

/-- The client whose node is erased, to be inserted anew by an update. -/
def Action.erased : Action → Option Int
  | .remove fd | .update fd _ _ => some fd
  | .start | .notify | .advance | .add _ _ _ _ => none

/-- A change during a visit is no removal or update of the visited client, and leaves each client
that stays registered with the flag set on its side of the visited node. -/
def Undisturbed (s : Broadcast) (a : Action) : Prop :=
  match s.cursor, a with
  | .at address _, .add _ _ _ _ | .at address _, .remove _ | .at address _, .update _ _ _ =>
    (∀ n ∈ s.nodes.elems, n.address = address → a.erased ≠ some n.fd) ∧
      ∀ fd, (s.apply a).steady fd = true →
        (fd ∈ (behind address (s.nodesAfter a).elems).map Node.fd ↔
          fd ∈ (behind address s.nodes.elems).map Node.fd)
  | _, _ => True

/-- The clients on whose behalf the body of the loop was run are the steady ones among the
nodes in front of the iterator, and the one at it if it was notified, each once. -/
def Progress (s : Broadcast) : Cursor → Prop
  | .idle => s.visited = []
  | .at address notified => ∃ pre n post, s.nodes.elems = pre ++ n :: post ∧
      n.address = address ∧ ∀ fd, s.steady fd = true →
        (s.visited.map ClientInfo.fd).count fd =
          if fd ∈ pre.map Node.fd ∨ fd = n.fd ∧ notified = true then 1 else 0
  | .finished => ∀ fd, s.steady fd = true → (s.visited.map ClientInfo.fd).count fd = 1

/-- What runs keep in which no visit is disturbed. -/
structure Inv (s : Broadcast) : Prop where
  addressed : Addressed s.nextAddress s.nodes
  registered : s.cursor ≠ .idle → ∀ fd, s.steady fd = true → fd ∈ s.nodes.elems.map Node.fd
  progress : s.Progress s.cursor

theorem inv_init : Inv init :=
  ⟨⟨fun _ h ↦ (nomatch h), List.nodup_nil⟩, fun h ↦ absurd rfl h, rfl⟩

theorem mem_of_wanted {nodes : Nodes} {fd : Int} (h : wanted nodes fd = true) :
    fd ∈ nodes.elems.map Node.fd := by
  unfold wanted at h
  cases hf : nodes.find? fd with
  | none =>
    rw [hf] at h
    cases h
  | some n =>
    obtain ⟨hmem, hfd⟩ := (KeyedSet.find?_eq_some_iff _ _ _).mp hf
    exact List.mem_map.mpr ⟨n, hmem, hfd⟩

variable {s : Broadcast}

theorem Inv.visitsEachOnce (h : Inv s) : VisitsEachOnce s where
  element address notified hc := by
    have hp := h.progress
    rw [hc] at hp
    obtain ⟨pre, n, post, he, ha, -⟩ := hp
    exact ⟨n, by rw [he]; exact List.mem_append_right _ List.mem_cons_self, ha⟩
  once hc := by
    have hp := h.progress
    rw [hc] at hp
    exact hp

private theorem Inv.start (h : Inv s) (he : s.Enabled .start) : Inv (s.apply .start) := by
  have hidle : s.cursor = .idle := he
  have hvisited : s.visited = [] := by
    have hp := h.progress
    rw [hidle] at hp
    exact hp
  refine ⟨h.addressed, fun _ fd hfd ↦ mem_of_wanted hfd, ?_⟩
  show Progress (s.apply .start) (cursorAt s.nodes.elems)
  cases hn : s.nodes.elems with
  | nil =>
    intro fd hfd
    have hmem := mem_of_wanted (show wanted s.nodes fd = true from hfd)
    rw [hn] at hmem
    cases hmem
  | cons n post =>
    refine ⟨[], n, post, hn, rfl, fun fd _ ↦ ?_⟩
    simp [apply, hvisited]

private theorem apply_notify {n : Node} (h : s.current = some n) : s.apply .notify =
    { s with cursor := .at n.address true, visited := s.visited ++ [n.record] } := by
  simp only [apply, h]

private theorem apply_advance {n : Node} (h : s.current = some n) : s.apply .advance =
    { s with cursor := cursorAt (ahead n.address s.nodes.elems) } := by
  simp only [apply, h]

private theorem Inv.notify (h : Inv s) (he : s.Enabled .notify) : Inv (s.apply .notify) := by
  obtain ⟨n, hn, hc⟩ := he
  have hcurrent : s.current = some n := hn
  have hprogress := h.progress
  rw [hc] at hprogress
  obtain ⟨pre, n', post, hsplit, ha, hcount⟩ := hprogress
  obtain ⟨hmem, -⟩ := (current_eq_some_iff h.addressed.nodup n).mp hcurrent
  have hmem' : n' ∈ s.nodes.elems := by
    rw [hsplit]
    exact List.mem_append_right _ List.mem_cons_self
  have hsame : n' = n := List.inj_on_of_nodup_map h.addressed.nodup hmem' hmem ha
  subst hsame
  have hnotin : n'.fd ∉ pre.map Node.fd := by
    have hnodup := s.nodes.nodup
    rw [hsplit, List.map_append, List.map_cons, List.nodup_append] at hnodup
    exact fun hin ↦ hnodup.2.2 _ hin _ List.mem_cons_self rfl
  rw [apply_notify hcurrent]
  refine ⟨h.addressed, fun _ ↦ h.registered (by rw [hc]; exact Cursor.noConfusion), ?_⟩
  refine ⟨pre, n', post, hsplit, rfl, fun fd hfd ↦ ?_⟩
  rw [List.map_append, List.count_append, hcount fd hfd]
  by_cases hf : fd = n'.fd
  · subst hf
    have hbefore : ¬ (n'.fd ∈ pre.map Node.fd ∨ n'.fd = n'.fd ∧ false = true) :=
      fun hr ↦ hr.elim hnotin fun hx ↦ Bool.noConfusion hx.2
    have hafter : n'.fd ∈ pre.map Node.fd ∨ n'.fd = n'.fd ∧ true = true := Or.inr ⟨rfl, rfl⟩
    rw [if_neg hbefore, if_pos hafter]
    show 0 + [n'.fd].count n'.fd = 1
    rw [List.count_singleton_self]
  · have hf' : n'.record.fd ≠ fd := fun hr ↦ hf hr.symm
    simp [hf, hf']

private theorem Inv.advance (h : Inv s) (he : s.Enabled .advance) : Inv (s.apply .advance) := by
  obtain ⟨n, hn, hc⟩ := he
  have hcurrent : s.current = some n := hn
  have hprogress := h.progress
  have hactive : s.cursor ≠ .idle := by
    rw [hc]
    exact Cursor.noConfusion
  rw [hc] at hprogress
  obtain ⟨pre, n', post, hsplit, ha, hcount⟩ := hprogress
  have hahead : ahead n.address s.nodes.elems = post := by
    rw [← ha]
    exact (around h.addressed.nodup hsplit).2
  rw [apply_advance hcurrent, hahead]
  refine ⟨h.addressed, fun _ ↦ h.registered hactive, ?_⟩
  show Progress { s with cursor := cursorAt post } (cursorAt post)
  cases post with
  | nil =>
    intro fd hfd
    have hmem := h.registered hactive fd hfd
    rw [hsplit, List.map_append, List.mem_append, List.map_singleton, List.mem_singleton] at hmem
    exact (hcount fd hfd).trans (if_pos (hmem.imp_right fun hr ↦ ⟨hr, rfl⟩))
  | cons m rest =>
    refine ⟨pre ++ [n'], m, rest, by simp [hsplit], rfl, fun fd hfd ↦ ?_⟩
    refine (hcount fd hfd).trans ?_
    simp

/-- The node of any other client than the one whose node is erased stays. -/
private theorem mem_nodesAfter_of_ne {a : Action} {n : Node} (hn : n ∈ s.nodes.elems)
    (ha : a.erased ≠ some n.fd) : n ∈ (s.nodesAfter a).elems := by
  have hfind : s.nodes.find? n.fd = some n := (KeyedSet.find?_eq_some_iff _ _ _).mpr ⟨hn, rfl⟩
  have hother {fd : Int} (h : a.erased = some fd) : fd ≠ n.fd := fun he ↦ ha (he ▸ h)
  suffices h : (s.nodesAfter a).find? n.fd = some n from
    ((KeyedSet.find?_eq_some_iff _ _ _).mp h).1
  cases a with
  | start | notify | advance => exact hfind
  | add fd ip flag order =>
    rw [nodesAfter, find?_reorder, changed, KeyedSet.find?_insert, hfind, if_neg]
    rintro ⟨-, hnone⟩
    cases hnone
  | remove fd => rw [nodesAfter, changed, KeyedSet.find?_erase, if_neg (hother rfl), hfind]
  | update fd u order =>
    have hfd (m : Node) : (⟨s.nextAddress, u.onRecord m.record⟩ : Node).fd = m.fd := by
      cases u <;> rfl
    rw [nodesAfter, find?_reorder, changed, KeyedSet.find?_replace _ _ _ _ hfd,
      if_neg (hother rfl), hfind]

/-- A change that does not disturb the visit. -/
private theorem Inv.change (h : Inv s) {a : Action}
    (ha : s.apply a = { s with
      nodes := s.nodesAfter a
      nextAddress := s.nextAddress + 1
      steady := fun fd ↦ s.steady fd && wanted (s.nodesAfter a) fd })
    (hu : ∀ address notified, s.cursor = .at address notified →
      (∀ n ∈ s.nodes.elems, n.address = address → a.erased ≠ some n.fd) ∧
        ∀ fd, (s.apply a).steady fd = true →
          (fd ∈ (behind address (s.nodesAfter a).elems).map Node.fd ↔
            fd ∈ (behind address s.nodes.elems).map Node.fd)) : Inv (s.apply a) := by
  have haddressed := h.addressed.nodesAfter a
  have hsteady (fd : Int) (hfd : (s.apply a).steady fd = true) :
      s.steady fd = true ∧ wanted (s.nodesAfter a) fd = true := by
    rw [ha] at hfd
    exact Bool.and_eq_true_iff.mp hfd
  have hprogress := h.progress
  have hcursor : (s.apply a).cursor = s.cursor := by rw [ha]
  have hvisited : (s.apply a).visited = s.visited := by rw [ha]
  have hnodes : (s.apply a).nodes = s.nodesAfter a := by rw [ha]
  refine ⟨by rw [ha]; exact haddressed, fun _ fd hfd ↦ ?_, ?_⟩
  · rw [hnodes]
    exact mem_of_wanted (hsteady fd hfd).2
  rw [hcursor]
  cases hc : s.cursor with
  | idle =>
    rw [hc] at hprogress
    exact hvisited.trans hprogress
  | finished =>
    rw [hc] at hprogress
    intro fd hfd
    rw [hvisited]
    exact hprogress fd (hsteady fd hfd).1
  | «at» address notified =>
    rw [hc] at hprogress
    obtain ⟨pre, n, post, hsplit, hn, hcount⟩ := hprogress
    obtain ⟨hother, hsides⟩ := hu address notified hc
    have hbehind : behind address s.nodes.elems = pre := by
      rw [← hn]
      exact (around h.addressed.nodup hsplit).1
    have hmem : n ∈ s.nodes.elems := by
      rw [hsplit]
      exact List.mem_append_right _ List.mem_cons_self
    have hstays := mem_nodesAfter_of_ne hmem (hother n hmem hn)
    obtain ⟨pre', post', hsplit'⟩ := List.append_of_mem hstays
    have hbehind' : behind address (s.nodesAfter a).elems = pre' := by
      rw [← hn]
      exact (around haddressed.nodup hsplit').1
    refine ⟨pre', n, post', by rw [hnodes]; exact hsplit', hn, fun fd hfd ↦ ?_⟩
    have hside := hsides fd hfd
    rw [hbehind, hbehind'] at hside
    rw [hvisited, hcount fd (hsteady fd hfd).1]
    simp only [hside]

/-- Steps that disturb no visit keep the invariant. -/
theorem Inv.step (h : Inv s) {a : Action} (hg : s.Undisturbed a) (he : s.Enabled a) :
    Inv (s.apply a) := by
  cases a with
  | start => exact h.start he
  | notify => exact h.notify he
  | advance => exact h.advance he
  | add fd ip flag order =>
    refine h.change rfl fun address notified hc ↦ ?_
    unfold Undisturbed at hg
    rwa [hc] at hg
  | remove fd =>
    refine h.change rfl fun address notified hc ↦ ?_
    unfold Undisturbed at hg
    rwa [hc] at hg
  | update fd u order =>
    refine h.change rfl fun address notified hc ↦ ?_
    unfold Undisturbed at hg
    rwa [hc] at hg

/-- In every run in which no change disturbs a visit, the broadcast visits elements only, and
each client that stays registered with the flag set once. -/
theorem visitsEachOnce_of_undisturbed (h : system.ReachableUnder Undisturbed s) :
    VisitsEachOnce s := by
  have hinv : Inv s := StepSystem.ReachableUnder.invariant_of_commands inv_init
    (fun _ _ ht hg he ↦ ht.step hg he) h
  exact hinv.visitsEachOnce

/-- Client 6 connects while client 5 is visited. -/
theorem visitsEachOnce_addBehind :
    VisitsEachOnce (((((init.apply (.add 5 [] true [⟨0, 5, true, []⟩])).apply .start).apply
      .notify).apply (.add 6 [] true [⟨0, 5, true, []⟩, ⟨1, 6, true, []⟩])).apply .advance) := by
  have h0 := StepSystem.ReachableUnder.init (S := system) (G := Undisturbed)
  have h1 := h0.step (a := Action.add 5 [] true [⟨0, 5, true, []⟩]) trivial rfl
  have h2 := h1.step (a := Action.start) trivial rfl
  have h3 := h2.step (a := Action.notify) trivial rfl
  have h4 := h3.step (a := Action.add 6 [] true [⟨0, 5, true, []⟩, ⟨1, 6, true, []⟩])
    ⟨fun _ _ _ h ↦ (nomatch h), fun _ _ ↦ Iff.rfl⟩ rfl
  exact visitsEachOnce_of_undisturbed (h4.step (a := Action.advance) trivial rfl)

/-- The only client disconnects while it is visited. -/
def removedDuringVisit : List Action :=
  [.add 5 [] true [⟨0, 5, true, []⟩], .start, .notify, .remove 5]

/-- Client 5 sends its address while client 6 is visited, and its new node comes in front. -/
def reinsertedBehind : List Action :=
  [.add 5 [] true [⟨0, 5, true, []⟩], .add 6 [] true [⟨1, 6, true, []⟩, ⟨0, 5, true, []⟩],
    .start, .update 5 (.ip [1]) [⟨2, 5, true, [1]⟩, ⟨1, 6, true, []⟩], .notify, .advance]

/-- In the first run the iterator points to an erased node. In the second, client 5 stays
registered with the flag set and is not visited. -/
theorem not_visitsEachOnce :
    (∃ t, system.Reachable t ∧ t.cursor = .at 0 true ∧ t.nodes.elems = [] ∧
      ¬ VisitsEachOnce t) ∧
    ∃ t, system.Reachable t ∧ t.cursor = .finished ∧ t.steady 5 = true ∧
      t.visited = [⟨6, true, []⟩] ∧ ¬ VisitsEachOnce t := by
  constructor
  · have hrun : ∃ t, system.run (fun _ _ ↦ True) init removedDuringVisit = some t ∧
        t.cursor = .at 0 true ∧ t.nodes.elems = [] := ⟨_, rfl, rfl, rfl⟩
    obtain ⟨t, ht, hc, hn⟩ := hrun
    refine ⟨t, StepSystem.reachableUnder_of_run ht, hc, hn, fun h ↦ ?_⟩
    obtain ⟨n, hmem, -⟩ := h.element 0 true hc
    rw [hn] at hmem
    cases hmem
  · have hrun : ∃ t, system.run (fun _ _ ↦ True) init reinsertedBehind = some t ∧
        t.cursor = .finished ∧ t.steady 5 = true ∧ t.visited = [⟨6, true, []⟩] :=
      ⟨_, rfl, rfl, rfl, rfl⟩
    obtain ⟨t, ht, hc, hs, hv⟩ := hrun
    refine ⟨t, StepSystem.reachableUnder_of_run ht, hc, hs, hv, fun h ↦ ?_⟩
    have hcount := h.once hc 5 hs
    rw [hv] at hcount
    cases hcount

/-! ### A broadcast without changes -/

/-- The steps of the broadcast itself. -/
def Own : Action → Prop
  | .start | .notify | .advance => True
  | _ => False

instance : (a : Action) → Decidable (Own a)
  | .start | .notify | .advance => inferInstanceAs (Decidable True)
  | .add _ _ _ _ | .remove _ | .update _ _ _ => inferInstanceAs (Decidable False)

private theorem run_own {a : Action} (ha : Own a) (he : s.Enabled a) (as : List Action) :
    system.run (fun _ a ↦ Own a) s (a :: as) = system.run (fun _ a ↦ Own a) (s.apply a) as :=
  StepSystem.run_cons_of_commands (G := fun _ a ↦ Own a) ha he as

/-- One visit. -/
private theorem run_visit (hnodup : (s.nodes.elems.map Node.address).Nodup)
    {pre post : List Node} {n : Node} (hsplit : s.nodes.elems = pre ++ n :: post)
    (hc : s.cursor = .at n.address false) (as : List Action) :
    system.run (fun _ a ↦ Own a) s (.notify :: .advance :: as) =
      system.run (fun _ a ↦ Own a)
        { s with cursor := cursorAt post, visited := s.visited ++ [n.record] } as := by
  have hmem : n ∈ s.nodes.elems := by
    rw [hsplit]
    exact List.mem_append_right _ List.mem_cons_self
  have hcurrent : s.current = some n :=
    (current_eq_some_iff hnodup n).mpr ⟨hmem, false, hc⟩
  have hnotified : (s.apply .notify).current = some n := by
    rw [apply_notify hcurrent]
    refine (current_eq_some_iff ?_ n).mpr ⟨hmem, true, rfl⟩
    exact hnodup
  have hcursor : (s.apply .notify).cursor = .at n.address true := by
    rw [apply_notify hcurrent]
  rw [run_own (a := Action.notify) trivial ⟨n, hcurrent, hc⟩,
    run_own (a := Action.advance) trivial ⟨n, hnotified, hcursor⟩, apply_advance hnotified,
    apply_notify hcurrent, (around hnodup hsplit).2]

/-- From the node at the iterator on, the body of the loop is run for each node in turn. -/
private theorem run_from (hnodup : (s.nodes.elems.map Node.address).Nodup)
    {pre post : List Node} {n : Node} (hsplit : s.nodes.elems = pre ++ n :: post)
    (hc : s.cursor = .at n.address false) :
    ∃ as t, system.run (fun _ a ↦ Own a) s as = some t ∧ t.cursor = .finished ∧
      t.visited = s.visited ++ (n :: post).map Node.record := by
  induction post generalizing s pre n with
  | nil => exact ⟨_, _, run_visit hnodup hsplit hc [], rfl, rfl⟩
  | cons m rest ih =>
    have hsplit' : s.nodes.elems = (pre ++ [n]) ++ m :: rest := by
      rw [hsplit, List.append_assoc]
      rfl
    obtain ⟨as, t, hrun, hfinished, hvisited⟩ := ih
      (s := { s with cursor := cursorAt (m :: rest), visited := s.visited ++ [n.record] })
      hnodup hsplit' rfl
    refine ⟨_, t, (run_visit hnodup hsplit hc as).trans hrun, hfinished, ?_⟩
    rw [hvisited, List.append_assoc]
    rfl

/-- Left alone, a broadcast runs its body for each record of the registry in turn, which is
what the callback does as one computation. -/
theorem run_uninterrupted (hnodup : (s.nodes.elems.map Node.address).Nodup)
    (hc : s.cursor = .idle) (hv : s.visited = []) (E : Environment) (msgGrp msgId : UInt16)
    (data : Option Memory) (length : UInt16) {server : ServerState}
    (hserver : server.activeClients = s.nodes.clients) :
    ∃ as t, system.run (fun _ a ↦ Own a) s as = some t ∧ t.cursor = .finished ∧
      ipcServerMcuMessageDataCallback E msgGrp msgId data length server =
        (t.visited.forM fun client ↦ notifyClient E client msgGrp msgId data length) server := by
  have hcallback : ipcServerMcuMessageDataCallback E msgGrp msgId data length server =
      (s.nodes.clients.elems.forM fun client ↦
        notifyClient E client msgGrp msgId data length) server := by
    rw [← hserver]
    rfl
  suffices h : ∃ as t, system.run (fun _ a ↦ Own a) s as = some t ∧ t.cursor = .finished ∧
      t.visited = s.nodes.clients.elems by
    obtain ⟨as, t, hrun, hfinished, hvisited⟩ := h
    exact ⟨as, t, hrun, hfinished, by rw [hvisited, hcallback]⟩
  cases hn : s.nodes.elems with
  | nil =>
    refine ⟨[.start], s.apply .start, run_own (a := Action.start) trivial hc [], ?_, ?_⟩
    · show cursorAt s.nodes.elems = .finished
      rw [hn]
      rfl
    · show s.visited = s.nodes.elems.map Node.record
      rw [hv, hn]
      rfl
  | cons n post =>
    have hstarted : (s.apply .start).cursor = .at n.address false := by
      show cursorAt s.nodes.elems = _
      rw [hn]
      rfl
    have hsplit : s.nodes.elems = [] ++ n :: post := hn
    obtain ⟨as, t, hrun, hfinished, hvisited⟩ := run_from (s := s.apply .start) hnodup hsplit
      hstarted
    refine ⟨.start :: as, t, (run_own (a := Action.start) trivial hc as).trans hrun, hfinished, ?_⟩
    rw [hvisited]
    show s.visited ++ (n :: post).map Node.record = s.nodes.elems.map Node.record
    rw [hv, hn]
    rfl

end Broadcast
end OctopusIpc.Server

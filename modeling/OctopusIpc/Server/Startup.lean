import Mathlib.Logic.ExistsUnique
import Mathlib.Logic.Function.Basic
import OctopusIpc.Base.StepSystem

/-!
# Starting the server

`ipc_server_initialize_server` in any number of processes at once, over the one directory and
the one name they share. Each call into the file system is a step. A server removes whatever
has the name, so it may take it away from a server that has bound it, and the other one never
learns of it.
-/

namespace OctopusIpc.Server

/-- What is at the parent directory of the socket. -/
inductive ParentDir where
  | missing
  | directory
  /-- Something else. -/
  | other
  deriving DecidableEq, Repr

/-- What the name of the socket stands for. -/
inductive SocketFile where
  /-- Left from an earlier run. -/
  | stale
  /-- The socket that this server has bound. -/
  | boundBy (p : Nat)
  deriving DecidableEq, Repr

/-- Where a process is in `ipc_server_initialize_server`. -/
inductive StartPc where
  | absent
  /-- Before `stat`. -/
  | examining
  /-- The directory was missing, before `mkdir`. -/
  | making
  /-- Before `unlink`. -/
  | removing
  /-- Before `socket`. -/
  | opening
  /-- Before `bind`. -/
  | binding
  /-- Before `chmod`. -/
  | permitting
  /-- Before `listen`. -/
  | starting
  /-- In the loop of `main` with a socket that listens. -/
  | listening
  /-- In the loop of `main`, where every `accept` fails. -/
  | failed
  deriving DecidableEq, Repr

/-- The file system and the processes. -/
structure Startup where
  parentDir : ParentDir
  entry : Option SocketFile
  pcs : Nat → StartPc

/-- The steps of the processes. -/
inductive StartAction where
  | launch (p : Nat)
  /-- `src/IPC/octopus_ipc_server.cpp:225–234`. -/
  | stat (p : Nat)
  /-- `src/IPC/octopus_ipc_server.cpp:237–244`. -/
  | mkdir (p : Nat)
  /-- `src/IPC/octopus_ipc_server.cpp:250`. -/
  | unlink (p : Nat)
  /-- `src/IPC/octopus_ipc_server.cpp:981–986`. -/
  | socket (p : Nat) (ok : Bool)
  /-- `src/IPC/octopus_ipc_socket.cpp:195–201`. -/
  | bind (p : Nat)
  /-- `src/IPC/octopus_ipc_socket.cpp:208–215`. -/
  | chmod (p : Nat)
  /-- `src/IPC/octopus_ipc_socket.cpp:226–234`. -/
  | listen (p : Nat) (ok : Bool)
  deriving DecidableEq, Repr

namespace StartPc

/-- Between its `unlink` and its `bind`. -/
def isBinding : StartPc → Bool
  | opening | binding => true
  | _ => false

/-- Past its `bind`, without a failure since. -/
def hasBound : StartPc → Bool
  | permitting | starting | listening => true
  | _ => false

/-- Past the directory, without a failure since. -/
def pastDirectory : StartPc → Bool
  | removing | opening | binding | permitting | starting | listening => true
  | _ => false

/-- Found the directory missing. -/
def isMaking : StartPc → Bool
  | making => true
  | _ => false

def isLaunched : StartPc → Bool
  | absent => false
  | _ => true

/-- Launched and not failed. -/
def isAlive : StartPc → Bool
  | absent | failed => false
  | _ => true

/-- Not in the initialization. -/
def isSettled : StartPc → Bool
  | absent | failed | listening => true
  | _ => false

/-- Who is past the directory is alive. -/
theorem isAlive_of_pastDirectory {pc : StartPc} (h : pc.pastDirectory = true) :
    pc.isAlive = true := by
  cases pc <;> first | rfl | cases h

theorem pastDirectory_of_hasBound {pc : StartPc} (h : pc.hasBound = true) :
    pc.pastDirectory = true := by
  cases pc <;> first | rfl | cases h

theorem pastDirectory_of_isBinding {pc : StartPc} (h : pc.isBinding = true) :
    pc.pastDirectory = true := by
  cases pc <;> first | rfl | cases h

/-- The only place to be alive outside the initialization. -/
theorem eq_listening {pc : StartPc} (hs : pc.isSettled = true) (ha : pc.isAlive = true) :
    pc = .listening := by
  cases pc <;> simp only [isSettled, isAlive, Bool.false_eq_true] at hs ha ⊢

end StartPc

namespace Startup

/-- Before the first launch, with or without the socket of an earlier run. -/
def init (parentDir : ParentDir) (leftover : Bool) : Startup :=
  ⟨parentDir, if leftover then some .stale else none, fun _ ↦ .absent⟩

/-- A process goes on to another place. -/
def setPc (s : Startup) (p : Nat) (pc : StartPc) : Startup :=
  { s with pcs := Function.update s.pcs p pc }

/-- What each step does in a state in which it can be taken. -/
def step (s : Startup) : StartAction → Option Startup
  | .launch p => if s.pcs p = .absent then some (s.setPc p .examining) else none
  | .stat p =>
    if s.pcs p = .examining then
      match s.parentDir with
      | .directory => some (s.setPc p .removing)
      | .missing => some (s.setPc p .making)
      | .other => some (s.setPc p .failed)
    else none
  | .mkdir p =>
    if s.pcs p = .making then
      match s.parentDir with
      | .missing => some { s.setPc p .removing with parentDir := .directory }
      | .directory | .other => some (s.setPc p .failed)
    else none
  | .unlink p =>
    if s.pcs p = .removing then some { s.setPc p .opening with entry := none } else none
  | .socket p ok =>
    if s.pcs p = .opening then some (s.setPc p (if ok then .binding else .failed)) else none
  | .bind p =>
    if s.pcs p = .binding then
      match s.entry with
      | none => some { s.setPc p .permitting with entry := some (.boundBy p) }
      | some _ => some (s.setPc p .failed)
    else none
  | .chmod p =>
    -- It goes by the name, whosever socket that is by now.
    if s.pcs p = .permitting then
      match s.entry with
      | none => some (s.setPc p .failed)
      | some _ => some (s.setPc p .starting)
    else none
  | .listen p ok =>
    if s.pcs p = .starting then some (s.setPc p (if ok then .listening else .failed)) else none

/-- The processes as a transition system. -/
def system (parentDir : ParentDir) (leftover : Bool) : StepSystem Startup StartAction where
  init := init parentDir leftover
  step := step

/-- The kernel has a socket and a queue for everyone. -/
def Resourceful (_ : Startup) : StartAction → Prop
  | .socket _ ok | .listen _ ok => ok = true
  | _ => True

instance (s : Startup) : (a : StartAction) → Decidable (Resourceful s a)
  | .socket _ ok | .listen _ ok => inferInstanceAs (Decidable (ok = true))
  | .launch _ | .stat _ | .mkdir _ | .unlink _ | .bind _ | .chmod _ =>
    inferInstanceAs (Decidable True)

/-- A client that connects by the name gets to this server. -/
def Reaches (s : Startup) (p : Nat) : Prop :=
  s.entry = some (.boundBy p) ∧ s.pcs p = .listening

variable {s s' : Startup} {a : StartAction} {p : Nat} {pc pc' : StartPc} {P : StartPc → Bool}

/-! ### Who is where after a step -/

/-- Someone still is at such a place, if whoever goes on is again. -/
private theorem exists_setPc (h : ∃ q, P (s.pcs q) = true)
    (hpc : P (s.pcs p) = true → P pc = true) : ∃ q, P ((s.setPc p pc).pcs q) = true := by
  obtain ⟨q, hq⟩ := h
  by_cases hp : q = p
  · subst hp
    exact ⟨q, by simpa only [setPc, Function.update_self] using hpc hq⟩
  · exact ⟨q, by simpa only [setPc, Function.update_of_ne hp] using hq⟩

private theorem exists_setPc_self (s : Startup) (p : Nat) (hpc : P pc = true) :
    ∃ q, P ((s.setPc p pc).pcs q) = true :=
  ⟨p, by simpa only [setPc, Function.update_self] using hpc⟩

/-- Who is at such a place after the step was so before, or is the one that went on. -/
private theorem of_setPc {q : Nat} (h : P ((s.setPc p pc).pcs q) = true) :
    q = p ∧ P pc = true ∨ P (s.pcs q) = true := by
  by_cases hp : q = p
  · subst hp
    exact .inl ⟨rfl, by simpa only [setPc, Function.update_self] using h⟩
  · exact .inr (by simpa only [setPc, Function.update_of_ne hp] using h)

/-! ### The name always comes back -/

/-- What holds of the directory, the name and the processes while none fails for want of
resources. -/
structure Orderly (s : Startup) : Prop where
  parentDir : s.parentDir ≠ .other
  past : ∀ p, (s.pcs p).pastDirectory = true → s.parentDir = .directory
  /-- Whoever has the name is past its `bind`. -/
  owner : ∀ p, s.entry = some (.boundBy p) → (s.pcs p).hasBound = true
  stale : s.entry = some .stale → ∀ p, (s.pcs p).hasBound = false ∧ (s.pcs p).isBinding = false
  /-- If a server has lost the name, another is about to bind it. -/
  lost : s.entry = none → (∃ p, (s.pcs p).hasBound = true) → ∃ q, (s.pcs q).isBinding = true
  /-- If a server is about to make a directory that is there, another has made it. -/
  made : s.parentDir = .directory → (∃ p, (s.pcs p).isMaking = true) →
    ∃ q, (s.pcs q).pastDirectory = true
  alive : (∃ p, (s.pcs p).isLaunched = true) → ∃ q, (s.pcs q).isAlive = true

theorem orderly_init {parentDir : ParentDir} (hdir : parentDir ≠ .other) (leftover : Bool) :
    Orderly (init parentDir leftover) where
  parentDir := hdir
  past _ hp := absurd hp Bool.false_ne_true
  owner p hp := by cases leftover <;> cases hp
  stale _ _ := ⟨rfl, rfl⟩
  lost _ := fun ⟨_, hp⟩ ↦ absurd hp Bool.false_ne_true
  made _ := fun ⟨_, hp⟩ ↦ absurd hp Bool.false_ne_true
  alive := fun ⟨_, hp⟩ ↦ absurd hp Bool.false_ne_true

/-- A process goes on, and neither the name nor the directory is concerned. -/
private theorem Orderly.goOn (h : Orderly s) (hp : s.pcs p = pc)
    (hbound : pc'.hasBound = pc.hasBound) (hbinding : pc'.isBinding = pc.isBinding)
    (halive : pc'.isAlive = true) (hkeep : pc.pastDirectory = true → pc'.pastDirectory = true)
    (hpast : pc'.pastDirectory = true → s.parentDir = .directory)
    (hmaking : pc'.isMaking = true → s.parentDir ≠ .directory) : Orderly (s.setPc p pc') where
  parentDir := h.parentDir
  past q hq := (of_setPc hq).elim (fun hp ↦ hpast hp.2) (h.past q)
  owner q hq := by
    have hpast : (s.pcs q).hasBound = true := h.owner q hq
    by_cases hqp : q = p
    · subst hqp
      simpa only [setPc, Function.update_self, hbound, hp] using hpast
    · simpa only [setPc, Function.update_of_ne hqp] using hpast
  stale hs q := by
    have hnone := h.stale hs q
    by_cases hqp : q = p
    · subst hqp
      simpa only [setPc, Function.update_self, hbound, hbinding, hp] using hnone
    · simpa only [setPc, Function.update_of_ne hqp] using hnone
  lost hs := by
    rintro ⟨q, hq⟩
    refine exists_setPc (h.lost hs ?_) (by rw [hbinding, hp]; exact id)
    rcases of_setPc hq with ⟨-, hpc⟩ | hq
    · exact ⟨p, by rw [hp, ← hbound, hpc]⟩
    · exact ⟨q, hq⟩
  made hs := by
    rintro ⟨q, hq⟩
    rcases of_setPc hq with ⟨-, hpc⟩ | hq
    · exact absurd hs (hmaking hpc)
    · exact exists_setPc (h.made hs ⟨q, hq⟩) (by rw [hp]; exact hkeep)
  alive _ := exists_setPc_self s p halive

/-- A process fails while another one is past the directory. -/
private theorem Orderly.fail (h : Orderly s) {q : Nat} (hq : (s.pcs q).pastDirectory = true)
    (hne : q ≠ p) (howner : s.entry ≠ some (.boundBy p))
    (hbinding : s.entry = none → (s.pcs p).isBinding = false) :
    Orderly (s.setPc p .failed) := by
  have hrest : ((s.setPc p .failed).pcs q).pastDirectory = true := by
    simpa only [setPc, Function.update_of_ne hne] using hq
  refine ⟨h.parentDir, fun r hr ↦ ?_, fun r hr ↦ ?_, fun hs r ↦ ?_, fun hs ⟨r, hr⟩ ↦ ?_,
    fun _ _ ↦ ⟨q, hrest⟩, fun _ ↦ ⟨q, StartPc.isAlive_of_pastDirectory hrest⟩⟩
  · exact (of_setPc hr).elim (fun hp ↦ absurd hp.2 Bool.false_ne_true) (h.past r)
  · have hrp : r ≠ p := by
      rintro rfl
      exact howner hr
    simpa only [setPc, Function.update_of_ne hrp] using h.owner r hr
  · by_cases hrp : r = p
    · subst hrp
      simp only [setPc, Function.update_self, StartPc.hasBound, StartPc.isBinding, and_self]
    · simpa only [setPc, Function.update_of_ne hrp] using h.stale hs r
  · have hr := (of_setPc hr).resolve_left fun hp ↦ Bool.false_ne_true hp.2
    refine exists_setPc (h.lost hs ⟨r, hr⟩) fun hp ↦ ?_
    cases (hbinding hs).symm.trans hp

/-- `mkdir` by the first to come. -/
private theorem Orderly.mkdir (h : Orderly s) (hp : s.pcs p = .making)
    (hd : s.parentDir = .missing) :
    Orderly { s.setPc p .removing with parentDir := .directory } := by
  have hnone (q : Nat) : (s.pcs q).pastDirectory = false := by
    refine Bool.eq_false_iff.mpr fun hq ↦ ?_
    cases hd.symm.trans (h.past q hq)
  refine ⟨fun hd ↦ (by cases hd), fun _ _ ↦ rfl, fun q hq ↦ ?_, fun hs q ↦ ?_,
    fun hs ⟨q, hq⟩ ↦ ?_, fun _ _ ↦ exists_setPc_self s p rfl, fun _ ↦ exists_setPc_self s p rfl⟩
  · have hq := StartPc.pastDirectory_of_hasBound (h.owner q hq)
    cases (hnone q).symm.trans hq
  · by_cases hqp : q = p
    · subst hqp
      simp only [setPc, Function.update_self, StartPc.hasBound, StartPc.isBinding, and_self]
    · simpa only [setPc, Function.update_of_ne hqp] using h.stale hs q
  · rcases of_setPc hq with ⟨-, hpc⟩ | hq
    · cases hpc
    · cases (hnone q).symm.trans (StartPc.pastDirectory_of_hasBound hq)

/-- `unlink`, whosever name it is. -/
private theorem Orderly.unlink (h : Orderly s) (hp : s.pcs p = .removing) :
    Orderly { s.setPc p .opening with entry := none } := by
  have hdir : s.parentDir = .directory := h.past p (by rw [hp]; rfl)
  have hself : ∃ q, ((s.setPc p .opening).pcs q).isBinding = true := exists_setPc_self s p rfl
  exact ⟨h.parentDir, fun _ _ ↦ hdir, fun q hq ↦ (by cases hq), fun hs ↦ (by cases hs),
    fun _ _ ↦ hself, fun _ _ ↦ exists_setPc_self s p rfl, fun _ ↦ exists_setPc_self s p rfl⟩

/-- `bind` to a free name. -/
private theorem Orderly.bind (h : Orderly s) (hp : s.pcs p = .binding) :
    Orderly { s.setPc p .permitting with entry := some (.boundBy p) } := by
  have hdir : s.parentDir = .directory := h.past p (by rw [hp]; rfl)
  refine ⟨h.parentDir, fun _ _ ↦ hdir, fun q hq ↦ ?_, fun hs ↦ (by cases hs),
    fun hs ↦ (by cases hs), fun _ _ ↦ exists_setPc_self s p rfl,
    fun _ ↦ exists_setPc_self s p rfl⟩
  cases hq
  simp only [setPc, Function.update_self, StartPc.hasBound]

/-- A process that is at a place of no such kind is not the one that is. -/
private theorem ne_of_pcs {q : Nat} (hp : s.pcs p = pc) (hpc : P pc = false)
    (hq : P (s.pcs q) = true) : q ≠ p := by
  rintro rfl
  rw [hp, hpc] at hq
  cases hq

/-- A process that has not bound the name does not have it. -/
private theorem Orderly.entry_ne (h : Orderly s) (hp : s.pcs p = pc)
    (hpc : pc.hasBound = false) : s.entry ≠ some (.boundBy p) :=
  fun he ↦ ne_of_pcs (P := StartPc.hasBound) hp hpc (h.owner p he) rfl

/-- Each step leaves the name with a server or with one about to bind it. -/
theorem Orderly.step (h : Orderly s) (hg : s.Resourceful a) (hs : s.step a = some s') :
    Orderly s' := by
  cases a with
  | launch p =>
    obtain ⟨hp, rfl⟩ := Option.ite_none_right_eq_some.mp hs |>.imp id Option.some.inj
    exact h.goOn hp rfl rfl rfl (fun hpast ↦ by cases hpast) (fun hpast ↦ by cases hpast)
      fun hmaking ↦ by cases hmaking
  | stat p =>
    obtain ⟨hp, hs⟩ := Option.ite_none_right_eq_some.mp hs
    cases hd : s.parentDir with
    | other => exact absurd hd h.parentDir
    | directory =>
      rw [hd] at hs
      cases hs
      exact h.goOn hp rfl rfl rfl (fun _ ↦ rfl) (fun _ ↦ hd) fun hmaking ↦ by cases hmaking
    | missing =>
      rw [hd] at hs
      cases hs
      exact h.goOn hp rfl rfl rfl (fun hpast ↦ by cases hpast) (fun hpast ↦ by cases hpast)
        fun _ hdir ↦ by cases hd.symm.trans hdir
  | mkdir p =>
    obtain ⟨hp, hs⟩ := Option.ite_none_right_eq_some.mp hs
    cases hd : s.parentDir with
    | other => exact absurd hd h.parentDir
    | directory =>
      rw [hd] at hs
      cases hs
      obtain ⟨q, hq⟩ := h.made hd ⟨p, by rw [hp]; rfl⟩
      exact h.fail hq (ne_of_pcs hp rfl hq) (h.entry_ne hp rfl) fun _ ↦ by rw [hp]; rfl
    | missing =>
      rw [hd] at hs
      cases hs
      exact h.mkdir hp hd
  | unlink p =>
    obtain ⟨hp, rfl⟩ := Option.ite_none_right_eq_some.mp hs |>.imp id Option.some.inj
    exact h.unlink hp
  | socket p ok =>
    obtain ⟨hp, rfl⟩ := Option.ite_none_right_eq_some.mp hs |>.imp id Option.some.inj
    cases (hg : ok = true)
    exact h.goOn hp rfl rfl rfl (fun _ ↦ rfl) (fun _ ↦ h.past p (by rw [hp]; rfl))
      fun hmaking ↦ by cases hmaking
  | bind p =>
    obtain ⟨hp, hs⟩ := Option.ite_none_right_eq_some.mp hs
    cases he : s.entry with
    | none =>
      rw [he] at hs
      cases hs
      exact h.bind hp
    | some e =>
      rw [he] at hs
      cases hs
      cases e with
      | stale =>
        -- What an earlier run left is gone since this server's own `unlink`.
        obtain ⟨-, hbinding⟩ := h.stale he p
        rw [hp] at hbinding
        cases hbinding
      | boundBy q =>
        have hq := h.owner q he
        exact h.fail (StartPc.pastDirectory_of_hasBound hq) (ne_of_pcs hp rfl hq)
          (h.entry_ne hp rfl) fun hnone ↦ by cases hnone.symm.trans he
  | chmod p =>
    obtain ⟨hp, hs⟩ := Option.ite_none_right_eq_some.mp hs
    cases he : s.entry with
    | none =>
      rw [he] at hs
      cases hs
      obtain ⟨q, hq⟩ := h.lost he ⟨p, by rw [hp]; rfl⟩
      exact h.fail (StartPc.pastDirectory_of_isBinding hq) (ne_of_pcs hp rfl hq)
        (fun hbound ↦ by cases he.symm.trans hbound) fun _ ↦ by rw [hp]; rfl
    | some e =>
      rw [he] at hs
      cases hs
      exact h.goOn hp rfl rfl rfl (fun _ ↦ rfl) (fun _ ↦ h.past p (by rw [hp]; rfl))
        fun hmaking ↦ by cases hmaking
  | listen p ok =>
    obtain ⟨hp, rfl⟩ := Option.ite_none_right_eq_some.mp hs |>.imp id Option.some.inj
    cases (hg : ok = true)
    exact h.goOn hp rfl rfl rfl (fun _ ↦ rfl) (fun _ ↦ h.past p (by rw [hp]; rfl))
      fun hmaking ↦ by cases hmaking

/-! ### Who is reached -/

/-- Once nobody is in its initialization any more, the name stands for a server that listens. -/
theorem Orderly.exists_reaches (h : Orderly s) (hlaunched : ∃ p, (s.pcs p).isLaunched = true)
    (hsettled : ∀ p, (s.pcs p).isSettled = true) : ∃ p, s.Reaches p := by
  obtain ⟨q, hq⟩ := h.alive hlaunched
  have hbound : (s.pcs q).hasBound = true := by
    rw [StartPc.eq_listening (hsettled q) hq]
    rfl
  cases he : s.entry with
  | none =>
    obtain ⟨r, hr⟩ := h.lost he ⟨q, hbound⟩
    have halive := StartPc.isAlive_of_pastDirectory (StartPc.pastDirectory_of_isBinding hr)
    rw [StartPc.eq_listening (hsettled r) halive] at hr
    cases hr
  | some e =>
    cases e with
    | stale => cases (h.stale he q).1.symm.trans hbound
    | boundBy r =>
      have hr := StartPc.pastDirectory_of_hasBound (h.owner r he)
      have halive := StartPc.isAlive_of_pastDirectory hr
      exact ⟨r, he, StartPc.eq_listening (hsettled r) halive⟩

/-- However many servers are started at once, with their calls into the file system in any
order and whether or not the directory and an old socket are there: if none lacks a resource,
and all are through with their initialization, clients reach exactly one of them. -/
theorem existsUnique_reaches {parentDir : ParentDir} {leftover : Bool}
    (hdir : parentDir ≠ .other)
    (h : (system parentDir leftover).ReachableUnder Resourceful s)
    (hlaunched : ∃ p, (s.pcs p).isLaunched = true)
    (hsettled : ∀ p, (s.pcs p).isSettled = true) : ∃! p, s.Reaches p := by
  have horderly : Orderly s :=
    h.invariant (orderly_init hdir leftover) fun _ _ _ hi hg hs ↦ hi.step hg hs
  obtain ⟨p, hp⟩ := horderly.exists_reaches hlaunched hsettled
  refine ⟨p, hp, fun q hq ↦ ?_⟩
  cases hq.1.symm.trans hp.1
  rfl

/-- The second server takes the name from the first, which does not notice. -/
def nameTakenAway : List StartAction :=
  [.launch 0, .launch 1, .stat 0, .stat 1, .unlink 0, .socket 0 true, .bind 0, .unlink 1,
    .socket 1 true, .bind 1, .chmod 0, .listen 0 true, .chmod 1, .listen 1 true]

theorem existsUnique_reaches_nameTakenAway :
    ∃ s : Startup, (system .directory true).ReachableUnder Resourceful s ∧
      s.pcs 0 = .listening ∧ ¬ s.Reaches 0 ∧ ∃! p, s.Reaches p := by
  have hrun : ∃ s, (system .directory true).run Resourceful (init .directory true)
      nameTakenAway = some s ∧ s.pcs 0 = .listening ∧ s.entry = some (.boundBy 1) ∧
      ∀ p, (s.pcs p).isSettled = true := by
    refine ⟨_, rfl, rfl, rfl, fun p ↦ ?_⟩
    rcases p with - | - | p <;> rfl
  obtain ⟨s, hs, hp, he, hsettled⟩ := hrun
  have hreach := StepSystem.reachableUnder_of_run hs
  refine ⟨s, hreach, hp, fun hreaches ↦ ?_, ?_⟩
  · cases he.symm.trans hreaches.1
  · exact existsUnique_reaches (by decide) hreach ⟨0, by rw [hp]; rfl⟩ hsettled

end Startup

end OctopusIpc.Server

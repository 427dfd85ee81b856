import Mathlib.Algebra.BigOperators.Group.List.Basic
import Mathlib.Algebra.GroupWithZero.Nat
import OctopusIpc.Server.Writers

/-!
# Clients that stop reading

Every send is made with `server_mutex` held, on a socket that blocks: the kernel keeps what a
client has not read up to a bound, and a `write()` does not return before it got rid of
something. Some clients have stopped reading without hanging up, so no `write()` fails.
-/

namespace OctopusIpc.Server
open Traced

namespace Writers

/-- How much of the send inside the mutex is not written, if it is one to that client. -/
def rest (s : Writers) (fd : Int) : Nat :=
  match s.serverMutex with
  | some h => if h.send.fd = fd then h.send.buffer.length - h.totalSent else 0
  | none => 0

/-- How much a list of sends has for a client. -/
def sizeFor (fd : Int) (xs : List Send) : Nat :=
  (xs.map fun x ↦ if x.fd = fd then x.buffer.length else 0).sum

/-- What is written to a client before a thread is done. -/
def due (s : Writers) (t : Nat) (fd : Int) : Nat := s.rest fd + sizeFor fd (s.pending t)

/-- How far the send inside the mutex and a thread are from being done. -/
def work (s : Writers) (t : Nat) : Nat :=
  (match s.serverMutex with
    | some h => 1 + (h.send.buffer.length - h.totalSent)
    | none => 0) +
    ((s.pending t).map fun x ↦ 2 + x.buffer.length).sum

end Writers

/-- The writing threads, and how many bytes each client has not read. -/
structure Backlog where
  writers : Writers
  unread : Int → Nat

namespace Backlog

/-- What happens next. -/
inductive Action where
  /-- A step of the threads. -/
  | server (a : Writers.Action)
  /-- A client reads. -/
  | read (fd : Int) (count : Nat)

variable (E : Environment) (capacity : Int → Nat) (stalled : Int → Bool)

/-- Nothing has been sent. -/
def init : Backlog := ⟨Writers.init, fun _ ↦ 0⟩

/-- What a step of the threads adds to what a client has not read. -/
def arrived (s : Backlog) (fd : Int) : Writers.Action → Nat
  | .write (.accepted n) =>
    match s.writers.serverMutex with
    | some h => if h.send.fd = fd then n else 0
    | none => 0
  | _ => 0

/-- The kernel has room for what a step of the threads writes, and no `write()` fails. -/
def Accepts (s : Backlog) : Writers.Action → Prop
  | .write (.accepted n) =>
    ∀ h ∈ s.writers.serverMutex, s.unread h.send.fd + n ≤ capacity h.send.fd
  | .write _ => False
  | _ => True

instance (s : Backlog) : (a : Writers.Action) → Decidable (s.Accepts capacity a)
  | .write (.accepted _) => inferInstanceAs (Decidable (∀ h ∈ _, _))
  | .write .interrupted | .write .wouldBlock | .write .badDescriptor =>
    inferInstanceAs (Decidable False)
  | .request _ _ _ _ | .push _ _ _ _ _ _ | .lock _ | .unlock =>
    inferInstanceAs (Decidable True)

/-- When an action is possible. -/
def Enabled (s : Backlog) : Action → Prop
  | .server a => s.writers.Enabled a ∧ s.Accepts capacity a
  | .read fd count => stalled fd = false ∧ 0 < count ∧ count ≤ s.unread fd

instance (s : Backlog) : (a : Action) → Decidable (s.Enabled capacity stalled a)
  | .server a => inferInstanceAs (Decidable (s.writers.Enabled a ∧ s.Accepts capacity a))
  | .read _ _ => inferInstanceAs (Decidable (_ ∧ _ ∧ _))

/-- The effect of an action. -/
def apply (s : Backlog) : Action → Backlog
  | .server a => ⟨s.writers.apply E a, fun fd ↦ s.unread fd + s.arrived fd a⟩
  | .read fd count => { s with unread := Function.update s.unread fd (s.unread fd - count) }

/-- The threads and the clients as a transition system. -/
def system : StepSystem Backlog Action :=
  StepSystem.ofCommands init (Enabled capacity stalled) (apply E)

/-- The clients that have stopped reading have room for what is written to them before a
thread is done. -/
def Fits (s : Backlog) (t : Nat) : Prop :=
  ∀ fd, stalled fd = true → s.unread fd + s.writers.due t fd ≤ capacity fd

variable {E capacity stalled} {s : Backlog} {a : Action} {h : Turn} {t u : Nat} {fd : Int}

/-! ### What a step does to what is due -/

/-- A thread that is loaded with sends is another one. -/
private theorem due_load {w : Writers} (hne : u ≠ t) (xs : List Send) (fd : Int) :
    Writers.due { w with pending := Function.update w.pending u xs } t fd = w.due t fd := by
  simp only [Writers.due, Writers.rest, Function.update_of_ne hne.symm]

private theorem due_lock_self {w : Writers} (hfree : w.serverMutex = none)
    (hpending : w.pending t ≠ []) (fd : Int) : (w.apply E (.lock t)).due t fd = w.due t fd := by
  obtain ⟨x, xs, hx⟩ := List.exists_cons_of_ne_nil hpending
  simp only [Writers.apply, hx, Writers.due, Writers.rest, hfree, Function.update_self,
    Writers.sizeFor, List.map_cons, List.sum_cons, Nat.sub_zero, Nat.zero_add]

private theorem due_lock_le {w : Writers} (hfree : w.serverMutex = none)
    (hpending : w.pending u ≠ []) (hne : u ≠ t) (fd : Int) :
    w.due t fd ≤ (w.apply E (.lock u)).due t fd := by
  obtain ⟨x, xs, hx⟩ := List.exists_cons_of_ne_nil hpending
  simp only [Writers.apply, hx, Writers.due, Writers.rest, hfree,
    Function.update_of_ne hne.symm, Nat.zero_add]
  exact Nat.le_add_left _ _

private theorem due_write {w : Writers} (hm : w.serverMutex = some h) {n : Nat}
    (hn : h.totalSent + n ≤ h.send.buffer.length) (t : Nat) (fd : Int) :
    (if h.send.fd = fd then n else 0) + (w.apply E (.write (.accepted n))).due t fd =
      w.due t fd := by
  simp only [Writers.apply, hm, Turn.afterWrite, Writers.due, Writers.rest]
  split
  · omega
  · omega

private theorem due_unlock {w : Writers} (hm : w.serverMutex = some h)
    (hdone : h.send.buffer.length ≤ h.totalSent) (t : Nat) (fd : Int) :
    (w.apply E .unlock).due t fd = w.due t fd := by
  have hrest : (if h.send.fd = fd then h.send.buffer.length - h.totalSent else 0) = 0 := by
    rw [Nat.sub_eq_zero_of_le hdone, ite_self]
  simp only [Writers.apply, hm, Writers.due, Writers.rest, hrest]

/-! ### Sends that do not fail -/

/-- What runs without hang-ups keep. -/
structure Sound (capacity : Int → Nat) (s : Backlog) : Prop where
  inv : s.writers.Inv
  opened : ∀ fd, s.writers.closed fd = false
  bounded : ∀ fd, s.unread fd ≤ capacity fd

theorem sound_init : Sound capacity init :=
  ⟨Writers.inv_init, fun _ ↦ rfl, fun _ ↦ Nat.zero_le _⟩

theorem Sound.apply (hs : Sound capacity s) (he : s.Enabled capacity stalled a) :
    Sound capacity (s.apply E a) := by
  cases a with
  | server a =>
    obtain ⟨henabled, haccepts⟩ := he
    have hinv : (s.writers.apply E a).Inv := hs.inv.step henabled
    cases a with
    | request | push => exact ⟨hinv, hs.opened, hs.bounded⟩
    | lock u =>
      obtain ⟨x, xs, hx⟩ := List.exists_cons_of_ne_nil henabled.2
      refine ⟨hinv, fun fd ↦ ?_, hs.bounded⟩
      simpa only [Backlog.apply, Writers.apply, hx] using hs.opened fd
    | unlock =>
      obtain ⟨h, hm, -⟩ := henabled
      refine ⟨hinv, fun fd ↦ ?_, hs.bounded⟩
      simpa only [Backlog.apply, Writers.apply, show s.writers.serverMutex = some h from hm]
        using hs.opened fd
    | write result =>
      cases result with
      | interrupted | wouldBlock | badDescriptor => cases haccepts
      | accepted n =>
        obtain ⟨h, hm, -⟩ := henabled
        have hmutex : s.writers.serverMutex = some h := hm
        refine ⟨hinv, fun fd ↦ ?_, fun fd ↦ ?_⟩
        · simp only [Backlog.apply, Writers.apply, hmutex, Writers.closes, hs.opened,
            Bool.or_false, Function.update_apply, ite_self]
        · have hroom := haccepts h hm
          have hbounded := hs.bounded fd
          simp only [Backlog.apply, arrived, hmutex]
          split
          · next hfd =>
            subst hfd
            exact hroom
          · exact hbounded
  | read fd count =>
    refine ⟨hs.inv, hs.opened, fun fd' ↦ ?_⟩
    have hbounded := hs.bounded fd'
    simp only [Backlog.apply, Function.update_apply]
    split
    · next hfd =>
      subst hfd
      omega
    · exact hbounded

theorem sound_of_reachable (h : (system E capacity stalled).Reachable s) : Sound capacity s :=
  h.invariant_of_commands sound_init fun _ _ hs _ he ↦ hs.apply he

/-- The send inside the mutex goes on exactly while something of it is not written. -/
theorem Sound.writing_iff (hs : Sound capacity s) (hm : s.writers.serverMutex = some h) :
    h.Writing ↔ h.totalSent < h.send.buffer.length := by
  have hturn := hs.inv.turn h hm
  constructor
  · rintro ⟨hreturned, hloop⟩
    cases hkind : h.send.kind with
    | buff => exact hloop hkind
    | response =>
      rw [hturn.response hreturned hkind, hturn.oneByte hkind]
      exact Nat.one_pos
  · intro hlt
    refine ⟨?_, fun _ ↦ hlt⟩
    by_contra hreturned
    have hfull := hturn.full (eq_true_of_ne_false hreturned) (hs.opened _)
    omega

/-! ### Threads that cannot be done -/

/-- Whatever happens, what a stalled client has not read and what is due to it do not become
less. -/
theorem Sound.le_apply (hs : Sound capacity s) (hbusy : ¬ s.writers.Idle t)
    (he : s.Enabled capacity stalled a) (hstalled : stalled fd = true) :
    s.unread fd + s.writers.due t fd ≤
      (s.apply E a).unread fd + (s.apply E a).writers.due t fd := by
  cases a with
  | server a =>
    obtain ⟨henabled, haccepts⟩ := he
    cases a with
    | request u | push u =>
      have hne : u ≠ t := by
        rintro rfl
        exact hbusy henabled
      exact Nat.add_le_add_left (Nat.le_of_eq (due_load hne _ fd).symm) _
    | lock u =>
      refine Nat.add_le_add_left ?_ _
      by_cases hu : u = t
      · subst hu
        exact Nat.le_of_eq (due_lock_self (E := E) henabled.1 henabled.2 fd).symm
      · exact due_lock_le (E := E) henabled.1 henabled.2 hu fd
    | unlock =>
      obtain ⟨h, hm, hdone⟩ := henabled
      rw [hs.writing_iff hm, Nat.not_lt] at hdone
      have hdue := due_unlock (E := E) hm hdone t fd
      exact Nat.add_le_add_left (Nat.le_of_eq hdue.symm) _
    | write result =>
      cases result with
      | interrupted | wouldBlock | badDescriptor => cases haccepts
      | accepted n =>
        obtain ⟨h, hm, -, -, -, hn⟩ := henabled
        have hdue := due_write (E := E) hm hn t fd
        have harrived : s.arrived fd (.write (.accepted n)) =
            if h.send.fd = fd then n else 0 := by
          simp only [arrived, show s.writers.serverMutex = some h from hm]
        simp only [Backlog.apply, harrived]
        omega
  | read fd' count =>
    have hne : fd ≠ fd' := by
      rintro rfl
      cases hstalled.symm.trans he.1
    simp only [Backlog.apply, Function.update_of_ne hne]
    exact Nat.le_refl _

/-- The step with which a thread is done releases the mutex. -/
theorem due_of_idle (hbusy : ¬ s.writers.Idle t) (he : s.Enabled capacity stalled a)
    (hidle : (s.apply E a).writers.Idle t) : (s.apply E a).writers.due t fd = 0 := by
  obtain ⟨hpending, hmutex⟩ := hidle
  cases a with
  | server a =>
    obtain ⟨henabled, -⟩ := he
    cases a with
    | request u | push u =>
      have hne : u ≠ t := by
        rintro rfl
        exact hbusy henabled
      simp only [Backlog.apply, Writers.apply, Function.update_of_ne hne.symm] at hpending
      exact absurd ⟨hpending, hmutex⟩ hbusy
    | lock u =>
      obtain ⟨hfree, hu⟩ := henabled
      obtain ⟨x, xs, hx⟩ := List.exists_cons_of_ne_nil hu
      simp only [Backlog.apply, Writers.apply, hx] at hpending hmutex
      have hne : u ≠ t := hmutex _ rfl
      rw [Function.update_of_ne hne.symm] at hpending
      exact absurd ⟨hpending, fun h hm ↦ by cases hfree.symm.trans hm⟩ hbusy
    | write result =>
      obtain ⟨h, hm, -⟩ := henabled
      have hsome : s.writers.serverMutex = some h := hm
      have hthread : (h.afterWrite result).thread = h.thread := by cases result <;> rfl
      simp only [Backlog.apply, Writers.apply, hsome] at hpending hmutex
      refine absurd ⟨hpending, fun g hg ↦ ?_⟩ hbusy
      cases hsome.symm.trans hg
      exact hthread ▸ hmutex _ rfl
    | unlock =>
      obtain ⟨h, hm, -⟩ := henabled
      have hsome : s.writers.serverMutex = some h := hm
      simp only [Backlog.apply, Writers.apply, hsome] at hpending ⊢
      simp only [Writers.due, Writers.rest, hpending]
      rfl
  | read fd' count => exact absurd ⟨hpending, hmutex⟩ hbusy

/-- A thread that is not done, with more due to a stalled client than it has room for. -/
def Blocked (capacity : Int → Nat) (s : Backlog) (t : Nat) (fd : Int) : Prop :=
  ¬ s.writers.Idle t ∧ capacity fd < s.unread fd + s.writers.due t fd

theorem Blocked.apply (hs : Sound capacity s) (hblocked : s.Blocked capacity t fd)
    (he : s.Enabled capacity stalled a) (hstalled : stalled fd = true) :
    (s.apply E a).Blocked capacity t fd := by
  have hmore := hs.le_apply (E := E) hblocked.1 he hstalled
  have hlt := Nat.lt_of_lt_of_le hblocked.2 hmore
  refine ⟨fun hidle ↦ ?_, hlt⟩
  have hbounded := (hs.apply (E := E) he).bounded fd
  rw [due_of_idle hblocked.1 he hidle] at hlt
  omega

/-! ### Threads that can -/

private theorem work_lock {w : Writers} (hfree : w.serverMutex = none)
    (hpending : w.pending t ≠ []) : (w.apply E (.lock t)).work t < w.work t := by
  obtain ⟨x, xs, hx⟩ := List.exists_cons_of_ne_nil hpending
  simp only [Writers.apply, hx, Writers.work, hfree, Function.update_self, List.map_cons,
    List.sum_cons]
  omega

private theorem work_write {w : Writers} (hm : w.serverMutex = some h)
    (hlt : h.totalSent < h.send.buffer.length) (t : Nat) :
    (w.apply E (.write (.accepted 1))).work t < w.work t := by
  simp only [Writers.apply, hm, Turn.afterWrite, Writers.work]
  omega

private theorem work_unlock {w : Writers} (hm : w.serverMutex = some h) (t : Nat) :
    (w.apply E .unlock).work t < w.work t := by
  simp only [Writers.apply, hm, Writers.work]
  omega

/-- A byte goes to a client that has room for it. -/
private theorem Fits.write (hs : Sound capacity s) (hfits : s.Fits capacity stalled t)
    (hm : s.writers.serverMutex = some h) (hlt : h.totalSent < h.send.buffer.length)
    (hroom : s.unread h.send.fd < capacity h.send.fd) :
    s.Enabled capacity stalled (.server (.write (.accepted 1))) ∧
      (s.apply E (.server (.write (.accepted 1)))).Fits capacity stalled t := by
  have hwriting : h.Writing := (hs.writing_iff hm).mpr hlt
  refine ⟨⟨⟨h, hm, hwriting, hs.opened _, Nat.one_pos, hlt⟩, fun g hg ↦ ?_⟩, fun fd hfd ↦ ?_⟩
  · cases hm.symm.trans hg
    exact hroom
  · have hn : h.totalSent + 1 ≤ h.send.buffer.length := hlt
    have hdue := due_write (E := E) hm hn t fd
    have hbefore := hfits fd hfd
    simp only [Backlog.apply, arrived, hm]
    omega

/-- A client without room that has not stopped reading makes some. -/
private theorem Fits.read (hcapacity : ∀ fd, 0 < capacity fd) (hs : Sound capacity s)
    (hfits : s.Fits capacity stalled t) (hreads : stalled fd = false)
    (hfull : capacity fd ≤ s.unread fd) :
    s.Enabled capacity stalled (.read fd 1) ∧
      (s.apply E (.read fd 1)).Fits capacity stalled t ∧
      (s.apply E (.read fd 1)).unread fd < capacity fd := by
  have hpositive := hcapacity fd
  have hbounded := hs.bounded fd
  refine ⟨⟨hreads, Nat.one_pos, Nat.le_trans hpositive hfull⟩, fun fd' hfd' ↦ ?_, ?_⟩
  · have hne : fd' ≠ fd := by
      rintro rfl
      cases hfd'.symm.trans hreads
    simpa only [Backlog.apply, Function.update_of_ne hne] using hfits fd' hfd'
  · simp only [Backlog.apply, Function.update_self]
    omega

/-- The next step of the send inside the mutex if its client has room, or else the client's
read before it; with the mutex free, the thread's next send. -/
private theorem exists_progress (hcapacity : ∀ fd, 0 < capacity fd) (hs : Sound capacity s)
    (hfits : s.Fits capacity stalled t) (hbusy : ¬ s.writers.Idle t) :
    ∃ as s', (∀ a ∈ as, True) ∧
      (system E capacity stalled).run (fun _ _ ↦ True) s as = some s' ∧
      (Sound capacity s' ∧ s'.Fits capacity stalled t) ∧
      s'.writers.work t < s.writers.work t := by
  have hone {b : Backlog} {a : Action} (he : b.Enabled capacity stalled a) :
      (system E capacity stalled).run (fun _ _ ↦ True) b [a] = some (b.apply E a) :=
    StepSystem.run_cons_of_commands trivial he []
  cases hm : s.writers.serverMutex with
  | none =>
    have hpending : s.writers.pending t ≠ [] := fun hnil ↦
      hbusy ⟨hnil, fun h hh ↦ by cases hm.symm.trans hh⟩
    have he : s.Enabled capacity stalled (.server (.lock t)) := ⟨⟨hm, hpending⟩, trivial⟩
    refine ⟨_, _, fun _ _ ↦ trivial, hone he, ⟨hs.apply he, fun fd hfd ↦ ?_⟩,
      work_lock (E := E) hm hpending⟩
    exact (due_lock_self (E := E) hm hpending fd).symm ▸ hfits fd hfd
  | some h =>
    by_cases hlt : h.totalSent < h.send.buffer.length
    · by_cases hroom : s.unread h.send.fd < capacity h.send.fd
      · obtain ⟨he, hafter⟩ := hfits.write (E := E) hs hm hlt hroom
        exact ⟨_, _, fun _ _ ↦ trivial, hone he, ⟨hs.apply he, hafter⟩,
          work_write (E := E) hm hlt t⟩
      · -- A stalled client would have room for the byte, which is due to it.
        have hreads : stalled h.send.fd = false := by
          by_contra hstalled
          have hbefore := hfits h.send.fd (eq_true_of_ne_false hstalled)
          simp only [Writers.due, Writers.rest, hm, if_true] at hbefore
          omega
        obtain ⟨hread, hfits', hroom'⟩ :=
          hfits.read (E := E) hcapacity hs hreads (Nat.not_lt.mp hroom)
        have hsound := hs.apply (E := E) hread
        obtain ⟨he, hafter⟩ := hfits'.write (E := E) hsound hm hlt hroom'
        have hrun := (StepSystem.run_cons_of_commands trivial hread _).trans (hone he)
        exact ⟨_, _, fun _ _ ↦ trivial, hrun, ⟨hsound.apply he, hafter⟩,
          work_write (E := E) hm hlt t⟩
    · have hdone : ¬ h.Writing := fun hw ↦ hlt ((hs.writing_iff hm).mp hw)
      have he : s.Enabled capacity stalled (.server .unlock) := ⟨⟨h, hm, hdone⟩, trivial⟩
      refine ⟨_, _, fun _ _ ↦ trivial, hone he, ⟨hs.apply he, fun fd hfd ↦ ?_⟩,
        work_unlock (E := E) hm t⟩
      exact (due_unlock (E := E) hm (Nat.not_lt.mp hlt) t fd).symm ▸ hfits fd hfd

/-- A thread of the server that has something to send can be done with it exactly if every
client that has stopped reading has room for what is written to it before that: by the send
inside the mutex, whichever thread it is of, and by the thread itself. -/
theorem finishes_iff (hcapacity : ∀ fd, 0 < capacity fd)
    (hreachable : (system E capacity stalled).Reachable s) {t : Nat}
    (hbusy : ¬ s.writers.Idle t) :
    (∃ as s', (system E capacity stalled).run (fun _ _ ↦ True) s as = some s' ∧
      s'.writers.Idle t) ↔ s.Fits capacity stalled t := by
  have hs := sound_of_reachable hreachable
  refine ⟨fun ⟨as, s', hrun, hidle⟩ fd hstalled ↦ ?_, fun hfits ↦ ?_⟩
  · by_contra hmore
    have hblocked : Sound capacity s' ∧ s'.Blocked capacity t fd :=
      StepSystem.invariant_of_run (I := fun b ↦ Sound capacity b ∧ b.Blocked capacity t fd)
        (fun b a b' hb _ hstep ↦ by
          obtain ⟨he, rfl⟩ := StepSystem.ofCommands_step_eq_some_iff.mp hstep
          exact ⟨hb.1.apply he, hb.2.apply hb.1 he hstalled⟩)
        ⟨hs, hbusy, Nat.not_le.mp hmore⟩ hrun
    exact hblocked.2.1 hidle
  · obtain ⟨as, s', -, hrun, -, hidle⟩ := StepSystem.exists_run_of_progress
      (I := fun b ↦ Sound capacity b ∧ b.Fits capacity stalled t) (Q := fun b ↦ b.writers.Idle t)
      (fun b hb hbusy ↦ exists_progress (E := E) hcapacity hb.1 hb.2 hbusy) ⟨hs, hfits⟩
    exact ⟨as, s', hrun, hidle⟩

/-- Two key events are pushed to client 5, which reads neither, and client 6 asks for something
while the second is being written. -/
def pushedTwice : List Action :=
  let server := { ServerState.init with
    activeClients := ipcServerAddClient KeyedSet.empty 5 [] true }
  let pushed := Writers.Action.push 2 5 13 (some fun _ ↦ 9) 1 server
  [.server pushed, .server (.lock 2), .server (.write (.accepted 7)), .server .unlock,
    .server pushed, .server (.lock 2), .server (.write (.accepted 1)),
    .server (.request 0 6 [0xA5, 0xA5, 0, 0, 0, 0] server)]

/-- With room for eight bytes the answer to client 6 waits until client 5 reads. -/
theorem finishes_iff_pushedTwice :
    (∃ s, (system Environment.sample (fun _ ↦ 8) (fun fd ↦ fd == 5)).run (fun _ _ ↦ True) init
        pushedTwice = some s ∧ ¬ ∃ as s', (system Environment.sample (fun _ ↦ 8)
          (fun fd ↦ fd == 5)).run (fun _ _ ↦ True) s as = some s' ∧ s'.writers.Idle 0) ∧
      ∃ s, (system Environment.sample (fun _ ↦ 8) (fun _ ↦ false)).run (fun _ _ ↦ True) init
        pushedTwice = some s ∧ ∃ as s', (system Environment.sample (fun _ ↦ 8)
          (fun _ ↦ false)).run (fun _ _ ↦ True) s as = some s' ∧ s'.writers.Idle 0 := by
  have hrun (stalled : Int → Bool) : ∃ s, (system Environment.sample (fun _ ↦ 8) stalled).run
      (fun _ _ ↦ True) init pushedTwice = some s ∧ s.writers.pending 0 ≠ [] ∧
      s.unread 5 + s.writers.due 0 5 = 14 := ⟨_, rfl, List.cons_ne_nil _ _, rfl⟩
  constructor
  · obtain ⟨s, hs, hpending, hdue⟩ := hrun (fun fd ↦ fd == 5)
    refine ⟨s, hs, fun hfinishes ↦ ?_⟩
    have hfits : s.unread 5 + s.writers.due 0 5 ≤ 8 := (finishes_iff (fun _ ↦ by decide)
      (StepSystem.reachableUnder_of_run hs) fun hidle ↦ hpending hidle.1).mp hfinishes 5 rfl
    omega
  · obtain ⟨s, hs, hpending, -⟩ := hrun (fun _ ↦ false)
    refine ⟨s, hs, (finishes_iff (fun _ ↦ by decide) (StepSystem.reachableUnder_of_run hs)
      fun hidle ↦ hpending hidle.1).mpr fun fd hfd ↦ ?_⟩
    cases hfd

end Backlog

end OctopusIpc.Server

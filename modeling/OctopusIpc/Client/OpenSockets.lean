import OctopusIpc.Client.Connection

/-!
# What the client has open

What is known, in any run, of the socket whose number is stored and of the one that an attempt to
reconnect is about: a number once stored has its socket connected and registered whenever it is
polled, unless it was closed.
-/

namespace OctopusIpc.Client

/-- The socket an attempt to reconnect is about. -/
def LoopPc.attempted : LoopPc → Option Int
  | registering fd | closingUnregistered fd | storing fd | connecting fd
  | closingUnconnected fd => some fd
  | top | polling | reading | closingOld | checkingServer | opening => none

namespace ClientProcess

variable {s : ClientProcess} {a : ClientAction}

/-- If the socket under this number is open, this holds of it. -/
def IfOpen (s : ClientProcess) (fd : Int) (P : ClientSocket → Prop) : Prop :=
  ∀ x, s.kernel fd = some x → P x

/-- What is known of the stored and of the new socket where the receiver thread is. -/
def Placed (s : ClientProcess) : Prop :=
  match s.loop with
  | .top => 0 ≤ s.socketClient → s.IfOpen s.socketClient (· = ⟨true, true⟩)
  | .polling | .reading => 0 ≤ s.socketClient ∧ s.IfOpen s.socketClient (· = ⟨true, true⟩)
  | .closingOld => True
  | .checkingServer | .opening => s.IfOpen s.socketClient fun _ ↦ False
  | .registering fd | .closingUnregistered fd =>
    s.IfOpen s.socketClient fun _ ↦ s.socketClient = fd
  | .storing fd => s.epollInitialized = true ∧ s.IfOpen fd (·.registered = true)
  | .connecting fd => s.socketClient = fd ∧ s.IfOpen fd (·.registered = true)
  | .closingUnconnected fd => s.socketClient = fd

/-- What holds of the client's descriptors in any run. -/
structure Tracked (s : ClientProcess) : Prop where
  nonneg : ∀ fd, s.loop.attempted = some fd → 0 ≤ fd
  /-- Before a number was ever stored nothing is open but what the attempt is about. -/
  unstored : s.socketClient < 0 → ∀ fd, s.IfOpen fd fun _ ↦ s.loop.attempted = some fd
  initialized : 0 ≤ s.socketClient → s.epollInitialized = true
  placed : s.Placed

theorem tracked_init : Tracked init where
  nonneg _ h := by cases h
  unstored _ _ _ h := by cases h
  initialized h := absurd h (by decide)
  placed h := absurd h (by decide)

/-- The receiver thread goes on and touches neither a socket nor a variable. -/
private theorem Tracked.goOn (h : s.Tracked) {pc : LoopPc}
    (hpc : pc.attempted = s.loop.attempted) (hplaced : Placed { s with loop := pc }) :
    Tracked { s with loop := pc } where
  nonneg fd hfd := h.nonneg fd (hpc ▸ hfd)
  unstored hneg fd x hx := hpc ▸ h.unstored hneg fd x hx
  initialized := h.initialized
  placed := hplaced

/-- What is open after a socket has changed. -/
private theorem ifOpen_setSocket {fd fd' : Int} {o : Option ClientSocket}
    {P : ClientSocket → Prop} (hself : fd' = fd → ∀ x, o = some x → P x)
    (hother : fd' ≠ fd → s.IfOpen fd' P) : (s.setSocket fd o).IfOpen fd' P := by
  intro x hx
  by_cases hfd : fd' = fd
  · subst hfd
    simp only [setSocket, Function.update_self] at hx
    exact hself rfl x hx
  · simp only [setSocket, Function.update_of_ne hfd] at hx
    exact hother hfd x hx

/-- Closing a socket, whichever it is, leaves the rest as it was. -/
private theorem ifOpen_close {fd fd' : Int} {P : ClientSocket → Prop} (h : s.IfOpen fd' P) :
    (s.setSocket fd none).IfOpen fd' P :=
  ifOpen_setSocket (fun _ _ hx ↦ by cases hx) fun _ ↦ h

/-- After the close of its number a socket is not open. -/
private theorem ifOpen_close_self {fd : Int} {P : ClientSocket → Prop} :
    (s.setSocket fd none).IfOpen fd P :=
  ifOpen_setSocket (fun _ _ hx ↦ by cases hx) fun hne ↦ absurd rfl hne

/-- What a change to an open socket makes of it. -/
private theorem ifOpen_map {fd fd' : Int} {f : ClientSocket → ClientSocket}
    {P Q : ClientSocket → Prop} (h : s.IfOpen fd' P) (hself : fd' = fd → ∀ x, P x → Q (f x))
    (hother : fd' ≠ fd → ∀ x, P x → Q x) :
    (s.setSocket fd ((s.kernel fd).map f)).IfOpen fd' Q := by
  refine ifOpen_setSocket (fun hfd x hx ↦ ?_) fun hne x hx ↦ hother hne x (h x hx)
  obtain ⟨y, hy, rfl⟩ := Option.map_eq_some_iff.mp hx
  exact hself hfd y (h y (hfd ▸ hy))

/-- A sender may close any number at any time. -/
private theorem Tracked.close (h : s.Tracked) (fd : Int) : (s.setSocket fd none).Tracked where
  nonneg := h.nonneg
  unstored hneg fd' := ifOpen_close (h.unstored hneg fd')
  initialized := h.initialized
  placed := by
    have hplaced := h.placed
    cases hloop : s.loop <;> simp only [Placed, setSocket, hloop] at hplaced ⊢
    case top => exact fun hpos ↦ ifOpen_close (hplaced hpos)
    case polling | reading => exact ⟨hplaced.1, ifOpen_close hplaced.2⟩
    case checkingServer | opening => exact ifOpen_close hplaced
    case registering | closingUnregistered => exact ifOpen_close hplaced
    case storing | connecting => exact ⟨hplaced.1, ifOpen_close hplaced.2⟩
    case closingUnconnected => exact hplaced

/-- The invariant at a given point of the receiver thread. -/
theorem Tracked.at (h : s.Tracked) {pc : LoopPc} (hl : s.loop = pc) :
    Tracked { s with loop := pc } := by
  subst hl
  exact h

/-- The step of an attempt that opens its socket. -/
private theorem Tracked.openSocket (h : s.Tracked) (hl : s.loop = .opening) {fd : Int}
    (hfd : 0 ≤ fd) : (s.apply (.openSocket (some fd))).Tracked := by
  have hclosed : s.IfOpen s.socketClient fun _ ↦ False := (h.at hl).placed
  refine ⟨fun n hn ↦ ?_, fun hneg n ↦ ?_, h.initialized, ?_⟩
  · cases hn
    exact hfd
  · refine ifOpen_setSocket (fun hn _ _ ↦ congrArg some hn.symm) fun _ x hx ↦ ?_
    cases (h.at hl).unstored hneg n x hx
  · exact ifOpen_setSocket (fun hsame _ _ ↦ hsame) fun _ x hx ↦ (hclosed x hx).elim

/-- The step of an attempt that registers its socket. -/
private theorem Tracked.register (h : s.Tracked) {fd : Int} {created ok : Bool}
    (hl : s.loop = .registering fd) (hinit : ok = true → (s.epollInitialized || created) = true) :
    (s.apply (.register fd created ok)).Tracked := by
  have hplaced : s.IfOpen s.socketClient fun _ ↦ s.socketClient = fd := (h.at hl).placed
  have hlater (hpos : 0 ≤ s.socketClient) : (s.epollInitialized || created) = true := by
    rw [h.initialized hpos, Bool.true_or]
  cases ok with
  | true =>
    refine ⟨(h.at hl).nonneg, fun hneg n ↦ ?_, hlater, hinit rfl, ?_⟩
    · exact ifOpen_map ((h.at hl).unstored hneg n) (fun _ _ hn ↦ hn) fun _ _ hn ↦ hn
    · exact ifOpen_map (P := fun _ ↦ True) (fun _ _ ↦ trivial) (fun _ _ _ ↦ rfl)
        fun hne ↦ absurd rfl hne
  | false => exact ⟨(h.at hl).nonneg, (h.at hl).unstored, hlater, hplaced⟩

/-- Every step keeps track of the descriptors. -/
theorem Tracked.step (h : s.Tracked) (he : s.Enabled a) : (s.apply a).Tracked := by
  cases a with
  | testConnection =>
    have hplaced : 0 ≤ s.socketClient → s.IfOpen s.socketClient (· = ⟨true, true⟩) :=
      (h.at he).placed
    simp only [apply]
    split
    · exact h.goOn (by rw [he]; rfl) trivial
    · next hneg => exact h.goOn (by rw [he]; rfl) ⟨Int.not_lt.mp hneg, hplaced (Int.not_lt.mp hneg)⟩
  | initEpoll created =>
    have hplaced : 0 ≤ s.socketClient ∧ s.IfOpen s.socketClient (· = ⟨true, true⟩) :=
      (h.at he.1).placed
    cases he.2.1.symm.trans (h.initialized hplaced.1)
  | poll event =>
    have hplaced : 0 ≤ s.socketClient ∧ s.IfOpen s.socketClient (· = ⟨true, true⟩) :=
      (h.at he.1).placed
    cases event with
    | timeout => exact h.goOn (by rw [he.1]; rfl) fun _ ↦ hplaced.2
    | failed => exact h.goOn (by rw [he.1]; rfl) trivial
    | readable => exact h.goOn (by rw [he.1]; rfl) hplaced
  | read ok =>
    have hplaced : 0 ≤ s.socketClient ∧ s.IfOpen s.socketClient (· = ⟨true, true⟩) :=
      (h.at he.1).placed
    cases ok with
    | true => exact h.goOn (by rw [he.1]; rfl) fun _ ↦ hplaced.2
    | false => exact h.goOn (by rw [he.1]; rfl) trivial
  | closeOld =>
    have hclosed := h.close s.socketClient
    exact hclosed.goOn (by rw [show (s.setSocket _ none).loop = _ from he]; rfl) ifOpen_close_self
  | checkServer running started =>
    have hplaced : s.IfOpen s.socketClient fun _ ↦ False := (h.at he).placed
    simp only [apply]
    split
    · exact h.goOn (by rw [he]; rfl) hplaced
    · exact h.goOn (by rw [he]; rfl) fun _ x hx ↦ (hplaced x hx).elim
  | openSocket fd =>
    have hplaced : s.IfOpen s.socketClient fun _ ↦ False := (h.at he.1).placed
    cases fd with
    | none => exact h.goOn (by rw [he.1]; rfl) fun _ x hx ↦ (hplaced x hx).elim
    | some fd => exact h.openSocket he.1 (he.2 fd rfl).1
  | register fd created ok => exact h.register he.1 fun hok ↦ (he.2 hok).1
  | closeUnregistered fd =>
    have hplaced : s.IfOpen s.socketClient fun _ ↦ s.socketClient = fd := (h.at he).placed
    refine ⟨fun n hn ↦ (by cases hn), fun hneg n ↦ ?_, h.initialized, fun _ ↦ ?_⟩
    · refine ifOpen_setSocket (fun _ _ hx ↦ by cases hx) fun hne x hx ↦ ?_
      exact absurd (Option.some.inj ((h.at he).unstored hneg n x hx)).symm hne
    · exact ifOpen_setSocket (fun _ _ hx ↦ by cases hx) fun hne x hx ↦ absurd (hplaced x hx) hne
  | store fd =>
    have hplaced : s.epollInitialized = true ∧ s.IfOpen fd (·.registered = true) :=
      (h.at he).placed
    have hpos := (h.at he).nonneg fd rfl
    exact ⟨(h.at he).nonneg, fun hneg ↦ absurd hpos (Int.not_le.mpr hneg), fun _ ↦ hplaced.1,
      rfl, hplaced.2⟩
  | connect fd ok =>
    have hplaced : s.socketClient = fd ∧ s.IfOpen fd (·.registered = true) := (h.at he.1).placed
    have hpos : 0 ≤ s.socketClient := hplaced.1 ▸ (h.at he.1).nonneg fd rfl
    cases ok with
    | true =>
      refine ⟨fun n hn ↦ (by cases hn), fun hneg ↦ absurd hpos (Int.not_le.mpr hneg),
        h.initialized, fun _ ↦ ?_⟩
      obtain ⟨rfl, hregistered⟩ := hplaced
      refine ifOpen_map hregistered (fun _ x hx ↦ ?_) fun hne ↦ absurd rfl hne
      obtain ⟨connected, registered⟩ := x
      cases (hx : registered = true)
      rfl
    | false =>
      exact ⟨(h.at he.1).nonneg, fun hneg ↦ absurd hpos (Int.not_le.mpr hneg), h.initialized,
        hplaced.1⟩
  | closeUnconnected fd =>
    have hplaced : s.socketClient = fd := (h.at he).placed
    have hpos : 0 ≤ s.socketClient := hplaced ▸ (h.at he).nonneg fd rfl
    refine ⟨fun n hn ↦ (by cases hn), fun hneg ↦ absurd hpos (Int.not_le.mpr hneg),
      h.initialized, fun _ ↦ ?_⟩
    obtain rfl := hplaced
    exact ifOpen_close_self
  | testSend p | loadSend p | write p fd ok =>
    exact ⟨h.nonneg, h.unstored, h.initialized, h.placed⟩
  | closeSend p fd =>
    have hclosed := h.close fd
    exact ⟨hclosed.nonneg, hclosed.unstored, hclosed.initialized, hclosed.placed⟩

end ClientProcess
end OctopusIpc.Client

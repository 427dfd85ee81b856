import OctopusIpc.Base.Tally
import OctopusIpc.Pool.HealthCheck

/-!
# One scaling at a time

The flag `is_scaling_` is a lock that nobody waits for: the check that finds it set gives up.
The time between two checks that come this far bounds how often the pool is scaled, and so
how many threads it ever creates.
-/

namespace OctopusIpc.Pool

variable {τ : Type}

namespace CheckPc

/-- Between the exchange of `is_scaling_` that found it clear and the store that clears it. -/
def inside : CheckPc → Bool
  | measuring | deciding _ | adding | removing | releasing => true
  | idle | testing _ | stamping _ | exchanging => false

/-- Between the reading of the clock and the store of the time. -/
def timing : CheckPc → Bool
  | testing _ | stamping _ => true
  | idle | exchanging | measuring | deciding _ | adding | removing | releasing => false

/-- With its time stored, and a scaling perhaps still to come. -/
def mayScale : CheckPc → Bool
  | exchanging | measuring | deciding _ | adding | removing => true
  | idle | testing _ | stamping _ | releasing => false

end CheckPc

namespace CheckedPool

variable {cfg : Config} {s s' : CheckedPool τ} {a : CheckAction τ} {p q : Nat}

/-! ### What a step is -/

/-- The steps by what they do, each with the condition under which it does it. -/
inductive Step (cfg : Config) (s : CheckedPool τ) : CheckAction τ → CheckedPool τ → Prop
  | pool (a : Action τ) (pool : ThreadPool τ) (ha : s.allows a = true)
      (hs : (ThreadPool.system cfg).step s.pool a = some pool) :
      Step cfg s (.pool a) { s with pool := pool }
  | tick (nanoseconds : Nat) : Step cfg s (.tick nanoseconds) { s with now := s.now + nanoseconds }
  | check (p : Nat) (hp : s.checks p = .idle) : Step cfg s (.check p) (s.check p)
  | tooEarly (p now : Nat) (hp : s.checks p = .testing now) :
      Step cfg s (.testTime p) (s.setCheck p .idle)
  | due (p now : Nat) (hp : s.checks p = .testing now)
      (ht : s.lastCheck.getD now + 600000000000 ≤ now) :
      Step cfg s (.testTime p) (s.setCheck p (.stamping now))
  | stamp (p now : Nat) (hp : s.checks p = .stamping now) :
      Step cfg s (.stamp p) { s.setCheck p .exchanging with lastCheck := some now }
  | skip (p : Nat) (hp : s.checks p = .exchanging) (hf : s.isScaling = true) :
      Step cfg s (.exchange p) { s.setCheck p .idle with isScaling := true }
  | acquire (p : Nat) (hp : s.checks p = .exchanging) (hf : s.isScaling = false) :
      Step cfg s (.exchange p) { s.setCheck p .measuring with isScaling := true }
  | measure (p : Nat) (hp : s.checks p = .measuring) :
      Step cfg s (.measure p) (s.setCheck p (.deciding s.pool.taskQueue.length))
  | decide (p queueSize : Nat) (hp : s.checks p = .deciding queueSize) :
      Step cfg s (.decide p) (s.setCheck p (s.verdict cfg queueSize))
  | grow (p : Nat) (hp : s.checks p = .adding) (hm : s.pool.queueMutex = none) :
      Step cfg s (.scale p) { s.setCheck p .releasing with pool := s.pool.addThreads 2 }
  | shrink (p : Nat) (hp : s.checks p = .removing) (hm : s.pool.queueMutex = none) :
      Step cfg s (.scale p) { s.setCheck p .releasing with pool := s.pool.removeThreads p 1 }
  | release (p : Nat) (hp : s.checks p = .releasing) :
      Step cfg s (.release p) { s.setCheck p .idle with isScaling := false }

/-- The test of the time. -/
private theorem step_testTime {now : Nat} (hp : s.checks p = .testing now) :
    Step cfg s (.testTime p) (s.testTime p now) := by
  simp only [testTime]
  split
  · exact .tooEarly p now hp
  · next ht => exact .due p now hp (by omega)

/-- Every step is one of these. -/
theorem step_of_eq_some (h : (system cfg).step s a = some s') : Step cfg s a s' := by
  cases a with
  | pool a =>
    simp only [system, step, Option.ite_none_right_eq_some, Option.map_eq_some_iff] at h
    obtain ⟨ha, pool, hs, rfl⟩ := h
    exact .pool a pool ha hs
  | tick nanoseconds =>
    cases h
    exact .tick nanoseconds
  | check p =>
    simp only [system, step] at h
    split at h <;> cases h
    next hp _ => exact .check p hp
  | testTime p =>
    simp only [system, step] at h
    split at h <;> cases h
    next hp => exact step_testTime hp
  | stamp p =>
    simp only [system, step] at h
    split at h <;> cases h
    next now hp => exact .stamp p now hp
  | exchange p =>
    simp only [system, step] at h
    split at h <;> cases h
    next hp =>
      cases hf : s.isScaling with
      | true => exact .skip p hp hf
      | false => exact .acquire p hp hf
  | measure p =>
    simp only [system, step] at h
    split at h <;> cases h
    next hp => exact .measure p hp
  | decide p =>
    simp only [system, step] at h
    split at h <;> cases h
    next queueSize hp => exact .decide p queueSize hp
  | scale p =>
    simp only [system, step] at h
    split at h
    · next hp =>
      obtain ⟨pool, hs, rfl⟩ := Option.map_eq_some_iff.mp h
      have hpool : (ThreadPool.system cfg).step s.pool (.addThreads 2) = some pool := hs
      cases ThreadPool.step_of_eq_some hpool with
      | addThreads count hm => exact .grow p hp hm
    · next hp =>
      obtain ⟨pool, hs, rfl⟩ := Option.map_eq_some_iff.mp h
      have hpool : (ThreadPool.system cfg).step s.pool (.removeThreads p 1) = some pool := hs
      cases ThreadPool.step_of_eq_some hpool with
      | removeThreads p count hm hidle => exact .shrink p hp hm
    · cases h
  | release p =>
    simp only [system, step] at h
    split at h <;> cases h
    next hp _ => exact .release p hp

/-! ### The flag is a lock -/

/-- As many threads are inside as the flag says, none or one. -/
def FlagOk (s : CheckedPool τ) : Prop := Tally s.checks CheckPc.inside s.isScaling.toNat

theorem flagOk_init : FlagOk (init cfg : CheckedPool τ) := Tally.const rfl

private theorem inside_verdict (s : CheckedPool τ) (queueSize : Nat) :
    (s.verdict cfg queueSize).inside = true := by
  unfold verdict
  split
  · rfl
  · split <;> rfl

private theorem timing_verdict (s : CheckedPool τ) (queueSize : Nat) :
    (s.verdict cfg queueSize).timing = false := by
  unfold verdict
  split
  · rfl
  · split <;> rfl

/-- The flag is set by the thread that goes inside and cleared by the one that leaves. -/
theorem FlagOk.step (h : FlagOk s) (hs : Step cfg s a s') : FlagOk s' := by
  cases hs with
  | pool | tick => exact h
  | check p hp => exact h.update_same hp rfl
  | tooEarly p now hp | due p now hp | stamp p now hp => exact h.update_same hp rfl
  | skip p hp hf =>
    have htally := h.update_same (y := .idle) hp rfl
    rw [hf] at htally
    exact htally
  | acquire p hp hf =>
    have htally := h.update_enter (y := .measuring) hp rfl rfl
    rw [hf] at htally
    exact htally
  | measure p hp => exact h.update_same hp rfl
  | decide p queueSize hp => exact h.update_same hp (inside_verdict s queueSize)
  | grow p hp | shrink p hp => exact h.update_same hp rfl
  | release p hp =>
    have hset : s.isScaling.toNat = 0 + 1 := by
      have hpos := h.pos (i := p) (by rw [hp]; rfl)
      have hle := Bool.toNat_le s.isScaling
      omega
    unfold FlagOk at h
    rw [hset] at h
    exact h.update_leave hp rfl rfl

theorem flagOk_of_reachable (h : (system cfg).Reachable s) : FlagOk s :=
  h.invariant flagOk_init fun _ _ _ hi _ hs ↦ hi.step (step_of_eq_some hs)

/-- In every run at most one thread is between the exchange of `is_scaling_` and the store
that clears it, the flag is set exactly while one is, and only that thread scales the pool. -/
theorem scaling_exclusive (h : (system cfg).Reachable s) :
    (s.isScaling = true ↔ ∃ p, (s.checks p).inside = true) ∧
      (∀ p q, (s.checks p).inside = true → (s.checks q).inside = true → p = q) ∧
      ∀ p q s', (system cfg).step s (.scale p) = some s' → (s.checks q).inside = true → p = q := by
  have hflag : Tally s.checks CheckPc.inside s.isScaling.toNat := flagOk_of_reachable h
  have hunique (p q : Nat) (hp : (s.checks p).inside = true) (hq : (s.checks q).inside = true) :
      p = q := hflag.eq_of_le_one (Bool.toNat_le _) hp hq
  refine ⟨⟨fun hset ↦ ?_, ?_⟩, hunique, fun p q s' hs hq ↦ hunique p q ?_ hq⟩
  · by_contra hnone
    have hzero := hflag.eq_zero_iff.mpr fun p ↦ Bool.eq_false_iff.mpr fun hp ↦ hnone ⟨p, hp⟩
    rw [hset] at hzero
    cases hzero
  · rintro ⟨p, hp⟩
    have hpos := hflag.pos hp
    cases hset : s.isScaling with
    | true => rfl
    | false =>
      rw [hset] at hpos
      cases hpos
  · cases step_of_eq_some hs with
    | grow p hp | shrink p hp => rw [hp]; rfl

/-- A check that comes ten minutes after one that is still inside finds the flag set. -/
def overlappingChecks : List (CheckAction Nat) :=
  firstCheck ++ [.tick 600000000000, .check 9, .testTime 9, .stamp 9, .exchange 9,
    .tick 600000000000, .check 8, .testTime 8, .stamp 8, .exchange 8, .measure 9]

theorem scaling_exclusive_overlappingChecks :
    ∃ s : CheckedPool Nat, (system ⟨2, 4, .block⟩).Reachable s ∧ s.checks 9 = .deciding 0 ∧
      s.isScaling = true ∧ ∀ q, (s.checks q).inside = true → q = 9 := by
  have hrun : ∃ s, (system ⟨2, 4, .block⟩).run (fun _ _ ↦ True) (init ⟨2, 4, .block⟩)
      overlappingChecks = some s ∧ s.checks 9 = .deciding 0 := ⟨_, rfl, rfl⟩
  obtain ⟨s, hs, hp⟩ := hrun
  have hreach : (system ⟨2, 4, .block⟩).Reachable s := StepSystem.reachableUnder_of_run hs
  have hinside : (s.checks 9).inside = true := by rw [hp]; rfl
  obtain ⟨hflag, hunique, -⟩ := scaling_exclusive hreach
  exact ⟨s, hreach, hp, hflag.mpr ⟨9, hinside⟩, fun q hq ↦ hunique q 9 hq hinside⟩

/-! ### How much the pool is scaled -/

/-- Ten minutes, in nanoseconds; `src/IPC/octopus_ipc_threadpool.cpp:228`. -/
def checkInterval : Nat := 600000000000

/-- Threads created and removals requested, with so many scalings perhaps still to come, are
within what the intervals until a moment allow. -/
def Within (cfg : Config) (moment threads requests coming : Nat) : Prop :=
  threads + 2 * coming ≤ cfg.threadCount + 2 * (moment / checkInterval) ∧
    requests + coming ≤ moment / checkInterval

variable {moment moment' threads requests requests' coming : Nat}

private theorem Within.later (h : Within cfg moment threads requests coming)
    (hle : moment ≤ moment') : Within cfg moment' threads requests coming := by
  have hmono : moment / checkInterval ≤ moment' / checkInterval := Nat.div_le_div_right hle
  unfold Within at h ⊢
  omega

/-- An interval pays for a scaling. -/
private theorem Within.due (h : Within cfg moment threads requests coming)
    (hle : moment + checkInterval ≤ moment') :
    Within cfg moment' threads requests (coming + 1) := by
  have hmore : moment / checkInterval + 1 ≤ moment' / checkInterval := by
    unfold checkInterval at hle ⊢
    omega
  unfold Within at h ⊢
  omega

private theorem Within.drop (h : Within cfg moment threads requests (coming + 1)) :
    Within cfg moment threads requests coming := by
  unfold Within at h ⊢
  omega

private theorem Within.grow (h : Within cfg moment threads requests (coming + 1)) :
    Within cfg moment (threads + 2) requests coming := by
  unfold Within at h ⊢
  omega

private theorem Within.shrink (h : Within cfg moment threads requests (coming + 1))
    (hle : requests' ≤ requests + 1) : Within cfg moment threads requests' coming := by
  unfold Within at h ⊢
  omega

private theorem Within.fewer (h : Within cfg moment threads requests coming)
    (hle : requests' ≤ requests) : Within cfg moment threads requests' coming := by
  unfold Within at h ⊢
  omega

/-- No call begins while another is between reading the clock and storing the time. -/
def TestsApart (s : CheckedPool τ) : CheckAction τ → Prop
  | .check _ => ∀ q, (s.checks q).timing = false
  | _ => True

/-- What is known of the time that a call has read: it is not before the stored one, and past
the test an interval after it. -/
def TimeOk (s : CheckedPool τ) : CheckPc → Prop
  | .testing now => s.lastCheck.isSome = true ∧ s.lastCheck.getD 0 ≤ now ∧ now ≤ s.now
  | .stamping now => s.lastCheck.getD 0 + checkInterval ≤ now ∧ now ≤ s.now
  | _ => True

/-- One call at most has read the clock and not stored the time. -/
structure TimedOk (s : CheckedPool τ) : Prop where
  alone : ∃ n ≤ 1, Tally s.checks CheckPc.timing n
  time : ∀ p, s.TimeOk (s.checks p)

theorem timedOk_init : TimedOk (init cfg : CheckedPool τ) where
  alone := ⟨0, Nat.zero_le 1, Tally.const rfl⟩
  time _ := trivial

private theorem getD_le (h : s.lastCheck.getD 0 ≤ s.now) :
    s.lastCheck.getD 0 ≤ s.lastCheck.getD s.now ∧ s.lastCheck.getD s.now ≤ s.now := by
  cases hl : s.lastCheck with
  | none => exact ⟨Nat.zero_le _, Nat.le_refl _⟩
  | some last =>
    rw [hl] at h
    exact ⟨Nat.le_refl _, h⟩

private theorem timeOk_of_timing_eq_false {pc : CheckPc} (h : pc.timing = false) :
    s.TimeOk pc := by
  cases pc with
  | testing now | stamping now => cases h
  | _ => trivial

private theorem timeOk_update {pc : CheckPc} (h : ∀ q, s.TimeOk (s.checks q))
    (hpc : s.TimeOk pc) (q : Nat) : s.TimeOk (Function.update s.checks p pc q) := by
  rw [Function.update_apply]
  split
  · exact hpc
  · exact h q

/-- A call that is not between the clock and the store goes on to a place that is not. -/
private theorem TimedOk.goOn (h : s.TimedOk) (pc : CheckPc) (hp : (s.checks p).timing = false)
    (hpc : pc.timing = false) (hchecks : s'.checks = Function.update s.checks p pc)
    (hlast : s'.lastCheck = s.lastCheck) (hnow : s'.now = s.now) : s'.TimedOk := by
  obtain ⟨n, hn, htally⟩ := h.alone
  refine ⟨⟨n, hn, ?_⟩, fun q ↦ ?_⟩
  · rw [hchecks]
    exact htally.update_same rfl (hpc.trans hp.symm)
  · have hq := timeOk_update (p := p) h.time (timeOk_of_timing_eq_false hpc) q
    unfold TimeOk at hq ⊢
    rw [hchecks, hlast, hnow]
    exact hq

/-- A call that gives up, or has stored the time, leaves nobody between the clock and the
store. -/
private theorem TimedOk.leave (h : s.TimedOk) (pc : CheckPc) (hp : (s.checks p).timing = true)
    (hpc : pc.timing = false) (hchecks : s'.checks = Function.update s.checks p pc) :
    s'.TimedOk := by
  obtain ⟨n, hn, htally⟩ := h.alone
  have hone : n = 0 + 1 := by
    have hpos := htally.pos hp
    omega
  subst hone
  have hnobody : Tally s'.checks CheckPc.timing 0 := hchecks ▸ htally.update_leave rfl hp hpc
  exact ⟨⟨0, Nat.zero_le 1, hnobody⟩,
    fun q ↦ timeOk_of_timing_eq_false (hnobody.eq_zero_iff.mp rfl q)⟩

/-- Calls that begin apart keep apart. -/
theorem TimedOk.step (h : s.TimedOk) (hnow : s.lastCheck.getD 0 ≤ s.now)
    (hg : s.TestsApart a) (hs : Step cfg s a s') : s'.TimedOk := by
  cases hs with
  | pool => exact ⟨h.alone, h.time⟩
  | tick nanoseconds =>
    refine ⟨h.alone, fun q ↦ ?_⟩
    have hq := h.time q
    show TimeOk _ (s.checks q)
    cases hpc : s.checks q with
    | testing now =>
      rw [hpc] at hq
      exact ⟨hq.1, hq.2.1, Nat.le_add_right_of_le hq.2.2⟩
    | stamping now =>
      rw [hpc] at hq
      exact ⟨hq.1, Nat.le_add_right_of_le hq.2⟩
    | _ => trivial
  | check p hp =>
    obtain ⟨n, -, htally⟩ := h.alone
    have hzero : n = 0 := htally.eq_zero_iff.mpr hg
    subst hzero
    refine ⟨⟨1, Nat.le_refl 1, htally.update_enter hp rfl rfl⟩, fun q ↦ ?_⟩
    show TimeOk _ (Function.update s.checks p (.testing s.now) q)
    rw [Function.update_apply]
    split
    · exact ⟨rfl, (getD_le hnow).2, Nat.le_refl s.now⟩
    · exact timeOk_of_timing_eq_false (hg q)
  | tooEarly p now hp => exact h.leave .idle (by rw [hp]; rfl) rfl rfl
  | due p now hp ht =>
    obtain ⟨n, hn, htally⟩ := h.alone
    have htime : s.TimeOk (.testing now) := hp ▸ h.time p
    refine ⟨⟨n, hn, htally.update_same hp rfl⟩, timeOk_update h.time ⟨?_, htime.2.2⟩⟩
    obtain ⟨last, hlast⟩ := Option.isSome_iff_exists.mp htime.1
    rw [hlast] at ht ⊢
    exact ht
  | stamp p now hp => exact h.leave .exchanging (by rw [hp]; rfl) rfl rfl
  | skip p hp => exact h.goOn .idle (by rw [hp]; rfl) rfl rfl rfl rfl
  | acquire p hp => exact h.goOn .measuring (by rw [hp]; rfl) rfl rfl rfl rfl
  | measure p hp => exact h.goOn (.deciding _) (by rw [hp]; rfl) rfl rfl rfl rfl
  | decide p queueSize hp =>
    exact h.goOn (s.verdict cfg queueSize) (by rw [hp]; rfl) (timing_verdict s queueSize) rfl rfl
      rfl
  | grow p hp | shrink p hp => exact h.goOn .releasing (by rw [hp]; rfl) rfl rfl rfl rfl
  | release p hp => exact h.goOn .idle (by rw [hp]; rfl) rfl rfl rfl rfl

/-- The pool is within what the intervals until the last check allow that came as far as the
exchange. -/
def PacedOk (cfg : Config) (s : CheckedPool τ) : Prop :=
  s.lastCheck.getD 0 ≤ s.now ∧ ∃ coming, Tally s.checks CheckPc.mayScale coming ∧
    Within cfg (s.lastCheck.getD 0) s.pool.workers.length s.pool.threadsToTerminate coming

theorem pacedOk_init : PacedOk cfg (init cfg : CheckedPool τ) := by
  have hlength : (init cfg : CheckedPool τ).pool.workers.length = cfg.threadCount :=
    List.length_replicate
  refine ⟨Nat.zero_le _, 0, Tally.const rfl, ?_⟩
  rw [hlength]
  exact ⟨Nat.le_add_right _ _, Nat.zero_le _⟩

/-- By itself the pool creates no thread and requests no removal. -/
private theorem own_le {b : Action τ} {t t' : ThreadPool τ} (hs : ThreadPool.Step cfg t b t')
    (hb : s.allows b = true) :
    t'.workers.length = t.workers.length ∧ t'.threadsToTerminate ≤ t.threadsToTerminate := by
  cases hs with
  | addThreads | removeThreads => cases hb
  | shrink w hw hq hr ht =>
    have hone := ThreadPool.decrement_add_one ht
    refine ⟨List.length_set, ?_⟩
    show decrement _ ≤ _
    omega
  | notifyAll => exact ⟨List.length_map _, Nat.le_refl _⟩
  | call | submitWaits | submitted | lost | clear | join => exact ⟨rfl, Nat.le_refl _⟩
  | woken | enter | leave | lock | pass | fail | block | wake | stop | take | begin | finish =>
    exact ⟨List.length_set, Nat.le_refl _⟩

/-- A thread that leaves a place with a scaling to come was counted there. -/
private theorem exists_succ {n : Nat} (h : Tally s.checks CheckPc.mayScale n) {pc : CheckPc}
    (hp : s.checks p = pc) (hpc : pc.mayScale = true) : ∃ m, n = m + 1 :=
  Nat.exists_eq_succ_of_ne_zero (h.pos (hp ▸ hpc)).ne'

/-- One removal at most is requested. -/
private theorem requests_le (t : ThreadPool τ) (p : Nat) :
    (t.removeThreads p 1).threadsToTerminate ≤ t.threadsToTerminate + 1 := by
  refine (Nat.mod_le _ _).trans (Nat.add_le_add_left ?_ _)
  split <;> omega

/-- A check that comes as far as the exchange opens an interval of its own, which pays for
the scaling it may bring. -/
theorem PacedOk.step (h : PacedOk cfg s) (htimed : s.TimedOk) (hs : Step cfg s a s') :
    PacedOk cfg s' := by
  obtain ⟨hnow, n, htally, hwithin⟩ := h
  obtain ⟨hlater, hlast⟩ := getD_le hnow
  cases hs with
  | pool b pool hb hs =>
    obtain ⟨hlength, hrequests⟩ := own_le (ThreadPool.step_of_eq_some hs) hb
    have hpool := hwithin.fewer hrequests
    rw [← hlength] at hpool
    exact ⟨hnow, n, htally, hpool⟩
  | tick nanoseconds => exact ⟨Nat.le_add_right_of_le hnow, n, htally, hwithin⟩
  | check p hp => exact ⟨hlast, n, htally.update_same hp rfl, hwithin.later hlater⟩
  | tooEarly p now hp | due p now hp => exact ⟨hnow, n, htally.update_same hp rfl, hwithin⟩
  | stamp p now hp =>
    have htime : s.TimeOk (.stamping now) := hp ▸ htimed.time p
    exact ⟨htime.2, n + 1, htally.update_enter hp rfl rfl, hwithin.due htime.1⟩
  | skip p hp =>
    obtain ⟨m, rfl⟩ := exists_succ htally hp rfl
    exact ⟨hnow, m, htally.update_leave hp rfl rfl, hwithin.drop⟩
  | acquire p hp | measure p hp => exact ⟨hnow, n, htally.update_same hp rfl, hwithin⟩
  | decide p queueSize hp =>
    cases hscale : (s.verdict cfg queueSize).mayScale with
    | true => exact ⟨hnow, n, htally.update_same hp hscale, hwithin⟩
    | false =>
      obtain ⟨m, rfl⟩ := exists_succ htally hp rfl
      exact ⟨hnow, m, htally.update_leave hp rfl hscale, hwithin.drop⟩
  | grow p hp =>
    obtain ⟨m, rfl⟩ := exists_succ htally hp rfl
    have hlength : (s.pool.addThreads 2).workers.length = s.pool.workers.length + 2 := by
      simp only [ThreadPool.addThreads, List.length_append, List.length_replicate]
    have hgrown := hwithin.grow
    rw [← hlength] at hgrown
    exact ⟨hnow, m, htally.update_leave hp rfl rfl, hgrown⟩
  | shrink p hp =>
    obtain ⟨m, rfl⟩ := exists_succ htally hp rfl
    exact ⟨hnow, m, htally.update_leave hp rfl rfl, hwithin.shrink (requests_le s.pool p)⟩
  | release p hp => exact ⟨hnow, n, htally.update_same hp rfl, hwithin⟩

/-- In every run whose calls test the time apart, they keep apart and the pool is paced. -/
theorem pacedOk_of_reachable (h : (system cfg).ReachableUnder TestsApart s) :
    TimedOk s ∧ PacedOk cfg s :=
  h.invariant (I := fun t ↦ TimedOk t ∧ PacedOk cfg t) ⟨timedOk_init, pacedOk_init⟩
    fun _ _ _ hi hg hs ↦
      ⟨hi.1.step hi.2.1 hg (step_of_eq_some hs), hi.2.step hi.1 (step_of_eq_some hs)⟩

/-- In every run in which no call of `health_check` begins while another is between reading the
clock and storing the time, however often it is called and by however many threads, the pool
has created at most two threads and has at most one more request to remove one pending for
each ten minutes on its clock. -/
theorem workers_length_le (h : (system cfg).ReachableUnder TestsApart s) :
    s.pool.workers.length ≤ cfg.threadCount + 2 * (s.now / checkInterval) ∧
      s.pool.threadsToTerminate ≤ s.now / checkInterval := by
  obtain ⟨-, hnow, n, -, hwithin⟩ := pacedOk_of_reachable h
  have hlater := hwithin.later hnow
  unfold Within at hlater
  omega

/-- One thread makes all the calls. -/
def CalledBy (caller : Nat) (_ : CheckedPool τ) : CheckAction τ → Prop
  | .check p => p = caller
  | _ => True

instance (caller : Nat) (s : CheckedPool τ) : (a : CheckAction τ) → Decidable (CalledBy caller s a)
  | .check _ => inferInstanceAs (Decidable (_ = _))
  | .pool _ | .tick _ | .testTime _ | .stamp _ | .exchange _ | .measure _ | .decide _ | .scale _
  | .release _ => inferInstanceAs (Decidable True)

/-- Other threads than the one that calls are never in a check. -/
private theorem idle_of_calledBy {caller : Nat}
    (h : (system cfg).ReachableUnder (CalledBy caller) s) :
    ∀ q, q ≠ caller → s.checks q = .idle := by
  refine h.invariant (I := fun t ↦ ∀ q, q ≠ caller → t.checks q = .idle) (fun _ _ ↦ rfl)
    fun t a t' ht hg hs ↦ ?_
  have hgo {p : Nat} {pc : CheckPc} (hp : p = caller) (q : Nat) (hq : q ≠ caller) :
      Function.update t.checks p pc q = .idle := by
    rw [Function.update_of_ne (hp ▸ hq)]
    exact ht q hq
  have hcaller {p : Nat} {pc : CheckPc} (hp : t.checks p = pc) (hpc : pc ≠ .idle) : p = caller :=
    by_contra fun hne ↦ hpc (hp.symm.trans (ht p hne))
  cases step_of_eq_some hs with
  | pool | tick => exact ht
  | check p hp => exact hgo hg
  | tooEarly p now hp | due p now hp | stamp p now hp => exact hgo (hcaller hp nofun)
  | skip p hp | acquire p hp | measure p hp | grow p hp | shrink p hp | release p hp =>
    exact hgo (hcaller hp nofun)
  | decide p queueSize hp => exact hgo (hcaller hp nofun)

/-- The calls of one thread do not overlap. -/
theorem testsApart_of_calledBy {caller : Nat}
    (h : (system cfg).ReachableUnder (CalledBy caller) s) :
    (system cfg).ReachableUnder TestsApart s := by
  refine h.mono_of_reachable fun t a t' ht hg hs ↦ ?_
  cases step_of_eq_some hs with
  | check p hp =>
    intro q
    by_cases hq : q = caller
    · rw [hq, ← hg, hp]
      rfl
    · rw [idle_of_calledBy ht q hq]
      rfl
  | _ => trivial

/-- A full queue of one task brings two threads after ten minutes. -/
def grownByTwo : List (CheckAction Nat) :=
  [.pool (.call 0 (.plain 7)), .pool (.submit 0)] ++ firstCheck ++
    [.tick 600000000000, .check 9, .testTime 9, .stamp 9, .exchange 9, .measure 9, .decide 9,
      .scale 9, .release 9]

theorem workers_length_grownByTwo :
    ∃ s : CheckedPool Nat, (system ⟨1, 1, .block⟩).ReachableUnder TestsApart s ∧
      s.now = 600000000000 ∧ s.pool.workers.length = 3 ∧
      s.pool.workers.length ≤ 1 + 2 * (s.now / checkInterval) := by
  have hrun : ∃ s, (system ⟨1, 1, .block⟩).run (CalledBy 9) (init ⟨1, 1, .block⟩)
      grownByTwo = some s ∧ s.now = 600000000000 ∧ s.pool.workers.length = 3 :=
    ⟨_, rfl, rfl, rfl⟩
  obtain ⟨s, hs, hnow, hlength⟩ := hrun
  have hreach := testsApart_of_calledBy (StepSystem.reachableUnder_of_run hs)
  exact ⟨s, hreach, hnow, hlength, (workers_length_le hreach).1⟩

/-- Two calls that overlap before the store both scale the pool after the same ten minutes. -/
theorem exists_workers_length_overlappingTests :
    ∃ s : CheckedPool Nat, (system ⟨1, 1, .block⟩).Reachable s ∧ s.now = 600000000000 ∧
      s.pool.workers.length = 5 := by
  have hrun : ∃ s, (system ⟨1, 1, .block⟩).run (fun _ _ ↦ True) (init ⟨1, 1, .block⟩)
      ([.pool (.call 0 (.plain 7)), .pool (.submit 0)] ++ firstCheck ++
        [.tick 600000000000, .check 9, .check 8, .testTime 9, .testTime 8, .stamp 9, .stamp 8,
          .exchange 9, .measure 9, .decide 9, .scale 9, .release 9, .exchange 8, .measure 8,
          .decide 8, .scale 8]) = some s ∧ s.now = 600000000000 ∧ s.pool.workers.length = 5 :=
    ⟨_, rfl, rfl, rfl⟩
  obtain ⟨s, hs, hnow, hlength⟩ := hrun
  exact ⟨s, StepSystem.reachableUnder_of_run hs, hnow, hlength⟩

end CheckedPool

end OctopusIpc.Pool

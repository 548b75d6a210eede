import BoilerplateExpress.Resilience.Episodes

/-!
# The pause of an open circuit

A trip fixes the instant of the next probe. Until that instant the circuit is open and a settlement
changes nothing about it; from then on the first read makes it half-open. No permit that was out at
the trip is a probe of that episode, so all of its slots are free until one is handed out.
-/
namespace BoilerplateExpress.Resilience

open List
open CircuitBreaker

/-- The probe instant of a trip at `now` in exact arithmetic. -/
def exactInstant (settings : BreakerSettings) (now : ℚ) (random : Draw) : ℚ :=
  let jitterWindow := ⌊(settings.openMs : ℚ) * settings.openJitterRatio⌋
  let spread := if 0 < jitterWindow then fullJitterDelay 1 jitterWindow jitterWindow random else 0
  now + (settings.openMs - jitterWindow) + spread

/-- The jitter takes up the last part of the pause. -/
lemma exactInstant_bounds (settings now random) :
    now + settings.openMs - ⌊(settings.openMs : ℚ) * settings.openJitterRatio⌋ ≤
        exactInstant settings now random ∧
      exactInstant settings now random ≤ now + settings.openMs := by
  unfold exactInstant
  dsimp only
  have hwin : 0 ≤ ⌊(settings.openMs : ℚ) * settings.openJitterRatio⌋ :=
    Int.floor_nonneg.mpr (mul_nonneg (Nat.cast_nonneg _) settings.jitter_nonneg)
  generalize ⌊(settings.openMs : ℚ) * settings.openJitterRatio⌋ = jitterWindow at hwin ⊢
  have hcast : (0 : ℚ) ≤ jitterWindow := by exact_mod_cast hwin
  split_ifs
  · obtain ⟨hlow, hhigh⟩ := fullJitterDelay_bounds 1 random hcast hcast
    have hlow' : (0 : ℚ) ≤ fullJitterDelay 1 jitterWindow jitterWindow random := by
      exact_mod_cast hlow
    constructor <;> linarith
  · constructor <;> push_cast <;> linarith

namespace BreakerSystem

variable (settings : BreakerSettings)

/-- What holds after a trip that set the probe instant to `due` when `issued` permits were out. -/
structure SinceTrip (due : ℚ) (issued : ℕ) (s : BreakerSystem) : Prop
    extends Accounted settings s where
  admitted : issued ≤ s.permits.length
  waiting : s.permits.length = issued → s.breaker.openUntil = due ∧
    (s.breaker.currentState = .opened ∨ s.breaker.currentState = .halfOpen ∧ due ≤ s.clock ∧
      ∀ held ∈ s.permits, held.permit.generation ≠ s.breaker.generation)
  elapsed : issued < s.permits.length → due ≤ s.clock

variable {settings} {due : ℚ} {issued : ℕ} {s : BreakerSystem} {now : Readings}

/-- Whoever is let in comes at the probe instant or after it. -/
lemma SinceTrip.due_le (hs : SinceTrip settings due issued s) (hclk : s.clock ≤ now.first)
    (hadm : s.breaker.Admits settings now) : due ≤ now.first := by
  rcases hs.admitted.lt_or_eq with hsome | hnone
  · exact (hs.elapsed hsome).trans hclk
  · obtain ⟨rfl, hop | ⟨-, hdue, -⟩⟩ := hs.waiting hnone.symm
    · rw [Admits, hop] at hadm
      exact hadm
    · exact hdue.trans hclk

lemma sinceTrip_look (hs : SinceTrip settings due issued s) (hclk : s.clock ≤ now.first) :
    SinceTrip settings due issued (s.look settings now) := by
  have hlast := now.first_le_fourth
  refine ⟨accounted_look settings now hs.toAccounted, hs.admitted, ?_, ?_⟩
  · intro hnone
    obtain ⟨hdue, hst⟩ := hs.waiting hnone
    unfold look
    rcases state_cases settings s.breaker now with ⟨-, hsame⟩ | ⟨-, hexp, hopens⟩
    · rw [hsame]
      refine ⟨hdue, hst.imp_right fun ⟨hhalf, hpast, hold⟩ => ⟨hhalf, ?_, hold⟩⟩
      exact hpast.trans (hclk.trans hlast)
    · rw [hopens]
      refine ⟨hdue, .inr ⟨rfl, hdue ▸ hexp.trans hlast, ?_⟩⟩
      intro held hheld
      exact (Nat.lt_succ_of_le (hs.generations held hheld)).ne
  · exact fun hsome => (hs.elapsed hsome).trans (hclk.trans hlast)

lemma sinceTrip_step (s a t) (hs : SinceTrip settings due issued s)
    (h : step settings s a = some t) : SinceTrip settings due issued t := by
  have hacc := accounted_step settings s a t hs.toAccounted h
  obtain ⟨hclk, hmoved⟩ := moved settings h
  have hlast := a.now.first_le_fourth
  cases hmoved with
  | acquires now =>
    have hspec := acquired settings s now
    generalize s.acquire settings now = result at hspec hacc ⊢
    cases hspec with
    | refused error hnot => exact sinceTrip_look hs hclk
    | granted hadm =>
      have hadmit := hs.admitted
      have hlon : (s.look settings now).issue.permits.length = s.permits.length + 1 :=
        length_append
      refine ⟨hacc, ?_, ?_, fun _ => (hs.due_le hclk hadm).trans hlast⟩ <;>
        dsimp only <;> omega
  | looks now => exact sinceTrip_look hs hclk
  | again => exact hs
  | @settles place held outcome now _ _ _ hheld huns hrecd =>
    have hlen : (s.permits.set place { held with settled := true }).length = s.permits.length :=
      length_set
    have hmem := mem_of_getElem? hheld
    refine ⟨hacc, hlen ▸ hs.admitted, ?_, ?_⟩
    · rw [hlen]
      intro hnone
      obtain ⟨hdue, hwaits⟩ := hs.waiting hnone
      -- while no permit has been issued, the settlement of an older one decides nothing
      have hold (hhalf : s.breaker.currentState = .halfOpen) : held.permit ≠ probe s.breaker := by
        rcases hwaits with hop | ⟨-, -, hold⟩
        · exact absurd (hhalf.symm.trans hop) (by decide)
        · exact fun hprobe => hold held hmem (by rw [hprobe, probe])
      cases hrecd with
      | stays successes =>
        obtain ⟨hst, hgen, hopen, -⟩ :=
          noteOutcome_frame settings s.breaker outcome held.permit now.first
        refine ⟨hopen.trans hdue, ?_⟩
        rw [hst, hgen]
        rcases hwaits with hop | ⟨hhalf, hpast, hold⟩
        · exact .inl hop
        · refine .inr ⟨hhalf, hpast.trans (hclk.trans hlast), fun p hp => ?_⟩
          rcases mem_or_eq_of_mem_set hp with hmem' | rfl
          · exact hold p hmem'
          · exact hold held hmem
      | trips failureRate hfrom =>
        rcases hfrom with ⟨hhalf, hprobe⟩ | ⟨hcl, -⟩
        · exact absurd hprobe (hold hhalf)
        · rcases hwaits with hop | ⟨hhalf, -, -⟩
          · exact absurd (hcl.symm.trans hop) (by decide)
          · exact absurd (hcl.symm.trans hhalf) (by decide)
      | closes hhalf hprobe => exact absurd hprobe (hold hhalf)
    · rw [hlen]
      exact fun hsome => (hs.elapsed hsome).trans (hclk.trans hlast)

lemma sinceTrip_of_trip {place outcome random u} (hs : Accounted settings s)
    (hstep : step settings s (.settle place outcome now random) = some u)
    (hpre : s.breaker.currentState ≠ .opened) (haft : u.breaker.currentState = .opened) :
    SinceTrip settings (probeInstant settings now.third random) u.permits.length u := by
  refine ⟨accounted_step settings s _ u hs hstep, le_rfl, fun _ => ⟨?_, .inl haft⟩,
    fun h => absurd h (lt_irrefl _)⟩
  cases (moved settings hstep).2 with
  | again => exact absurd haft hpre
  | @settles _ held _ _ _ _ _ hheld huns hrecd =>
    cases hrecd with
    | stays successes =>
      have hst := (noteOutcome_frame settings s.breaker outcome held.permit now.first).1
      exact absurd (hst.symm.trans haft) hpre
    | trips failureRate hfrom => rfl
    | closes hhalf hprobe => cases haft

/-- With no permit issued since the trip, a call at the probe instant or later is let in as
a probe. -/
lemma SinceTrip.probes (hs : SinceTrip settings due issued s) (hnone : s.permits.length = issued)
    (hdue : due ≤ now.first) :
    (s.acquire settings now).1 = .ok s.permits.length ∧
      ∃ held, (s.acquire settings now).2.permits = s.permits ++ [held] ∧
        held.permit.issuedIn = .halfOpen := by
  obtain ⟨huntil, hwaits⟩ := hs.waiting hnone
  have hadm : s.breaker.Admits settings now := by
    rcases hwaits with hop | ⟨hhalf, -, hold⟩
    · rw [Admits, hop]
      exact huntil.le.trans hdue
    · have hslots := hs.slots
      have hlive : s.live = 0 := countP_eq_zero.mpr fun held hheld => by
        have hne : held.permit ≠ probe s.breaker := fun h => hold held hheld (by rw [h, probe])
        simp [hne]
      rw [hhalf, if_neg (by decide), hlive] at hslots
      rw [Admits, hhalf]
      exact hslots ▸ settings.halfOpenProbes_pos
  have hnot : s.breaker.currentState ≠ .closed := by
    rcases hwaits with hop | ⟨hhalf, -, -⟩
    · simp [hop]
    · simp [hhalf]
  have hspec := acquired settings s now
  generalize s.acquire settings now = result at hspec ⊢
  cases hspec with
  | refused error href => exact absurd hadm href
  | granted _ hopen =>
    refine ⟨rfl, _, rfl, ?_⟩
    cases hst : (s.look settings now).breaker.currentState with
    | halfOpen => rfl
    | opened => exact absurd hst hopen
    | closed => exact absurd ((look_frame settings s now).2 hst) hnot

end BreakerSystem

/-- After a trip at time `t` in any run, for numbers that need no rounding: every permit handed out
later comes at `t + openMs - ⌊openMs * openJitterRatio⌋` or after it; as long as none is handed out,
no settlement moves the probe instant, and a call at `t + openMs` or later is let in as a probe. -/
theorem open_circuit_pauses_and_recovers (settings : BreakerSettings) (clock : ℚ)
    (as : List BreakerSystem.Action) (s : BreakerSystem)
    (hexec : Machine.exec (BreakerSystem.step settings) (BreakerSystem.start clock) as = some s)
    (place : ℕ) (outcome : CircuitOutcome) (now : Readings) (random : Draw) (u : BreakerSystem)
    (hstep : BreakerSystem.step settings s (.settle place outcome now random) = some u)
    (hbefore : s.breaker.currentState ≠ .opened) (hafter : u.breaker.currentState = .opened)
    (hexact : probeInstant settings now.third random = exactInstant settings now.third random)
    (bs : List BreakerSystem.Action) (v : BreakerSystem)
    (hrest : Machine.exec (BreakerSystem.step settings) u bs = some v)
    (later : Readings) (hlater : v.clock ≤ later.first) :
    ((∃ permit, (v.acquire settings later).1 = .ok permit) →
      now.third + settings.openMs - ⌊(settings.openMs : ℚ) * settings.openJitterRatio⌋ ≤
        later.first) ∧
    (v.permits.length = u.permits.length → v.breaker.openUntil = u.breaker.openUntil) ∧
    (v.permits.length = u.permits.length → now.third + settings.openMs ≤ later.first →
      (v.acquire settings later).1 = .ok v.permits.length ∧
        ∃ held, (v.acquire settings later).2.permits = v.permits ++ [held] ∧
          held.permit.issuedIn = .halfOpen) := by
  have hu := BreakerSystem.sinceTrip_of_trip (BreakerSystem.accounted_run settings hexec) hstep
    hbefore hafter
  have hv := Machine.exec_invariant _ BreakerSystem.sinceTrip_step hu hrest
  rw [hexact] at hu hv
  obtain ⟨hleast, hmost⟩ := exactInstant_bounds settings now.third random
  refine ⟨?_, ?_, ?_⟩
  · rintro ⟨permit, hpmt⟩
    refine hleast.trans (hv.due_le hlater ?_)
    have hspec := BreakerSystem.acquired settings v later
    generalize v.acquire settings later = result at hspec hpmt
    cases hspec with
    | refused error hnot => cases hpmt
    | granted hadm => exact hadm
  · exact fun hnone => (hv.waiting hnone).1.trans (hu.waiting rfl).1.symm
  · exact fun hnone hdue => hv.probes hnone (hmost.trans hdue)

/-- One failure opens the circuit at 0 ms, and a call that was let in before fails after it; thirty
seconds after the first failure a call is let in as a probe. -/
theorem open_circuit_recovers_despite_straggler :
    ∃ s u v, Machine.exec (BreakerSystem.step tripsAtOnce) (BreakerSystem.start 0)
        [.acquire (.same 0), .acquire (.same 0)] = some s ∧
      BreakerSystem.step tripsAtOnce s (.settle 0 .failure (.same 0) Draw.zero) = some u ∧
      u.breaker.currentState = .opened ∧
      Machine.exec (BreakerSystem.step tripsAtOnce) u
        [.settle 1 .failure (.same 100) Draw.zero] = some v ∧
      v.breaker.openUntil = u.breaker.openUntil ∧
      ∃ held, (v.acquire tripsAtOnce (.same 30000)).2.permits = v.permits ++ [held] ∧
        held.permit.issuedIn = .halfOpen := by
  have hrun : (Machine.exec (BreakerSystem.step tripsAtOnce) (BreakerSystem.start 0)
      [.acquire (.same 0), .acquire (.same 0)]).bind (fun s =>
        (BreakerSystem.step tripsAtOnce s (.settle 0 .failure (.same 0) Draw.zero)).bind (fun u =>
          (Machine.exec (BreakerSystem.step tripsAtOnce) u
            [.settle 1 .failure (.same 100) Draw.zero]).map (fun v =>
              (s.breaker.currentState, u.breaker.currentState, v.clock,
                decide (v.permits.length = u.permits.length))))) =
      some (.closed, .opened, 100, true) := by decide +kernel
  obtain ⟨s, hs, hrest⟩ := Option.bind_eq_some_iff.mp hrun
  obtain ⟨u, hu, hrest⟩ := Option.bind_eq_some_iff.mp hrest
  obtain ⟨v, hv, hseen⟩ := Option.map_eq_some_iff.mp hrest
  simp only [Prod.mk.injEq, decide_eq_true_eq] at hseen
  obtain ⟨hcl, hop, hclk, hlen⟩ := hseen
  have hexact : probeInstant tripsAtOnce 0 Draw.zero = exactInstant tripsAtOnce 0 Draw.zero := by
    decide +kernel
  have hpause := open_circuit_pauses_and_recovers tripsAtOnce 0 _ s hs 0 .failure (.same 0)
    Draw.zero u hu (by rw [hcl]; exact nofun) hop hexact _ v hv (.same 30000)
    (by rw [hclk]; exact (by norm_num : (100 : ℚ) ≤ 30000))
  exact ⟨s, u, v, hs, hu, hop, hv, hpause.2.1 hlen,
    (hpause.2.2 hlen (by norm_num [Readings.same, tripsAtOnce])).2⟩

end BoilerplateExpress.Resilience

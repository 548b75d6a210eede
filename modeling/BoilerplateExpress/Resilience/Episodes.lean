import BoilerplateExpress.Resilience.CircuitBreaker

/-!
# Half-open episodes

While half-open, the unsettled probes of the current generation are as many as `probesInFlight`
says, and the settlement that ends the episode uses one up, so fewer than `halfOpenProbes` are
left behind. Opening sets the number back; closing does not.

A probe permit whose episode is over should not move the circuit. The permit carries the
generation it was issued under, but only entering `half-open` counts the generation up: when a
sibling probe closes the circuit, the permits still out carry the current generation, and with
more than one probe at a time a failure among them trips the closed circuit.
-/
namespace BoilerplateExpress.Resilience

open List
open CircuitBreaker

section Breaker

variable (settings : BreakerSettings)

/-- The permit of a probe of the generation the breaker is in. -/
def probe (breaker : CircuitBreaker) : CircuitPermit := ⟨.halfOpen, breaker.generation⟩

lemma eq_probe_iff (breaker permit) :
    permit = probe breaker ↔
      permit.issuedIn = .halfOpen ∧ permit.generation = breaker.generation := by
  cases permit
  simp [probe]

/-- The slots taken after a permit has given its own back. -/
def slotsAfter (breaker : CircuitBreaker) (permit : CircuitPermit) : ℕ :=
  if permit = probe breaker then breaker.probesInFlight - 1 else breaker.probesInFlight

lemma noteOutcome_frame (breaker outcome permit now) :
    (breaker.noteOutcome settings outcome permit now).currentState = breaker.currentState ∧
    (breaker.noteOutcome settings outcome permit now).generation = breaker.generation ∧
    (breaker.noteOutcome settings outcome permit now).openUntil = breaker.openUntil ∧
    (breaker.noteOutcome settings outcome permit now).probesInFlight =
      slotsAfter breaker permit := by
  simp only [noteOutcome, slotsAfter, eq_probe_iff]
  by_cases hcurrent : permit.issuedIn = .halfOpen ∧ permit.generation = breaker.generation
  · simp only [hcurrent]
    split_ifs <;> exact ⟨rfl, rfl, rfl, rfl⟩
  · simp only [hcurrent, if_false]
    split_ifs <;> exact ⟨rfl, rfl, rfl, rfl⟩

/-- What reading the state can do: nothing, or the expiry of an open circuit. -/
lemma state_cases (breaker : CircuitBreaker) (now) :
    (¬ (breaker.currentState = .opened ∧ breaker.openUntil ≤ now.first) ∧
      breaker.state settings now = (breaker, [])) ∨
    (breaker.currentState = .opened ∧ breaker.openUntil ≤ now.first ∧ breaker.state settings now =
        ({ breaker with
            currentState := .halfOpen
            generation := breaker.generation + 1
            probesInFlight := 0
            consecutiveProbeSuccesses := 0 },
          [⟨settings.name, .opened, .halfOpen, now.second, none⟩])) := by
  unfold state
  split_ifs with hexp
  · right
    refine ⟨hexp.1, hexp.2, ?_⟩
    simp [transitionTo, hexp.1]
  · exact .inl ⟨hexp, rfl⟩

variable (breaker : CircuitBreaker) (outcome : CircuitOutcome) (permit : CircuitPermit)
  (now : Readings) (random : Draw)

/-- What a settlement can do: change no state, open the circuit on a current probe or on a call of
the closed state, or close it on a current probe. -/
inductive Recorded : CircuitBreaker × List CircuitStateChange → Prop where
  | stays (successes : ℕ) : Recorded
      ({ breaker.noteOutcome settings outcome permit now.first with
          consecutiveProbeSuccesses := successes }, [])
  | trips (failureRate : Option ℚ)
      (hfrom : breaker.currentState = .halfOpen ∧ permit = probe breaker ∨
        breaker.currentState = .closed ∧ (permit.issuedIn = .halfOpen → permit = probe breaker)) :
      Recorded ({ breaker.noteOutcome settings outcome permit now.first with
          currentState := .opened
          openUntil := probeInstant settings now.third random
          probesInFlight := 0
          consecutiveProbeSuccesses := 0 },
        [⟨settings.name, breaker.currentState, .opened, now.fourth, failureRate⟩])
  | closes (hhalf : breaker.currentState = .halfOpen) (hprobe : permit = probe breaker) :
      Recorded ({ breaker.noteOutcome settings outcome permit now.first with
          currentState := .closed
          consecutiveProbeSuccesses := 0
          buckets := fun index =>
            if 0 ≤ index ∧ index < settings.bucketCount then Bucket.fresh
            else (breaker.noteOutcome settings outcome permit now.first).buckets index },
        [⟨settings.name, .halfOpen, .closed, now.fourth, none⟩])

lemma recorded : Recorded settings breaker outcome permit now random
    (breaker.record settings outcome permit now random) := by
  obtain ⟨hstate, hgeneration, -, -⟩ := noteOutcome_frame settings breaker outcome permit now.first
  unfold record
  set noted := breaker.noteOutcome settings outcome permit now.first
  dsimp only
  by_cases hstale : permit.issuedIn = .halfOpen ∧ permit.generation ≠ noted.generation
  · rw [if_pos hstale]
    exact .stays _
  rw [if_neg hstale]
  rw [hgeneration] at hstale
  have hcurrent (hissued : permit.issuedIn = .halfOpen) : permit = probe breaker :=
    (eq_probe_iff breaker permit).mpr ⟨hissued, by_contra fun hne => hstale ⟨hissued, hne⟩⟩
  by_cases hprobe : noted.currentState = .halfOpen ∧ permit.issuedIn = .halfOpen
  · rw [if_pos hprobe]
    have hhalf := hstate.symm.trans hprobe.1
    cases outcome with
    | failure =>
      simp only [hprobe.1]
      have htrips : Recorded settings breaker .failure permit now random _ :=
        .trips none (.inl ⟨hhalf, hcurrent hprobe.2⟩)
      rw [hhalf] at htrips
      exact htrips
    | success =>
      split_ifs
      · simp only [hprobe.1]
        exact .closes hhalf (hcurrent hprobe.2)
      · exact .stays _
    | ignored => exact .stays _
  rw [if_neg hprobe]
  by_cases hidle : noted.currentState ≠ .closed ∨ outcome ≠ .failure
  · rw [if_pos hidle]
    exact .stays _
  rw [if_neg hidle]
  rw [not_or, not_not, not_not] at hidle
  split_ifs
  · exact .stays _
  · simp only [trip, hidle.1]
    have hclosed := hstate.symm.trans hidle.1
    have htrips (rate : Option ℚ) : Recorded settings breaker outcome permit now random _ :=
      .trips rate (.inr ⟨hclosed, hcurrent⟩)
    rw [hclosed] at htrips
    exact htrips _
  · exact .stays _

/-- The circuit lets a call in: it is closed, half-open with a free slot, or open
with its time over. -/
def CircuitBreaker.Admits (settings : BreakerSettings) (breaker : CircuitBreaker)
    (now : Readings) : Prop :=
  match breaker.currentState with
  | .closed => True
  | .halfOpen => breaker.probesInFlight < settings.halfOpenProbes
  | .opened => breaker.openUntil ≤ now.first

end Breaker

lemma Readings.first_le_fourth (now : Readings) : now.first ≤ now.fourth :=
  now.first_le.trans (now.second_le.trans now.third_le)

namespace BreakerSystem

variable (settings : BreakerSettings)

section

variable (s : BreakerSystem) (now : Readings)

/-- Reading the state changes no bucket and closes nothing. -/
lemma look_frame : (s.look settings now).breaker.buckets = s.breaker.buckets ∧
    ((s.look settings now).breaker.currentState = .closed → s.breaker.currentState = .closed) := by
  unfold look
  rcases state_cases settings s.breaker now with ⟨-, h⟩ | ⟨-, -, h⟩
  · rw [h]
    exact ⟨rfl, id⟩
  · rw [h]
    exact ⟨rfl, nofun⟩

/-- A permit of the current state goes out, and takes a slot if it is a probe. -/
def issue : BreakerSystem :=
  { s with
    breaker :=
      { s.breaker with
        probesInFlight :=
          s.breaker.probesInFlight + if s.breaker.currentState = .halfOpen then 1 else 0 }
    permits := s.permits ++
      [⟨⟨s.breaker.currentState, s.breaker.generation⟩, false, s.changes.length⟩] }

/-- `acquire` reads the state and then hands out a permit, or refuses. -/
inductive Acquired : Except AppError ℕ × BreakerSystem → Prop where
  | refused (error : AppError) (hnot : ¬ s.breaker.Admits settings now) :
      Acquired (.error error, s.look settings now)
  | granted (hadmits : s.breaker.Admits settings now)
      (hopen : (s.look settings now).breaker.currentState ≠ .opened)
      (hfree : (s.look settings now).breaker.currentState = .halfOpen →
        (s.look settings now).breaker.probesInFlight < settings.halfOpenProbes) :
      Acquired (.ok s.permits.length, (s.look settings now).issue)

lemma acquired : Acquired settings s now (s.acquire settings now) := by
  have hprobes := settings.halfOpenProbes_pos
  rcases hlooks : s.breaker.state settings now with ⟨breaker, changes⟩
  have hlook : s.look settings now =
      { s with breaker := breaker, changes := s.changes ++ changes, clock := now.fourth } := by
    rw [look, hlooks]
  have hadmits : s.breaker.Admits settings now ↔ breaker.currentState = .closed ∨
      breaker.currentState = .halfOpen ∧ breaker.probesInFlight < settings.halfOpenProbes := by
    rcases state_cases settings s.breaker now with ⟨hnot, hsame⟩ | ⟨hopened, hdue, hexpired⟩
    · obtain ⟨rfl, -⟩ := Prod.mk.inj (hlooks.symm.trans hsame)
      cases hstate : s.breaker.currentState with
      | opened =>
        have hwait : ¬ s.breaker.openUntil ≤ now.first := fun hdue => hnot ⟨hstate, hdue⟩
        simp [Admits, hstate, hwait]
      | _ => simp [Admits, hstate]
    · obtain ⟨rfl, -⟩ := Prod.mk.inj (hlooks.symm.trans hexpired)
      simp [Admits, hopened, hdue, Nat.lt_of_lt_of_le Nat.zero_lt_one hprobes]
  unfold acquire CircuitBreaker.acquire
  simp only [hlooks]
  cases hstate : breaker.currentState with
  | opened =>
    have hrefused : Acquired settings s now _ := .refused
      (circuitOpenError settings.name (Binary64.round (breaker.openUntil - now.second)))
      (by simp [hadmits, hstate])
    rw [hlook] at hrefused
    exact hrefused
  | closed =>
    have hgranted := Acquired.granted (hadmits.mpr (.inl hstate)) (by simp [hlook, hstate])
      (by simp [hlook, hstate])
    rw [hlook] at hgranted
    cases breaker
    cases hstate
    simpa [issue] using hgranted
  | halfOpen =>
    split_ifs with hfull
    · have hrefused : Acquired settings s now _ := .refused
        (circuitOpenError settings.name halfOpenRetryAfterMs)
        (by simp [hadmits, hstate, not_lt.mpr hfull])
      rw [hlook] at hrefused
      exact hrefused
    · have hgranted := Acquired.granted (hadmits.mpr (.inr ⟨hstate, not_le.mp hfull⟩))
        (by simp [hlook, hstate]) (fun _ => by rw [hlook]; exact not_le.mp hfull)
      rw [hlook] at hgranted
      simpa [issue, hstate] using hgranted

end

/-- The unsettled probes of the current generation. -/
def live (s : BreakerSystem) : ℕ :=
  s.permits.countP (fun held => !held.settled && decide (held.permit = probe s.breaker))

/-- What the generations and the slot count say about the permits that are out. -/
structure Accounted (s : BreakerSystem) : Prop where
  generations : ∀ held ∈ s.permits, held.permit.generation ≤ s.breaker.generation
  episode : s.breaker.currentState = .halfOpen → ∀ held ∈ s.permits,
    held.permit = probe s.breaker → held.changesBefore = s.changes.length
  slots : s.breaker.probesInFlight = if s.breaker.currentState = .opened then 0 else s.live
  capped : s.live ≤ settings.halfOpenProbes
  leftBehind : s.breaker.currentState ≠ .halfOpen → s.live < settings.halfOpenProbes

lemma accounted_start (clock) : Accounted settings (start clock) := by
  refine ⟨by simp [start], by simp [start], by simp [start, create, live],
    by simp [start, live], ?_⟩
  intro _
  exact settings.halfOpenProbes_pos

variable {s : BreakerSystem}

/-- A new episode starts with no live probe: the generation is new. -/
lemma accounted_look (now) (hs : Accounted settings s) :
    Accounted settings (s.look settings now) := by
  rcases state_cases settings s.breaker now with ⟨-, hquiet⟩ | ⟨hop, -, hexp⟩
  · unfold look
    rw [hquiet]
    simp only [append_nil]
    exact ⟨hs.generations, hs.episode, hs.slots, hs.capped, hs.leftBehind⟩
  · have hnone (held : HeldPermit) (hheld : held ∈ s.permits) :
        held.permit.generation ≠ s.breaker.generation + 1 := by
      have := hs.generations held hheld
      omega
    unfold look
    rw [hexp]
    have hlive : s.permits.countP (fun held => !held.settled &&
        decide (held.permit = ⟨.halfOpen, s.breaker.generation + 1⟩)) = 0 := by
      rw [countP_eq_zero]
      intro held hheld
      have hne : held.permit ≠ ⟨.halfOpen, s.breaker.generation + 1⟩ :=
        fun heq => hnone held hheld (congrArg CircuitPermit.generation heq)
      simp [hne]
    refine ⟨?_, ?_, hlive.symm, hlive.trans_le (Nat.zero_le _), fun h => absurd rfl h⟩
    · exact fun held hheld => (hs.generations held hheld).trans (Nat.le_succ _)
    · intro _ held hheld hcur
      exact absurd (congrArg CircuitPermit.generation hcur) (hnone held hheld)

lemma accounted_issue (hs : Accounted settings s) (hopen : s.breaker.currentState ≠ .opened)
    (hfree : s.breaker.currentState = .halfOpen →
      s.breaker.probesInFlight < settings.halfOpenProbes) : Accounted settings s.issue := by
  have hslots := hs.slots
  rw [if_neg hopen] at hslots
  have hlive : s.issue.live = s.live + if s.breaker.currentState = .halfOpen then 1 else 0 := by
    refine countP_append.trans (congrArg _ ?_)
    simp [probe, issue]
  refine ⟨?_, ?_, ?_, ?_, ?_⟩
  · intro held hheld
    rcases mem_append.mp hheld with hold | hnew
    · exact hs.generations held hold
    · rw [mem_singleton.mp hnew]
      exact le_rfl
  · intro hhalf held hheld hcur
    rcases mem_append.mp hheld with hold | hnew
    · exact hs.episode hhalf held hold hcur
    · rw [mem_singleton.mp hnew]
      rfl
  · rw [hlive, if_neg (show s.issue.breaker.currentState ≠ .opened from hopen), ← hslots]
    rfl
  · rw [hlive]
    split_ifs with hhalf
    · have := hfree hhalf
      omega
    · exact hs.capped
  · intro hnot
    rw [hlive, if_neg (show s.breaker.currentState ≠ .halfOpen from hnot)]
    exact hs.leftBehind hnot

lemma accounted_acquire (now) (hs : Accounted settings s) :
    Accounted settings (s.acquire settings now).2 := by
  have hlook := accounted_look settings now hs
  have hspec := acquired settings s now
  generalize s.acquire settings now = result at hspec ⊢
  cases hspec with
  | refused error hnot => exact hlook
  | granted hadm hopen hfree => exact accounted_issue settings hlook hopen hfree

variable {place : ℕ} {held : HeldPermit}

variable {t : BreakerSystem}

/-- The calls an action can be, with what each leaves. A permit that is settled already throws. -/
inductive Moved (s : BreakerSystem) : Action → BreakerSystem → Prop where
  | acquires (now : Readings) : Moved s (.acquire now) (s.acquire settings now).2
  | looks (now : Readings) : Moved s (.look now) (s.look settings now)
  | again {place : ℕ} {held : HeldPermit} {outcome : CircuitOutcome} {now : Readings}
      {random : Draw} (hheld : s.permits[place]? = some held) (hsettled : held.settled = true) :
      Moved s (.settle place outcome now random) s
  | settles {place : ℕ} {held : HeldPermit} {outcome : CircuitOutcome} {now : Readings}
      {random : Draw} {breaker : CircuitBreaker} {changes : List CircuitStateChange}
      (hheld : s.permits[place]? = some held) (hunsettled : held.settled = false)
      (hrecorded : Recorded settings s.breaker outcome held.permit now random (breaker, changes)) :
      Moved s (.settle place outcome now random)
        ⟨breaker, s.permits.set place { held with settled := true }, s.changes ++ changes,
          now.fourth⟩

lemma moved {a} (h : step settings s a = some t) : s.clock ≤ a.now.first ∧ Moved settings s a
    t := by
  unfold step at h
  split_ifs at h with hclock
  refine ⟨hclock, ?_⟩
  cases a with
  | acquire now =>
    cases h
    exact .acquires now
  | look now =>
    cases h
    exact .looks now
  | settle place outcome now random =>
    cases hheld : s.permits[place]? with
    | none => simp [hheld] at h
    | some held =>
      cases hsettled : held.settled with
      | true =>
        obtain rfl : s = t := by simpa [hheld, settle, hsettled] using h
        exact .again hheld hsettled
      | false =>
        simp only [hheld, settle, hsettled] at h
        cases h
        exact .settles hheld hsettled (recorded settings _ _ _ _ _)

/-- A settlement that keeps the generation, and leaves the half-open state on a current probe. -/
lemma accounted_moved {breaker changes clock} (hs : Accounted settings s)
    (hheld : s.permits[place]? = some held) (huns : held.settled = false)
    (hgen : breaker.generation = s.breaker.generation)
    (hepis : breaker.currentState = .halfOpen →
      s.breaker.currentState = .halfOpen ∧ changes = [])
    (hended : breaker.currentState ≠ .halfOpen → s.breaker.currentState = .halfOpen →
      held.permit = probe s.breaker)
    (hslots : breaker.probesInFlight = if breaker.currentState = .opened then 0
      else s.live - if held.permit = probe s.breaker then 1 else 0) :
    Accounted settings ⟨breaker, s.permits.set place { held with settled := true },
      s.changes ++ changes, clock⟩ := by
  have hcap := hs.capped
  have hlive : live ⟨breaker, s.permits.set place { held with settled := true },
      s.changes ++ changes, clock⟩ + (if held.permit = probe s.breaker then 1 else 0) = s.live := by
    have hset := Machine.countP_set_add hheld
      (fun p => !p.settled && decide (p.permit = probe s.breaker)) { held with settled := true }
    rw [live, probe, hgen]
    by_cases hprobe : held.permit = probe s.breaker
    · rw [if_pos (by simp [huns, hprobe]), if_neg (by simp)] at hset
      rw [if_pos hprobe]
      exact hset
    · rw [if_neg (by simp [hprobe]), if_neg (by simp)] at hset
      rw [if_neg hprobe]
      exact hset
  -- a member of the new list is an old one, up to the mark
  have hfrom (p : HeldPermit) (hp : p ∈ s.permits.set place { held with settled := true }) :
      ∃ q ∈ s.permits, q.permit = p.permit ∧ q.changesBefore = p.changesBefore := by
    rcases mem_or_eq_of_mem_set hp with hold | rfl
    · exact ⟨p, hold, rfl, rfl⟩
    · exact ⟨held, mem_of_getElem? hheld, rfl, rfl⟩
  refine ⟨?_, ?_, ?_, ?_, ?_⟩
  · intro p hp
    obtain ⟨q, hq, hpmt, -⟩ := hfrom p hp
    rw [← hpmt]
    exact (hs.generations q hq).trans hgen.ge
  · intro hhalf p hp hcur
    obtain ⟨q, hq, hpmt, hpre⟩ := hfrom p hp
    obtain ⟨hbefore_half, rfl⟩ := hepis hhalf
    rw [append_nil, ← hpre]
    exact hs.episode hbefore_half q hq (by rw [hpmt, hcur, probe, hgen, probe])
  · rw [hslots, ← hlive, Nat.add_sub_cancel]
  · omega
  · intro hleft
    by_cases hhalf : s.breaker.currentState = .halfOpen
    · rw [if_pos (hended hleft hhalf)] at hlive
      omega
    · have hless := hs.leftBehind hhalf
      omega

lemma accounted_step (s a t) (hs : Accounted settings s) (h : step settings s a = some t) :
    Accounted settings t := by
  cases (moved settings h).2 with
  | acquires now => exact accounted_acquire settings now hs
  | looks now => exact accounted_look settings now hs
  | again => exact hs
  | @settles _ held outcome now _ _ _ hheld huns hrecd =>
    obtain ⟨hst, hgen, -, hnoted⟩ :=
      noteOutcome_frame settings s.breaker outcome held.permit now.first
    have hslots := hs.slots
    rw [slotsAfter] at hnoted
    cases hrecd with
    | stays successes =>
      refine accounted_moved settings hs hheld huns hgen
        (fun hhalf => ⟨hst.symm.trans hhalf, rfl⟩)
        (fun hleft hhalf => absurd (hst.trans hhalf) hleft) ?_
      rw [hnoted, hst]
      split_ifs at hslots ⊢ <;> omega
    | trips failureRate hfrom =>
      refine accounted_moved settings hs hheld huns hgen nofun (fun _ hhalf => ?_) rfl
      rcases hfrom with ⟨-, hcur⟩ | ⟨hcl, -⟩
      · exact hcur
      · exact absurd (hcl.symm.trans hhalf) nofun
    | closes hhalf hcur =>
      refine accounted_moved settings hs hheld huns hgen nofun (fun _ _ => hcur) ?_
      rw [hhalf, if_neg nofun] at hslots
      rw [if_pos hcur] at hnoted
      rw [if_pos hcur, if_neg nofun, ← hslots]
      exact hnoted

lemma accounted_run {as} {clock} (h : Machine.exec (step settings) (start clock) as = some s) :
    Accounted settings s :=
  Machine.exec_invariant (Accounted settings) (accounted_step settings)
    (accounted_start settings clock) h

/-- The half-open episode a probe was issued in is over: a state change came after it. -/
def Finished (s : BreakerSystem) (held : HeldPermit) : Prop :=
  held.permit.issuedIn = .halfOpen ∧ held.changesBefore < s.changes.length

/-- Settling a probe of a finished episode announces no state change. -/
def FinishedIsInert (settings : BreakerSettings) (s : BreakerSystem) : Prop :=
  ∀ place held outcome now random t, s.permits[place]? = some held → Finished s held →
    step settings s (.settle place outcome now random) = some t → t.changes = s.changes

/-- A closed circuit with no probe left of the last episode is not moved by a finished one. -/
lemma inert_of_none_left (hs : Accounted settings s)
    (hleft : s.breaker.currentState = .closed → s.live = 0) : FinishedIsInert settings s := by
  intro place held outcome now random t hheld ⟨hiss, haft⟩ hstep
  have hmem : held ∈ s.permits := mem_of_getElem? hheld
  cases (moved settings hstep).2 with
  | again => rfl
  | settles hheld' huns hrecd =>
    cases hheld.symm.trans hheld'
    have hnot (hhalf : s.breaker.currentState = .halfOpen)
        (hcur : held.permit = probe s.breaker) : False := by
      have hpre := hs.episode hhalf held hmem hcur
      omega
    cases hrecd with
    | stays successes => exact append_nil _
    | closes hhalf hcur => exact (hnot hhalf hcur).elim
    | trips failureRate hfrom =>
      rcases hfrom with ⟨hhalf, hcur⟩ | ⟨hcl, hcur⟩
      · exact (hnot hhalf hcur).elim
      · have hone : 0 < s.live := countP_pos_iff.mpr
          ⟨held, hmem, by simp [huns, hcur hiss]⟩
        rw [hleft hcl] at hone
        cases hone

end BreakerSystem

/-- In every state of every run with one half-open probe at a time, and in every state of any run
with no probe left of the last episode when the circuit is closed, settling a probe of a finished
half-open episode moves nothing. -/
theorem finished_episode_inert (settings : BreakerSettings) (clock : ℚ)
    (as : List BreakerSystem.Action) (s : BreakerSystem)
    (hexec : Machine.exec (BreakerSystem.step settings) (BreakerSystem.start clock) as = some s)
    (hleft : settings.halfOpenProbes = 1 ∨ (s.breaker.currentState = .closed → s.live = 0)) :
    BreakerSystem.FinishedIsInert settings s := by
  have hs := BreakerSystem.accounted_run settings hexec
  refine BreakerSystem.inert_of_none_left settings hs ?_
  intro hcl
  rcases hleft with hsing | hleft
  · have hless := hs.leftBehind (by rw [hcl]; exact nofun)
    omega
  · exact hleft hcl

/-- Two probes at a time, one failure to trip, one success to close. -/
def sampleSettings : BreakerSettings :=
  { tripsAtOnce with
    windowMs := 10
    openMs := 100
    halfOpenProbes := 2
    openMs_pos := by decide
    halfOpenProbes_pos := by decide
    window_covers := by decide }

/-- Of two probes one fails and opens the circuit again, and the other is still out. -/
theorem finished_episode_inert_after_sibling :
    ∃ s, Machine.exec (BreakerSystem.step sampleSettings) (BreakerSystem.start 0)
        [.acquire (.same 0), .settle 0 .failure (.same 0) Draw.zero, .acquire (.same 100),
          .acquire (.same 100), .settle 1 .failure (.same 100) Draw.zero] = some s ∧
      (s.breaker.currentState, s.permits[2]?, s.changes.length) =
        (.opened, some ⟨⟨.halfOpen, 1⟩, false, 2⟩, 3) ∧
      BreakerSystem.FinishedIsInert sampleSettings s := by
  refine Machine.exists_of_seen (fun s : BreakerSystem =>
    (s.breaker.currentState, s.permits[2]?, s.changes.length))
    (.opened, some ⟨⟨.halfOpen, 1⟩, false, 2⟩, 3) (by decide +kernel) ?_
  intro s hs hseen
  refine ⟨hseen, finished_episode_inert _ _ _ s hs (.inr fun hclosed => ?_)⟩
  rw [Prod.mk.injEq, hclosed] at hseen
  cases hseen.1

/-- A failure opens the circuit; a hundred milliseconds later two probes go out
and the first succeeds. -/
def sampleSiblings : List BreakerSystem.Action :=
  [.acquire (.same 0), .settle 0 .failure (.same 0) Draw.zero, .acquire (.same 100),
    .acquire (.same 100), .settle 1 .success (.same 100) Draw.zero]

/-- The second probe fails after its sibling closed the circuit, and opens it again. -/
theorem straggler_reopens_closed_circuit :
    ¬ ∀ clock as s, Machine.exec (BreakerSystem.step sampleSettings) (BreakerSystem.start clock)
      as = some s → BreakerSystem.FinishedIsInert sampleSettings s := by
  intro h
  have hrun : (Machine.exec (BreakerSystem.step sampleSettings) (BreakerSystem.start 0)
      sampleSiblings).bind (fun s =>
        (BreakerSystem.step sampleSettings s (.settle 2 .failure (.same 100) Draw.zero)).map
          (fun t => (s.permits[2]?, s.changes.length, t.changes.length))) =
      some (some ⟨⟨.halfOpen, 1⟩, false, 2⟩, 3, 4) := by decide +kernel
  obtain ⟨s, hs, hstep⟩ := Option.bind_eq_some_iff.mp hrun
  obtain ⟨t, ht, hseen⟩ := Option.map_eq_some_iff.mp hstep
  simp only [Prod.mk.injEq] at hseen
  obtain ⟨hheld, hcl, hop⟩ := hseen
  have hsame := h 0 sampleSiblings s hs 2 _ .failure _ _ t hheld ⟨rfl, by rw [hcl]; decide⟩ ht
  rw [hsame, hcl] at hop
  cases hop

/-- In every state of every run: while half-open the probes in flight are the unsettled ones of the
episode, there are never more than allowed, and an open circuit has none. A closed one has none
exactly if no probe is left of the episode that closed it, as when one goes out at a time. -/
theorem probes_accounted_iff (settings : BreakerSettings) (clock : ℚ)
    (as : List BreakerSystem.Action) (s : BreakerSystem)
    (hexec : Machine.exec (BreakerSystem.step settings) (BreakerSystem.start clock) as = some s) :
    (s.breaker.currentState = .halfOpen → s.breaker.probesInFlight = s.live) ∧
    s.breaker.probesInFlight ≤ settings.halfOpenProbes ∧
    (s.breaker.currentState = .opened → s.breaker.probesInFlight = 0) ∧
    (s.breaker.currentState = .closed → (s.breaker.probesInFlight = 0 ↔ s.live = 0)) ∧
    (settings.halfOpenProbes = 1 → s.breaker.currentState = .closed →
      s.breaker.probesInFlight = 0) := by
  have hs := BreakerSystem.accounted_run settings hexec
  have hslots := hs.slots
  have hcap := hs.capped
  refine ⟨?_, ?_, ?_, ?_, ?_⟩
  · intro hhalf
    rw [hslots, hhalf, if_neg nofun]
  · rw [hslots]
    split_ifs
    · exact Nat.zero_le _
    · exact hcap
  · intro hop
    rw [hslots, if_pos hop]
  · intro hcl
    rw [hslots, hcl, if_neg nofun]
  · intro hsing hcl
    have hless := hs.leftBehind (by rw [hcl]; exact nofun)
    rw [hslots, hcl, if_neg nofun]
    omega

/-- With one of two probes in flight left, the closed circuit reports it. -/
theorem probes_accounted_of_siblings :
    ∃ s, Machine.exec (BreakerSystem.step sampleSettings) (BreakerSystem.start 0) sampleSiblings =
        some s ∧ s.live = 1 ∧ s.breaker.probesInFlight ≤ 2 := by
  refine Machine.exists_of_seen BreakerSystem.live 1 (by decide +kernel) ?_
  exact fun s hs hone => ⟨hone, (probes_accounted_iff _ _ _ s hs).2.1⟩

/-- The circuit has closed and a probe is still in flight. -/
theorem probe_in_flight_when_closed :
    (Machine.exec (BreakerSystem.step sampleSettings) (BreakerSystem.start 0) sampleSiblings).map
      (fun s => (s.breaker.currentState, s.breaker.probesInFlight)) = some (.closed, 1) := by
  decide +kernel

end BoilerplateExpress.Resilience

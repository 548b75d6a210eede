import BoilerplateExpress.Resilience.Episodes
import BoilerplateExpress.Resilience.HttpClient

/-!
# Every attempt has a permit, and every permit its settlement

The log of a call is kept in step with the permits the breaker has handed out:
each logged permit is there, and it is settled exactly if the log says so. A
response that `guardBodyIdle` cannot wrap ends the call between the fetch and the
settlement of its permit; that is the only way a permit is lost.
-/
namespace BoilerplateExpress.Resilience

open List

namespace BreakerSystem

variable (settings : BreakerSettings)

variable {s t : BreakerSystem}

/-- A permit is touched by nobody but the one who settles it. -/
lemma step_keeps {action place held} (h : step settings s action = some t)
    (hheld : s.permits[place]? = some held)
    (hoth : ∀ outcome now random, action ≠ .settle place outcome now random) :
    t.permits[place]? = some held := by
  have hlt : place < s.permits.length := (List.getElem?_eq_some_iff.mp hheld).1
  cases (moved settings h).2 with
  | acquires now =>
    unfold acquire
    split
    · exact hheld
    · exact (getElem?_append_left hlt).trans hheld
  | looks now => exact hheld
  | again => exact hheld
  | @settles settled _ outcome now random =>
    have hne : settled ≠ place := by
      rintro rfl
      exact hoth outcome now random rfl
    exact (getElem?_set_ne hne).trans hheld

end BreakerSystem

/-- A logged permit is there and settled exactly if the log says so, at most once, and as ignored
exactly for a fetch its caller gave up. -/
def Entry (permits : List HeldPermit) (attempt : Attempt) : Prop :=
  (∃ held, permits[attempt.permit]? = some held ∧
    (held.settled = false ↔ attempt.settlements = [])) ∧
  attempt.settlements.length ≤ 1 ∧
  (attempt.abandoned = true ↔ CircuitOutcome.ignored ∈ attempt.settlements)

structure Ledger (permits : List HeldPermit) (attempts : List Attempt) : Prop where
  distinct : (attempts.map Attempt.permit).Nodup
  entry : ∀ attempt ∈ attempts, Entry permits attempt

namespace Ledger

variable {permits : List HeldPermit} {attempts : List Attempt}

lemma permit_lt {attempt} (h : Ledger permits attempts) (hmem : attempt ∈ attempts) :
    attempt.permit < permits.length := by
  obtain ⟨⟨held, hheld, -⟩, -⟩ := h.entry attempt hmem
  exact (List.getElem?_eq_some_iff.mp hheld).1

/-- Permits that the log does not name may change. -/
lemma of_keeps {permits'} (h : Ledger permits attempts)
    (hkeeps : ∀ attempt ∈ attempts, ∀ held, permits[attempt.permit]? = some held →
      permits'[attempt.permit]? = some held) : Ledger permits' attempts := by
  refine ⟨h.distinct, ?_⟩
  intro attempt hatt
  obtain ⟨⟨held, hheld, hset⟩, hrest⟩ := h.entry attempt hatt
  exact ⟨⟨held, hkeeps attempt hatt held hheld, hset⟩, hrest⟩

/-- A new permit is logged with the fetch it is for. -/
lemma push {new} (h : Ledger permits attempts) (hnew : new.settled = false) :
    Ledger (permits ++ [new]) (attempts ++ [⟨permits.length, [], false⟩]) := by
  have hold : Ledger (permits ++ [new]) attempts := by
    apply h.of_keeps
    intro attempt hatt held hheld
    exact (getElem?_append_left (h.permit_lt hatt)).trans hheld
  refine ⟨?_, ?_⟩
  · rw [map_append, nodup_append]
    refine ⟨h.distinct, nodup_singleton _, ?_⟩
    intro earlier hear permit hpmt
    obtain ⟨attempt, hatt, rfl⟩ := mem_map.mp hear
    rw [mem_singleton.mp hpmt]
    exact ne_of_lt (h.permit_lt hatt)
  · intro attempt hatt
    rcases mem_append.mp hatt with hmem | hmem
    · exact hold.entry attempt hmem
    · rw [mem_singleton.mp hmem]
      exact ⟨⟨new, by simp, by simp [hnew]⟩, by simp, by simp⟩

/-- An open permit is settled, and so is its attempt. -/
lemma settle {permit held} (h : Ledger permits attempts) (hheld : permits[permit]? = some held)
    (hopen : held.settled = false) (outcome) :
    Ledger (permits.set permit { held with settled := true })
      (attempts.map (Attempt.settle permit outcome)) := by
  refine ⟨?_, ?_⟩
  · have hsame : Attempt.permit ∘ Attempt.settle permit outcome = Attempt.permit := by
      funext attempt
      simp only [Function.comp_apply, Attempt.settle]
      split_ifs <;> rfl
    rw [map_map, hsame]
    exact h.distinct
  · intro settled hset
    obtain ⟨attempt, hatt, rfl⟩ := mem_map.mp hset
    obtain ⟨⟨held', hheld', hiff⟩, honce, hign⟩ := h.entry attempt hatt
    unfold Attempt.settle
    split_ifs with hpmt
    · -- the attempt in flight has no settlement yet
      subst hpmt
      obtain rfl : held = held' := Option.some.inj (hheld.symm.trans hheld')
      have hnone := hiff.mp hopen
      have hkept : attempt.abandoned = false := by simpa [hnone] using hign
      have hlt := (List.getElem?_eq_some_iff.mp hheld).1
      exact ⟨⟨_, getElem?_set_self hlt, by simp⟩, by simp [hnone], by simp [hnone, hkept, eq_comm]⟩
    · exact ⟨⟨held', (getElem?_set_ne (Ne.symm hpmt)).trans hheld', hiff⟩, honce, hign⟩

end Ledger

namespace Ladder

variable (runtime : Runtime) (settings : BreakerSettings) (plan : Plan)

def AllSettled (attempts : List Attempt) : Prop := ∀ attempt ∈ attempts, attempt.settlements ≠ []

/-- How far the log has got in each phase. -/
def Turn (s : Ladder) : Prop :=
  match s.phase with
  | .starting => s.attempts = [] ∧ s.attempt = 1
  | .fetching permit => s.attempts.length = s.attempt ∧ s.attempt ≤ plan.maxAttempts ∧
      (∃ attempt ∈ s.attempts, attempt.permit = permit) ∧
      ∀ attempt ∈ s.attempts, attempt.settlements = [] ↔ attempt.permit = permit
  | .done _ => s.attempts.length ≤ plan.maxAttempts
  | _ => s.attempts.length = s.attempt ∧ s.attempt < plan.maxAttempts ∧ AllSettled s.attempts

structure Inv (s : Ladder) : Prop where
  ledger : Ledger s.breaker.permits s.attempts
  turn : Turn plan s

variable {s t : Ladder} {permit : ℕ}

lemma turn_fetching (h : s.phase = .fetching permit) (hs : Inv plan s) :
    s.attempts.length = s.attempt ∧ s.attempt ≤ plan.maxAttempts ∧
      (∃ attempt ∈ s.attempts, attempt.permit = permit) ∧
      ∀ attempt ∈ s.attempts, attempt.settlements = [] ↔ attempt.permit = permit := by
  have hturn := hs.turn
  rwa [Turn, h] at hturn

lemma turn_between (h : s.phase.between) :
    Turn plan s ↔
      s.attempts.length = s.attempt ∧ s.attempt < plan.maxAttempts ∧ AllSettled s.attempts := by
  unfold Turn
  cases hph : s.phase <;> simp_all [Phase.between]

lemma inv_start (clock signal) : Inv plan (start clock signal) := ⟨⟨nodup_nil, nofun⟩, rfl, rfl⟩

/-- The call ended with a permit unsettled. -/
def Lost (s : Ladder) : Prop :=
  (∃ result, s.phase = .done result) ∧ ¬ AllSettled s.attempts

lemma not_lost (h : AllSettled s.attempts) : ¬ Lost s := fun hlost => hlost.2 h

/-- Before an attempt: everything so far is settled, and the turn is one of the loop's. -/
structure Ready (s : Ladder) : Prop where
  ledger : Ledger s.breaker.permits s.attempts
  settled : AllSettled s.attempts
  turn : s.attempts.length + 1 = s.attempt
  within : s.attempt ≤ plan.maxAttempts

lemma ready_start (hmax : 1 ≤ plan.maxAttempts) (hs : Inv plan s) (hphase : s.phase = .starting) :
    Ready plan s := by
  have hturn := hs.turn
  rw [Turn, hphase] at hturn
  obtain ⟨hnone, hone⟩ := hturn
  refine ⟨hs.ledger, ?_, ?_, ?_⟩
  · simp [AllSettled, hnone]
  · simp [hnone, hone]
  · omega

lemma ready_next (hs : Inv plan s) (hbtw : s.phase.between) :
    Ready plan { s with attempt := s.attempt + 1 } := by
  obtain ⟨hlen, hmore, hall⟩ := (turn_between plan hbtw).mp hs.turn
  exact ⟨hs.ledger, hall, congrArg (· + 1) hlen, hmore⟩

/-- A turn of the loop ends the call with all permits settled, or takes one permit. -/
lemma inv_beginAttempt (hs : Ready plan s) (now) :
    Inv plan (s.beginAttempt settings plan now) ∧ ¬ Lost (s.beginAttempt settings plan now) := by
  have hlen : s.attempts.length ≤ plan.maxAttempts := by
    have := hs.turn
    have := hs.within
    omega
  unfold beginAttempt BreakerSystem.acquire
  rw [if_neg (not_lt.mpr hs.within)]
  split
  · exact ⟨⟨hs.ledger, hlen⟩, not_lost hs.settled⟩
  · rcases s.breaker.breaker.acquire settings now with ⟨error | permit, breaker, changes⟩
    · exact ⟨⟨hs.ledger, hlen⟩, not_lost hs.settled⟩
    · refine ⟨⟨hs.ledger.push rfl, ?_, hs.within,
        ⟨_, mem_append_right _ (mem_singleton_self _), rfl⟩, ?_⟩, nofun⟩
      · rw [length_append]
        exact hs.turn
      · intro attempt hatt
        rcases mem_append.mp hatt with hmem | hmem
        · exact iff_of_false (hs.settled attempt hmem) (hs.ledger.permit_lt hmem).ne
        · rw [mem_singleton.mp hmem]
          exact iff_of_true rfl rfl

/-- One step keeps the log in order; only a response that cannot be guarded loses a permit. -/
theorem inv_step (hmax : 1 ≤ plan.maxAttempts) (s action t) (hs : Inv plan s)
    (h : step runtime settings plan s action = some t) :
    Inv plan t ∧ (¬ Lost s → (Guardable plan action ↔ ¬ Lost t)) := by
  cases moves_of_step runtime settings plan h with
  | begin now hph =>
    obtain ⟨hinv, hkept⟩ := inv_beginAttempt settings plan (ready_start plan hmax hs hph) now
    exact ⟨hinv, fun _ => iff_of_true trivial hkept⟩
  | woke now hph =>
    obtain ⟨hinv, hkept⟩ :=
      inv_beginAttempt settings plan (ready_next plan hs (by rw [hph]; rfl)) now
    exact ⟨hinv, fun _ => iff_of_true trivial hkept⟩
  | unguarded hph hbad =>
    obtain ⟨hlen, hwi, ⟨attempt, hatt, hpmt⟩, hfl⟩ := turn_fetching plan hph hs
    refine ⟨⟨hs.ledger, hlen.trans_le hwi⟩, fun _ => iff_of_false hbad ?_⟩
    exact not_not.mpr ⟨⟨_, rfl⟩, fun hall =>
      hall attempt hatt ((hfl attempt hatt).mpr hpmt)⟩
  | settledTwice hph hheld hset =>
    -- the permit in flight is open
    obtain ⟨-, -, ⟨attempt, hatt, rfl⟩, hfl⟩ := turn_fetching plan hph hs
    obtain ⟨⟨held', hheld', hiff⟩, -⟩ := hs.ledger.entry attempt hatt
    cases hheld.symm.trans hheld'
    rw [hiff.mpr ((hfl attempt hatt).mpr rfl)] at hset
    cases hset
  | @settles _ permit _ outcome breaker _ _ _ hph hheld hopen hgood _ hbr hgoes =>
    obtain ⟨hlen, hwi, -, hfl⟩ := turn_fetching plan hph hs
    have hled : Ledger breaker.permits (s.attempts.map (Attempt.settle permit outcome)) := by
      rw [hbr]
      exact hs.ledger.settle hheld hopen outcome
    have hall : AllSettled (s.attempts.map (Attempt.settle permit outcome)) := by
      intro settled hset
      obtain ⟨attempt, hatt, rfl⟩ := mem_map.mp hset
      unfold Attempt.settle
      split_ifs with hpmt
      · simp
      · exact fun hnone => hpmt ((hfl attempt hatt).mp hnone)
    rw [← length_map (Attempt.settle permit outcome)] at hlen
    cases hgoes with
    | waits hmore _ hbtw =>
      exact ⟨⟨hled, (turn_between plan hbtw).mpr ⟨hlen, hmore, hall⟩⟩,
        fun _ => iff_of_true hgood (not_lost hall)⟩
    | _ =>
      exact ⟨⟨hled, hlen.trans_le hwi⟩, fun _ => iff_of_true hgood (not_lost hall)⟩
  | pause hbtw hbtw' hgood =>
    have hturn := (turn_between plan hbtw).mp hs.turn
    exact ⟨⟨hs.ledger, (turn_between plan hbtw').mpr hturn⟩,
      fun _ => iff_of_true hgood (not_lost hturn.2.2)⟩
  | sleepRejected error hbtw =>
    obtain ⟨hlen, hmore, hall⟩ := (turn_between plan hbtw).mp hs.turn
    exact ⟨⟨hs.ledger, hlen.trans_le hmore.le⟩, fun _ => iff_of_true trivial (not_lost hall)⟩
  | abort reason => exact ⟨⟨hs.ledger, hs.turn⟩, iff_of_true trivial⟩
  | others action hmay hstep =>
    refine ⟨⟨hs.ledger.of_keeps ?_, hs.turn⟩, iff_of_true trivial⟩
    intro attempt hatt held hheld
    refine BreakerSystem.step_keeps settings hstep hheld ?_
    rintro outcome now random rfl
    simp only [othersMay, all_eq_true] at hmay
    simpa using hmay attempt hatt

lemma lost_step {action} (hs : Lost s) (h : step runtime settings plan s action = some t) : Lost
    t := by
  obtain ⟨⟨result, hdone⟩, hlost⟩ := hs
  obtain ⟨hdone', hatts⟩ := done_step runtime settings plan hdone h
  exact ⟨⟨result, hdone'⟩, hatts ▸ hlost⟩

/-- Every attempt but the one in flight has its one settlement. -/
def EachSettledOnce (s : Ladder) : Prop :=
  ∀ attempt ∈ s.attempts, s.phase ≠ .fetching attempt.permit → attempt.settlements.length = 1

lemma eachSettledOnce_iff (hs : Inv plan s) : EachSettledOnce s ↔ ¬ Lost s := by
  constructor
  · rintro honce ⟨⟨result, hdone⟩, hlost⟩
    apply hlost
    intro attempt hattempt hnone
    have hone := honce attempt hattempt (by rw [hdone]; exact fun h => by cases h)
    rw [hnone] at hone
    cases hone
  · intro hkept attempt hattempt hflight
    have hsome : attempt.settlements ≠ [] := by
      have hturn := hs.turn
      unfold Turn at hturn
      split at hturn
      · rw [hturn.1] at hattempt
        cases hattempt
      · rename_i permit hphase
        intro hnone
        exact hflight ((hturn.2.2.2 attempt hattempt).mp hnone ▸ hphase)
      · rename_i result hdone
        by_contra hnone
        exact hkept ⟨⟨result, hdone⟩, fun hall => hall attempt hattempt hnone⟩
      · exact hturn.2.2 attempt hattempt
    have hle := (hs.ledger.entry attempt hattempt).2.1
    have := length_pos_iff.mpr hsome
    omega

/-- Every call, whatever its fetches, the circuit and its caller do: at most
`maxAttempts` fetches, each under a permit of its own that is settled at most once, as
ignored exactly for a fetch its caller gave up; and no permit is left unsettled exactly
if no response arrived that the idle guard cannot wrap. -/
theorem attempts_accounted_iff (options : ClientOptions) (input : String)
    (init : HttpRequestInit) (hplan : prepare runtime options input init = .ok plan)
    (breaker : BreakerSystem) (signal : Signal) (as : List Action) (s : Ladder)
    (h : Machine.exec (step runtime settings plan) (start breaker signal) as = some s) :
    s.attempts.length ≤ plan.maxAttempts ∧
    (replayable runtime init plan.policy = .ok false → s.attempts.length ≤ 1) ∧
    (s.attempts.map Attempt.permit).Nodup ∧
    (∀ attempt ∈ s.attempts,
      (∃ held, s.breaker.permits[attempt.permit]? = some held ∧
        (held.settled = false ↔ attempt.settlements = [])) ∧
      attempt.settlements.length ≤ 1 ∧
      (attempt.abandoned = true ↔ CircuitOutcome.ignored ∈ attempt.settlements)) ∧
    (EachSettledOnce s ↔
      Machine.Guarded (step runtime settings plan) (fun _ action => Guardable plan action)
        (start breaker signal) as) := by
  obtain ⟨hmax, hsing⟩ := prepare_maxAttempts hplan
  have hstep := inv_step runtime settings plan hmax
  have hinv := Machine.exec_invariant (Inv plan) (fun s action t hs h => (hstep s action t hs h).1)
    (inv_start plan breaker signal) h
  have hbound : s.attempts.length ≤ plan.maxAttempts := by
    have hturn := hinv.turn
    unfold Turn at hturn
    split at hturn
    · simp [hturn.1]
    · exact hturn.1.trans_le hturn.2.1
    · exact hturn
    · exact hturn.1.trans_le hturn.2.1.le
  refine ⟨hbound, ?_, hinv.ledger.distinct, hinv.ledger.entry, ?_⟩
  · intro hfalse
    rw [hsing hfalse] at hbound
    exact hbound
  · rw [eachSettledOnce_iff plan hinv]
    exact (Machine.guarded_iff_not_marked _ (Inv plan) Lost hstep
      (fun s action t hs h => lost_step runtime settings plan hs h) (inv_start plan breaker signal)
      (not_lost nofun) h).symm

/-- A 503 is retried after its drain, the second answer is a 200: two fetches, two
permits, one settlement each. -/
theorem attempts_accounted_retry :
    ∃ plan s,
      prepare plainRuntime { name := "payments", bodyIdleTimeoutMs := some 1000 }
        "https://payments.test/" {} = .ok plan ∧
      Machine.exec (step plainRuntime stayingClosed plan) (start (.start 0) .absent)
        [.begin (.same 0), .responded (answering 503) (.same 5) 5 .zero .zero false, .drained,
          .woke (.same 5), .responded (answering 200) (.same 9) 9 .zero .zero false] = some s ∧
      s.attempts = [⟨0, [.failure], false⟩, ⟨1, [.success], false⟩] ∧ EachSettledOnce s := by
  have hrun : (prepare plainRuntime { name := "payments", bodyIdleTimeoutMs := some 1000 }
      "https://payments.test/" {}).toOption.bind (fun plan =>
        (Machine.exec (step plainRuntime stayingClosed plan) (start (.start 0) .absent)
          [.begin (.same 0), .responded (answering 503) (.same 5) 5 .zero .zero false, .drained,
            .woke (.same 5), .responded (answering 200) (.same 9) 9 .zero .zero false]).map
          Ladder.attempts) = some [⟨0, [.failure], false⟩, ⟨1, [.success], false⟩] := by
    decide +kernel
  obtain ⟨plan, hplan, hexec⟩ := toOption_bind_eq_some hrun
  obtain ⟨s, hs, hatts⟩ := Option.map_eq_some_iff.mp hexec
  refine ⟨plan, s, hplan, hs, hatts, ?_⟩
  apply (attempts_accounted_iff plainRuntime stayingClosed plan _ _ _ hplan _ _ _ s hs).2.2.2.2.mpr
  apply Machine.guarded_of_forall
  intro action hact
  fin_cases hact
  · trivial
  · exact .inr rfl
  · trivial
  · trivial
  · exact .inr rfl

/-- A status 999 with a body, while an idle deadline is set: the call ends between the
fetch and the settlement of its permit. -/
theorem unguardable_status_leaks_permit :
    ∃ plan s,
      prepare plainRuntime { name := "payments", bodyIdleTimeoutMs := some 1000 }
        "https://payments.test/" {} = .ok plan ∧
      Machine.exec (step plainRuntime stayingClosed plan) (start (.start 0) .absent)
        [.begin (.same 0), .responded (answering 999) (.same 5) 5 .zero .zero false] = some s ∧
      s.phase = .done (.rejected .statusRange) ∧ s.attempts = [⟨0, [], false⟩] ∧
      ¬ EachSettledOnce s := by
  have hrun : (prepare plainRuntime { name := "payments", bodyIdleTimeoutMs := some 1000 }
      "https://payments.test/" {}).toOption.bind (fun plan =>
        (Machine.exec (step plainRuntime stayingClosed plan) (start (.start 0) .absent)
          [.begin (.same 0), .responded (answering 999) (.same 5) 5 .zero .zero false]).map
          (fun s => (s.phase, s.attempts))) =
      some (.done (.rejected .statusRange), [⟨0, [], false⟩]) := by decide +kernel
  obtain ⟨plan, hplan, hexec⟩ := toOption_bind_eq_some hrun
  obtain ⟨s, hs, hseen⟩ := Option.map_eq_some_iff.mp hexec
  obtain ⟨hph, hatts⟩ := Prod.mk.inj hseen
  refine ⟨plan, s, hplan, hs, hph, hatts, ?_⟩
  intro honce
  have hone := honce ⟨0, [], false⟩ (by simp [hatts]) (by rw [hph]; exact nofun)
  cases hone

end Ladder

end BoilerplateExpress.Resilience

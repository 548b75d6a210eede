import BoilerplateExpress.Resilience.AttemptAccounting

/-!
# The body of the response that is handed back

A response that is retried is drained before the backoff and stays in
`lastResponse`. If the circuit then refuses the next attempt, that response is what
the caller gets. Every other way out hands back a response nobody has read from.
-/
namespace BoilerplateExpress.Resilience

namespace Ladder

variable (runtime : Runtime) (settings : BreakerSettings) (plan : Plan)

/-- Exactly when a turn of the loop hands back the response of an earlier one. -/
lemma beginAttempt_resolved_iff {s : Ladder} (now r) (hwi : s.attempt ≤ plan.maxAttempts) :
    (s.beginAttempt settings plan now).phase = .done (.resolved r) ↔
      isAborted s.callerSignal = none ∧ ¬ s.breaker.breaker.Admits settings now ∧
        s.lastResponse = some r := by
  have hspec := BreakerSystem.acquired settings s.breaker now
  unfold beginAttempt
  rw [if_neg (not_lt.mpr hwi)]
  cases isAborted s.callerSignal with
  | some reason => simp [finish]
  | none =>
    generalize s.breaker.acquire settings now = result at hspec ⊢
    cases hspec with
    | refused error hnot =>
      simp only [finish, refused]
      cases s.lastResponse with
      | some response => simp [hnot]
      | none => cases s.lastError <;> simp
    | granted hadm => simp [hadm]

/-- While the call waits, the response it keeps is read from exactly if it has a body. -/
structure Remembers (s : Ladder) : Prop where
  starting : s.phase = .starting → s.lastResponse = none
  between : s.phase.between = true → ∀ r, s.lastResponse = some r → r.used = r.response.hasBody

/-- A turn of the loop ends the call or fetches, and nothing is asked of those phases. -/
lemma remembers_beginAttempt (s : Ladder) (now) : Remembers (s.beginAttempt settings plan now) := by
  unfold beginAttempt
  split_ifs
  · exact ⟨nofun, nofun⟩
  · split
    · exact ⟨nofun, nofun⟩
    · split
      · exact ⟨nofun, nofun⟩
      · exact ⟨nofun, nofun⟩

/-- The circuit is not in the way of an attempt that follows a drained response. -/
def WayFree (s : Ladder) : Action → Prop
  | .woke now => (∃ r, s.lastResponse = some r ∧ r.response.hasBody = true) →
      (isAborted s.callerSignal).isSome ∨ s.breaker.breaker.Admits settings now
  | _ => True

/-- The response handed back, if there is one, is one the client has not read from. -/
def HandedBackUnread (s : Ladder) : Prop :=
  ∀ r, s.phase = .done (.resolved r) → r.used = false

lemma wayFree_of_not_woke {s action} (h : action.isWoke = false) : WayFree settings s action := by
  cases action <;> trivial

/-- A call that waits has to remember its response rightly, and hands nothing back. -/
lemma remembers_between {s action t} (hfree : WayFree settings s action) (hbtw : t.phase.between)
    (hlast : ∀ r, t.lastResponse = some r → r.used = r.response.hasBody) :
    Remembers t ∧ (HandedBackUnread s → (WayFree settings s action ↔ HandedBackUnread t)) := by
  refine ⟨⟨?_, fun _ => hlast⟩, fun _ => iff_of_true hfree ?_⟩
  · intro hstar
    rw [hstar] at hbtw
    cases hbtw
  · intro r hr
    rw [hr] at hbtw
    cases hbtw

lemma remembers_step {s action t} (hinv : Inv plan s) (hs : Remembers s)
    (hmax : 1 ≤ plan.maxAttempts) (h : step runtime settings plan s action = some t) :
    Remembers t ∧ (HandedBackUnread s → (WayFree settings s action ↔ HandedBackUnread t)) := by
  cases moves_of_step runtime settings plan h with
  | begin now hph =>
    refine ⟨remembers_beginAttempt settings plan s now, fun _ => iff_of_true trivial ?_⟩
    intro r hr
    have hready := ready_start plan hmax hinv hph
    obtain ⟨-, -, hlast⟩ := (beginAttempt_resolved_iff settings plan now r hready.within).mp hr
    rw [hs.starting hph] at hlast
    cases hlast
  | @woke now delayMs hph =>
    have hbtw : s.phase.between := by rw [hph]; rfl
    have hready := ready_next plan hinv hbtw
    refine ⟨remembers_beginAttempt settings plan _ now, fun _ => ?_⟩
    constructor
    · intro hfree r hr
      obtain ⟨hsig, href, hlast⟩ :=
        (beginAttempt_resolved_iff settings plan now r hready.within).mp hr
      rw [hs.between hbtw r hlast]
      by_contra hbody
      rcases hfree ⟨r, hlast, by simpa using hbody⟩ with habor | hadm
      · rw [show isAborted s.callerSignal = none from hsig] at habor
        cases habor
      · exact href hadm
    · rintro hunr ⟨r, hlast, hbody⟩
      by_contra hbloc
      obtain ⟨hsig, href⟩ := not_or.mp hbloc
      have hres := (beginAttempt_resolved_iff settings plan now r hready.within).mpr
          ⟨by simpa using hsig, href, hlast⟩
      have hused := hunr r hres
      rw [hs.between hbtw r hlast, hbody] at hused
      cases hused
  | unguarded hph hbad hwoke =>
    exact ⟨⟨nofun, nofun⟩, fun _ => iff_of_true (wayFree_of_not_woke settings hwoke) nofun⟩
  | settledTwice hph hheld hset hwoke =>
    exact ⟨⟨nofun, nofun⟩, fun _ => iff_of_true (wayFree_of_not_woke settings hwoke) nofun⟩
  | settles _ hph hheld hopen hgood hwoke hbr hgoes =>
    have hfree := wayFree_of_not_woke settings (s := s) hwoke
    cases hgoes with
    | resolves response =>
      refine ⟨⟨nofun, nofun⟩, fun _ => iff_of_true hfree ?_⟩
      intro r hr
      cases hr
      rfl
    | rejects error => exact ⟨⟨nofun, nofun⟩, fun _ => iff_of_true hfree nofun⟩
    | waits _ hlast hbtw => exact remembers_between settings hfree hbtw hlast
  | pause hbtw hbtw' _ hwoke =>
    exact remembers_between settings (wayFree_of_not_woke settings hwoke) hbtw'
      (hs.between hbtw)
  | sleepRejected error hbtw => exact ⟨⟨nofun, nofun⟩, fun _ => iff_of_true trivial nofun⟩
  | _ => exact ⟨⟨hs.starting, hs.between⟩, iff_of_true trivial⟩

/-- In every run that hands back a response, the client has not touched its body
exactly if the circuit let in every attempt that followed a drained body. -/
theorem response_unread_iff (options : ClientOptions) (input : String) (init : HttpRequestInit)
    (hplan : prepare runtime options input init = .ok plan) (breaker : BreakerSystem)
    (signal : Signal) (as : List Action) (s : Ladder) (r : LiveResponse)
    (h : Machine.exec (step runtime settings plan) (start breaker signal) as = some s)
    (hdone : s.phase = .done (.resolved r)) :
    r.used = false ↔
      Machine.Guarded (step runtime settings plan) (WayFree settings) (start breaker signal) as := by
  obtain ⟨hmax, -⟩ := prepare_maxAttempts hplan
  have hstart : Inv plan (start breaker signal) ∧ Remembers (start breaker signal) :=
    ⟨inv_start plan breaker signal, fun _ => rfl, nofun⟩
  rw [Machine.guarded_iff_not_marked (WayFree settings) (fun s => Inv plan s ∧ Remembers s)
    (fun s => ¬ HandedBackUnread s) ?_ ?_ hstart (not_not.mpr nofun) h, not_not]
  · constructor
    · intro hunus r' hr'
      rw [hdone] at hr'
      cases hr'
      exact hunus
    · intro hunr
      exact hunr r hdone
  · intro s action t hs hstep
    obtain ⟨hrem, hway⟩ := remembers_step runtime settings plan hs.1 hs.2 hmax hstep
    simp only [not_not]
    exact ⟨⟨(inv_step runtime settings plan hmax s action t hs.1 hstep).1, hrem⟩, hway⟩
  · -- once a response is handed back, it stays the one
    intro s action t hs hstep hunr
    exact hs fun r hr => hunr r (done_step runtime settings plan hr hstep).1

/-- A 503 with a body, drained at once, and the way back to the loop. -/
def drainedOnce : List Action :=
  [.begin (.same 0), .responded (answering 503) (.same 5) 5 .zero .zero false, .drained,
    .woke (.same 5)]

/-- The circuit stays closed, and the 200 of the second attempt is handed back unread. -/
theorem response_unread_second_attempt :
    ∃ plan s r as,
      prepare plainRuntime { name := "payments" } "https://payments.test/" {} = .ok plan ∧
      as = drainedOnce ++ [.responded (answering 200) (.same 9) 9 .zero .zero false] ∧
      Machine.exec (step plainRuntime stayingClosed plan) (start (.start 0) .absent) as = some s ∧
      s.phase = .done (.resolved r) ∧ r.response = answering 200 ∧ r.used = false ∧
      Machine.Guarded (step plainRuntime stayingClosed plan) (WayFree stayingClosed)
        (start (.start 0) .absent) as := by
  have hrun : (prepare plainRuntime { name := "payments" } "https://payments.test/" {}).toOption.bind
      (fun plan => (Machine.exec (step plainRuntime stayingClosed plan) (start (.start 0) .absent)
        (drainedOnce ++ [.responded (answering 200) (.same 9) 9 .zero .zero false])).map
          Ladder.phase) = some (.done (.resolved ⟨answering 200, false⟩)) := by decide +kernel
  obtain ⟨plan, hplan, hexec⟩ := toOption_bind_eq_some hrun
  obtain ⟨s, hs, hph⟩ := Option.map_eq_some_iff.mp hexec
  exact ⟨plan, s, _, _, hplan, rfl, hs, hph, rfl, rfl,
    (response_unread_iff plainRuntime stayingClosed plan _ _ _ hplan _ _ _ s _ hs hph).mp rfl⟩

/-- The 503 itself opens the circuit; the next attempt is refused, and the caller gets
the response whose body was drained. -/
theorem drained_response_handed_back :
    ∃ plan s r,
      prepare plainRuntime { name := "payments" } "https://payments.test/" {} = .ok plan ∧
      Machine.exec (step plainRuntime tripsAtOnce plan) (start (.start 0) .absent) drainedOnce =
        some s ∧
      s.phase = .done (.resolved r) ∧ r.response = answering 503 ∧ r.used = true := by
  have hrun : (prepare plainRuntime { name := "payments" } "https://payments.test/" {}).toOption.bind
      (fun plan => (Machine.exec (step plainRuntime tripsAtOnce plan) (start (.start 0) .absent)
        drainedOnce).map Ladder.phase) = some (.done (.resolved ⟨answering 503, true⟩)) := by
    decide +kernel
  obtain ⟨plan, hplan, hexec⟩ := toOption_bind_eq_some hrun
  obtain ⟨s, hs, hph⟩ := Option.map_eq_some_iff.mp hexec
  exact ⟨plan, s, _, hplan, hs, hph, rfl, rfl⟩

end Ladder

end BoilerplateExpress.Resilience

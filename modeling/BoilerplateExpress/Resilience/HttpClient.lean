import BoilerplateExpress.Resilience.Bulkhead
import BoilerplateExpress.Resilience.CircuitBreaker
import BoilerplateExpress.Resilience.RetryPolicy

/-!
# The retry ladder

The loop of `attemptLadder` in `resilience/http-client.ts` as a state machine: one
action for each stretch of code between two awaits. The breaker is shared with the
other calls of the client, which take and settle their own permits whenever this
call waits. `fetch`, the deadlines that make it reject, the body of a response, the
sleep, the caller's signal and the `onRetry` hook do as they like.

Every `fetch` is logged with the permit it ran under and with the settlements of
that permit.
-/
namespace BoilerplateExpress.Resilience

/-- What is read of a response. `statusText` says that the reason phrase is one that
the constructor of `Response` accepts, `locked` that somebody holds a reader. -/
structure Response where
  status : ℕ
  statusText : Bool
  retryAfter : Option Text
  hasBody : Bool
  locked : Bool
  deriving DecidableEq, Repr

/-- A response the client holds. `used` says that the client has read from its body
or cancelled it. -/
structure LiveResponse where
  response : Response
  used : Bool
  deriving DecidableEq

def isNullBodyStatus (status : ℕ) : Bool :=
  status = 101 || status = 103 || status = 204 || status = 205 || status = 304

inductive LadderError where
  | aborted (error : String)
  | circuitOpen (error : AppError)
  | transport (error : TransportError)
  | settledTwice (message : String)
  /-- The status is not one a `Response` can be made with. -/
  | statusRange
  | statusText
  | bodyForNullBodyStatus
  | bodyLocked
  | hook
  | sleep
  | ended (message : String)
  deriving DecidableEq, Repr

/-- `guardBodyIdle` of `deadlines.ts`: a response around the guarded stream. The
constructor of `Response` checks its arguments. -/
def guardBodyIdle (response : Response) : Except LadderError Response :=
  if response.hasBody = false then .ok response
  else if response.locked then .error .bodyLocked
  else if response.status < 200 ∨ 599 < response.status then .error .statusRange
  else if response.statusText = false then .error .statusText
  else if isNullBodyStatus response.status then .error .bodyForNullBodyStatus
  else .ok response

/-- One `fetch`. `abandoned` says that it rejected after the caller had aborted. -/
structure Attempt where
  permit : ℕ
  settlements : List CircuitOutcome
  abandoned : Bool
  deriving DecidableEq

/-- The attempt after a settlement of its permit; its caller walks away from an ignored one. -/
def Attempt.settle (permit : ℕ) (outcome : CircuitOutcome) (attempt : Attempt) : Attempt :=
  if attempt.permit = permit then
    ⟨attempt.permit, attempt.settlements ++ [outcome],
      attempt.abandoned || decide (outcome = .ignored)⟩
  else attempt

lemma Attempt.settle_of_ne {outcome} (permit) (h : outcome ≠ .ignored) :
    Attempt.settle permit outcome = fun attempt => if attempt.permit = permit then
      { attempt with settlements := attempt.settlements ++ [outcome] } else attempt := by
  funext attempt
  simp [Attempt.settle, h]

inductive LadderResult where
  | resolved (response : LiveResponse)
  | rejected (error : LadderError)
  deriving DecidableEq

inductive Phase where
  | starting
  | fetching (permit : ℕ)
  | draining (read : ℕ) (delayMs : ℚ)
  | cancelling (delayMs : ℚ)
  | sleeping (delayMs : ℚ)
  | done (result : LadderResult)
  deriving DecidableEq

/-- An attempt is over and the next one has not begun. -/
def Phase.between : Phase → Bool
  | .draining _ _ => true
  | .cancelling _ => true
  | .sleeping _ => true
  | _ => false

structure Ladder where
  breaker : BreakerSystem
  callerSignal : Signal
  attempt : ℕ
  lastResponse : Option LiveResponse
  lastError : Option TransportError
  phase : Phase
  attempts : List Attempt

namespace Ladder

def start (breaker : BreakerSystem) (callerSignal : Signal) : Ladder where
  breaker := breaker
  callerSignal := callerSignal
  attempt := 1
  lastResponse := none
  lastError := none
  phase := .starting
  attempts := []

variable (runtime : Runtime) (settings : BreakerSettings) (plan : Plan)

/-- The reason of an aborted signal. -/
def isAborted : Signal → Option AbortReason
  | .aborted reason => some reason
  | _ => none

def finish (s : Ladder) (result : LadderResult) : Ladder := { s with phase := .done result }

/-- What is handed back when the circuit refuses an attempt. -/
def refused (s : Ladder) (error : AppError) : LadderResult :=
  match s.lastResponse, s.lastError with
  | some response, _ => .resolved response
  | none, some err => .rejected (.transport err)
  | none, none => .rejected (.circuitOpen error)

/-- A turn of the loop up to its `fetch`. -/
def beginAttempt (s : Ladder) (now : Readings) : Ladder :=
  if plan.maxAttempts < s.attempt then
    s.finish (.rejected (match s.lastError with
      | some err => .transport err
      | none => .ended (plan.name ++ ": retry loop ended without a response")))
  else
    match isAborted s.callerSignal with
    | some reason => s.finish (.rejected (.aborted (toAbortError reason)))
    | none =>
      match s.breaker.acquire settings now with
      | (.error error, breaker) => { s with breaker := breaker }.finish (s.refused error)
      | (.ok permit, breaker) =>
        { s with
          breaker := breaker
          phase := .fetching permit
          attempts := s.attempts ++ [⟨permit, [], false⟩] }

/-- Changes the log entry of the attempt that ran under a permit. -/
def amend (s : Ladder) (permit : ℕ) (change : Attempt → Attempt) : Ladder :=
  { s with attempts := s.attempts.map (fun attempt =>
      if attempt.permit = permit then change attempt else attempt) }

/-- Logs that the caller walked away from a fetch. -/
def abandon (s : Ladder) (permit : ℕ) : Ladder :=
  s.amend permit (fun attempt => { attempt with abandoned := true })

/-- `succeed`, `fail` or `ignore` on the permit of the running attempt. -/
def settle (s : Ladder) (permit : ℕ) (held : HeldPermit) (outcome : CircuitOutcome)
    (now : Readings) (random : Draw) : Except LadderError Ladder :=
  match s.breaker.settle settings permit held outcome now random with
  | .error message => .error (.settledTwice message)
  | .ok breaker =>
    .ok ({ s with breaker := breaker }.amend permit
      (fun attempt => { attempt with settlements := attempt.settlements ++ [outcome] }))

/-- `drainForRetry` up to its first read; without a body there is nothing to read. -/
def beginDrain (s : Ladder) (response : Response) (delayMs : ℚ) : Ladder :=
  if response.hasBody = false then { s with phase := .sleeping delayMs }
  else if response.locked then s.finish (.rejected .bodyLocked)
  else
    { s with
      lastResponse := some ⟨response, true⟩
      phase := .draining 0 delayMs }

/-- The part of the loop after a permit was settled for a response. -/
def judge (s : Ladder) (response : Response) (clock : ℚ) (random : Draw) (hookThrows : Bool) :
    Ladder :=
  if (classifyResponse response.status).retryable = false ∨ plan.maxAttempts ≤ s.attempt then
    s.finish (.resolved ⟨response, false⟩)
  else
    let advertised := parseRetryAfter runtime response.retryAfter clock
    if advertised.any (fun ms => plan.policy.maxRetryAfterMs < ms) then
      s.finish (.resolved ⟨response, false⟩)
    else if hookThrows then s.finish (.rejected .hook)
    else s.beginDrain response (responseDelay advertised s.attempt plan.policy random)

/-- `fetch` resolved. -/
def responded (s : Ladder) (permit : ℕ) (held : HeldPermit) (response : Response) (now : Readings)
    (clock : ℚ) (trip random : Draw) (hookThrows : Bool) : Ladder :=
  match (if plan.bodyIdleMs.isSome then guardBodyIdle response else .ok response) with
  | .error error => s.finish (.rejected error)
  | .ok response =>
    match s.settle settings permit held
      (if (classifyResponse response.status).dependencyFailure then .failure else .success)
      now trip with
    | .error error => s.finish (.rejected error)
    | .ok s =>
      { s with lastResponse := some ⟨response, false⟩, lastError := none }.judge runtime plan
        response clock random hookThrows

/-- `fetch` rejected. -/
def failed (s : Ladder) (permit : ℕ) (held : HeldPermit) (err : TransportError) (now : Readings)
    (trip random : Draw) (hookThrows : Bool) : Ladder :=
  match isAborted s.callerSignal with
  | some reason =>
    match (s.abandon permit).settle settings permit held .ignored now trip with
    | .error error => s.finish (.rejected error)
    | .ok s => s.finish (.rejected (.aborted (toAbortError reason)))
  | none =>
    match s.settle settings permit held .failure now trip with
    | .error error => s.finish (.rejected error)
    | .ok s =>
      let s := { s with lastError := some err, lastResponse := none }
      if plan.maxAttempts ≤ s.attempt ∨ isRetryableTransportError err = false then
        s.finish (.rejected (.transport err))
      else if hookThrows then s.finish (.rejected .hook)
      else { s with phase := .sleeping (ladderDelay s.attempt plan.policy random) }

inductive Action where
  | begin (now : Readings)
  | responded (response : Response) (now : Readings) (clock : ℚ) (trip random : Draw)
      (hookThrows : Bool)
  | failed (err : TransportError) (now : Readings) (trip random : Draw) (hookThrows : Bool)
  /-- A chunk of the body that is being drained. -/
  | chunk (byteLength : ℕ)
  /-- The body ended or failed, or its cancellation settled. -/
  | drained
  | woke (now : Readings)
  | sleepRejected
  /-- The caller's signal fires. -/
  | abort (reason : AbortReason)
  /-- A call on the breaker by somebody else. -/
  | others (action : BreakerSystem.Action)

/-- The permits of this call are in nobody else's hands. -/
def othersMay (s : Ladder) : BreakerSystem.Action → Bool
  | .settle place _ _ _ => s.attempts.all (fun attempt => attempt.permit ≠ place)
  | _ => true

def step (s : Ladder) (action : Action) : Option Ladder :=
  match s.phase, action with
  | .starting, .begin now =>
    if s.breaker.clock ≤ now.first then some (s.beginAttempt settings plan now) else none
  | .fetching permit, .responded response now clock trip random hookThrows =>
    if s.breaker.clock ≤ now.first then
      (s.breaker.permits[permit]?).map (fun held =>
        s.responded runtime settings plan permit held response now clock trip random hookThrows)
    else none
  | .fetching permit, .failed err now trip random hookThrows =>
    if s.breaker.clock ≤ now.first then
      (s.breaker.permits[permit]?).map (fun held =>
        s.failed settings plan permit held err now trip random hookThrows)
    else none
  | .draining read delayMs, .chunk byteLength =>
    if plan.policy.drainBytes < (read + byteLength : ℕ) then
      some { s with phase := .cancelling delayMs }
    else some { s with phase := .draining (read + byteLength) delayMs }
  | .draining _ delayMs, .drained => some { s with phase := .sleeping delayMs }
  | .cancelling delayMs, .drained => some { s with phase := .sleeping delayMs }
  | .sleeping _, .woke now =>
    if s.breaker.clock ≤ now.first then
      some ({ s with attempt := s.attempt + 1 }.beginAttempt settings plan now)
    else none
  | .sleeping _, .sleepRejected =>
    some (s.finish (.rejected (match isAborted s.callerSignal with
      | some reason => .aborted (toAbortError reason)
      | none => .sleep)))
  | _, .abort reason =>
    if s.callerSignal = .pending then some { s with callerSignal := .aborted reason } else none
  | _, .others action =>
    if s.othersMay action then
      (BreakerSystem.step settings s.breaker action).map (fun breaker =>
        { s with breaker := breaker })
    else none
  | _, _ => none

/-- A response around which `guardBodyIdle` cannot build another one. -/
def unguardable (response : Response) : Bool :=
  response.hasBody && (response.locked || decide (response.status < 200 ∨ 599 < response.status) ||
    !response.statusText || isNullBodyStatus response.status)

/-- The client puts no idle guard on the response, or can put one on it. -/
def Guardable : Action → Prop
  | .responded response _ _ _ _ _ => plan.bodyIdleMs = none ∨ unguardable response = false
  | _ => True

def Action.isWoke : Action → Bool
  | .woke _ => true
  | _ => false

/-- What can follow a settlement: the call ends, or waits for its next attempt. -/
inductive Goes (s : Ladder) : Ladder → Prop where
  | resolves (response : Response) : Goes s (s.finish (.resolved ⟨response, false⟩))
  | rejects (error : LadderError) : Goes s (s.finish (.rejected error))
  | waits {last : Option LiveResponse} {phase : Phase} (hmore : s.attempt < plan.maxAttempts)
      (hlast : ∀ r, last = some r → r.used = r.response.hasBody)
      (hbetween : phase.between = true) : Goes s { s with lastResponse := last, phase := phase }

/-- What a step can be, with the state it leaves. -/
inductive Moves (s : Ladder) : Action → Ladder → Prop where
  | begin (now : Readings) (hphase : s.phase = .starting) :
      Moves s (.begin now) (s.beginAttempt settings plan now)
  | woke (now : Readings) {delayMs : ℚ} (hphase : s.phase = .sleeping delayMs) :
      Moves s (.woke now) ({ s with attempt := s.attempt + 1 }.beginAttempt settings plan now)
  | unguarded {action : Action} {permit : ℕ} {error : LadderError}
      (hphase : s.phase = .fetching permit) (hbad : ¬ Guardable plan action)
      (hwoke : action.isWoke = false) : Moves s action (s.finish (.rejected error))
  | settledTwice {action : Action} {permit : ℕ} {held : HeldPermit} {error : LadderError}
      (hphase : s.phase = .fetching permit) (hheld : s.breaker.permits[permit]? = some held)
      (hsettled : held.settled = true) (hwoke : action.isWoke = false) :
      Moves s action (s.finish (.rejected error))
  | settles {action : Action} {permit : ℕ} {held : HeldPermit} {outcome : CircuitOutcome}
      {breaker : BreakerSystem} (lastResponse : Option LiveResponse)
      {lastError : Option TransportError} {t : Ladder} (hphase : s.phase = .fetching permit)
      (hheld : s.breaker.permits[permit]? = some held) (hopen : held.settled = false)
      (hgood : Guardable plan action) (hwoke : action.isWoke = false)
      (hbreaker : breaker.permits = s.breaker.permits.set permit { held with settled := true })
      (hgoes : Goes plan { s with
        breaker := breaker
        attempts := s.attempts.map (Attempt.settle permit outcome)
        lastResponse := lastResponse
        lastError := lastError } t) : Moves s action t
  | pause {action : Action} {phase : Phase} (hbetween : s.phase.between = true)
      (hbetween' : phase.between = true) (hgood : Guardable plan action)
      (hwoke : action.isWoke = false) : Moves s action { s with phase := phase }
  | sleepRejected (error : LadderError) (hbetween : s.phase.between = true) :
      Moves s .sleepRejected (s.finish (.rejected error))
  | abort (reason : AbortReason) : Moves s (.abort reason) { s with callerSignal := .aborted reason }
  | others {breaker : BreakerSystem} (action : BreakerSystem.Action)
      (hmay : s.othersMay action = true)
      (hstep : BreakerSystem.step settings s.breaker action = some breaker) :
      Moves s (.others action) { s with breaker := breaker }

lemma judge_goes {s response} (clock random hookThrows)
    (hlast : s.lastResponse = some ⟨response, false⟩) :
    Goes plan s (s.judge runtime plan response clock random hookThrows) := by
  unfold judge
  by_cases hends : (classifyResponse response.status).retryable = false ∨
      plan.maxAttempts ≤ s.attempt
  · rw [if_pos hends]
    exact .resolves response
  have hmore : s.attempt < plan.maxAttempts := not_le.mp (fun hle => hends (.inr hle))
  dsimp only [beginDrain]
  split_ifs with hlong hhook hbody hlocked
  · exact .resolves response
  · exact .rejects _
  · refine .waits hmore (fun r hr => ?_) rfl
    rw [hlast] at hr
    cases hr
    exact hbody.symm
  · exact .rejects _
  · refine .waits hmore (fun r hr => ?_) rfl
    cases hr
    exact (Bool.eq_true_of_not_eq_false hbody).symm

lemma settle_cases (s : Ladder) (permit held outcome now random) :
    (held.settled ∧ ∃ error, s.settle settings permit held outcome now random = .error error) ∨
    (held.settled = false ∧ ∃ breaker : BreakerSystem,
      breaker.permits = s.breaker.permits.set permit { held with settled := true } ∧
      s.settle settings permit held outcome now random = .ok { s with
        breaker := breaker
        attempts := s.attempts.map (fun attempt => if attempt.permit = permit then
          { attempt with settlements := attempt.settlements ++ [outcome] } else attempt) }) := by
  unfold settle BreakerSystem.settle
  cases held.settled with
  | true => exact .inl ⟨rfl, _, rfl⟩
  | false => exact .inr ⟨rfl, _, rfl, rfl⟩

/-- The idle guard is not wanted, or works, or throws. -/
lemma guard_cases (response) :
    ((plan.bodyIdleMs = none ∨ unguardable response = false) ∧
      (if plan.bodyIdleMs.isSome then guardBodyIdle response else .ok response) = .ok response) ∨
    (¬ (plan.bodyIdleMs = none ∨ unguardable response = false) ∧ ∃ error,
      (if plan.bodyIdleMs.isSome then guardBodyIdle response else .ok response) =
        .error error) := by
  cases plan.bodyIdleMs with
  | none => exact .inl ⟨.inl rfl, rfl⟩
  | some ms =>
    unfold guardBodyIdle unguardable
    cases response.hasBody
    · simp
    cases response.locked
    · by_cases hstat : response.status < 200 ∨ 599 < response.status
      · simp [hstat]
      · cases response.statusText
        · simp [hstat]
        · cases isNullBodyStatus response.status <;> simp [hstat]
    · simp

variable {s t : Ladder} {permit : ℕ} {held : HeldPermit}

lemma moves_responded (hph : s.phase = .fetching permit)
    (hheld : s.breaker.permits[permit]? = some held) (response now clock trip random hookThrows) :
    Moves settings plan s (.responded response now clock trip random hookThrows)
      (s.responded runtime settings plan permit held response now clock trip random
        hookThrows) := by
  unfold responded
  rcases guard_cases plan response with ⟨hgood, hok⟩ | ⟨hbad, error, hfails⟩
  · rw [hok]
    dsimp only
    rcases settle_cases settings s permit held
      (if (classifyResponse response.status).dependencyFailure then .failure else .success) now trip
      with ⟨hset, error, hfails⟩ | ⟨hopen, breaker, hbr, hsett⟩
    · rw [hfails]
      exact .settledTwice hph hheld hset rfl
    · rw [hsett, ← Attempt.settle_of_ne permit (by split_ifs <;> exact nofun)]
      exact .settles _ hph hheld hopen hgood rfl hbr
        (judge_goes runtime plan clock random hookThrows rfl)
  · rw [hfails]
    exact .unguarded hph hbad rfl

lemma moves_failed (hph : s.phase = .fetching permit)
    (hheld : s.breaker.permits[permit]? = some held) (err now trip random hookThrows) :
    Moves settings plan s (.failed err now trip random hookThrows)
      (s.failed settings plan permit held err now trip random hookThrows) := by
  unfold failed
  cases isAborted s.callerSignal with
  | some reason =>
    rcases settle_cases settings (s.abandon permit) permit held .ignored now trip with
      ⟨hsett, error, hfails⟩ | ⟨hopen, breaker, hbr, hset⟩
    · simp only [hfails]
      exact .settledTwice hph hheld hsett rfl
    · have hatts : (s.abandon permit).attempts.map (fun attempt =>
          if attempt.permit = permit then
            { attempt with settlements := attempt.settlements ++ [.ignored] } else attempt) =
          s.attempts.map (Attempt.settle permit .ignored) := by
        rw [abandon, amend, List.map_map]
        refine List.map_congr_left (fun attempt _ => ?_)
        by_cases hpmt : attempt.permit = permit <;> simp [Attempt.settle, hpmt]
      rw [hatts] at hset
      simp only [hset]
      exact .settles _ hph hheld hopen trivial rfl hbr (.rejects _)
  | none =>
    rcases settle_cases settings s permit held .failure now trip with
      ⟨hsett, error, hfails⟩ | ⟨hopen, breaker, hbr, hset⟩
    · simp only [hfails]
      exact .settledTwice hph hheld hsett rfl
    · rw [← Attempt.settle_of_ne permit (by decide : CircuitOutcome.failure ≠ .ignored)] at hset
      simp only [hset]
      split_ifs with hlast
      · exact .settles _ hph hheld hopen trivial rfl hbr (.rejects _)
      · exact .settles _ hph hheld hopen trivial rfl hbr (.rejects _)
      · exact .settles none hph hheld hopen trivial rfl hbr
          (.waits (not_le.mp (fun hle => hlast (.inl hle))) nofun rfl)

lemma moves_of_step {action} (h : step runtime settings plan s action = some t) :
    Moves settings plan s action t := by
  unfold step at h
  split at h
  case h_1 now hph =>
    split_ifs at h
    cases h
    exact .begin now hph
  case h_2 permit response now clock trip random hookThrows hph =>
    split_ifs at h
    obtain ⟨held, hheld, rfl⟩ := Option.map_eq_some_iff.mp h
    exact moves_responded runtime settings plan hph hheld response now clock trip random
      hookThrows
  case h_3 permit err now trip random hookThrows hph =>
    split_ifs at h
    obtain ⟨held, hheld, rfl⟩ := Option.map_eq_some_iff.mp h
    exact moves_failed settings plan hph hheld err now trip random hookThrows
  case h_4 read delayMs byteLength hph =>
    have hbtw : s.phase.between := by rw [hph]; rfl
    split_ifs at h
    · cases h
      exact .pause hbtw rfl trivial rfl
    · cases h
      exact .pause hbtw rfl trivial rfl
  case h_5 read delayMs hph =>
    cases h
    exact .pause (by rw [hph]; rfl) rfl trivial rfl
  case h_6 delayMs hph =>
    cases h
    exact .pause (by rw [hph]; rfl) rfl trivial rfl
  case h_7 delayMs now hph =>
    split_ifs at h
    cases h
    exact .woke now hph
  case h_8 delayMs hph =>
    cases h
    exact .sleepRejected _ (by rw [hph]; rfl)
  case h_9 _ _ reason =>
    split_ifs at h
    cases h
    exact .abort reason
  case h_10 _ _ action =>
    split_ifs at h with hmay
    obtain ⟨breaker, hbr, rfl⟩ := Option.map_eq_some_iff.mp h
    exact .others action hmay hbr
  case h_11 => cases h

/-- After its end a call changes nothing but what it shares with others. -/
lemma done_step {result action} (hdone : s.phase = .done result)
    (h : step runtime settings plan s action = some t) :
    t.phase = .done result ∧ t.attempts = s.attempts := by
  cases moves_of_step runtime settings plan h with
  | begin now hph => cases hdone.symm.trans hph
  | woke now hph => cases hdone.symm.trans hph
  | unguarded hph => cases hdone.symm.trans hph
  | settledTwice hph => cases hdone.symm.trans hph
  | settles _ hph => cases hdone.symm.trans hph
  | pause hbtw => rw [hdone] at hbtw; cases hbtw
  | sleepRejected _ hbtw => rw [hdone] at hbtw; cases hbtw
  | _ => exact ⟨hdone, rfl⟩

end Ladder

/-- A runtime for runs on fixed inputs: upper-case methods, no dates, no URLs. -/
def plainRuntime : Runtime where
  toUpperCase := id
  isNumber := fun _ => false
  dateParse := fun _ => none
  numberText := fun _ => "a number"
  parseUrl := fun _ _ => none

/-- This circuit wants twenty calls before it opens. -/
def stayingClosed : BreakerSettings :=
  { tripsAtOnce with minimumThroughput := 20, minimumThroughput_pos := by decide }

/-- A response with a readable body. -/
def answering (status : ℕ) : Response := ⟨status, true, none, true, false⟩

end BoilerplateExpress.Resilience

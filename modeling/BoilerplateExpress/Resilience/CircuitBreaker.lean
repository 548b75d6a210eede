import BoilerplateExpress.Backoff
import BoilerplateExpress.Binary64
import BoilerplateExpress.Errors
import BoilerplateExpress.Machine

/-!
# The circuit breaker

`CircuitBreaker` of `resilience/circuit-breaker.ts`. Every call runs without an
await, so each is one function on the breaker and the clock readings it makes.
The open-to-half-open expiry has no timer: it runs when the state is read.

`System` is one breaker with every permit it has handed out, as the callers hold
them, and the state changes it has announced. Permits are settled in any order
and at any time.
-/
namespace BoilerplateExpress.Resilience
open scoped BigOperators

/-- The numbers as they come from the configuration, before the constructor checks them. -/
structure CircuitBreakerOptions where
  name : String
  windowMs : ℚ
  bucketCount : ℚ
  failureRateThreshold : ℚ
  minimumThroughput : ℚ
  openMs : ℚ
  openJitterRatio : ℚ := Binary64.round (1 / 5)
  halfOpenProbes : ℚ := 1
  halfOpenSuccessThreshold : ℚ := 1

/-- Options that have passed the checks. -/
structure BreakerSettings where
  name : String
  windowMs : ℕ
  bucketCount : ℕ
  failureRateThreshold : ℚ
  minimumThroughput : ℕ
  openMs : ℕ
  openJitterRatio : ℚ
  halfOpenProbes : ℕ
  halfOpenSuccessThreshold : ℕ
  bucketCount_pos : 1 ≤ bucketCount
  openMs_pos : 1 ≤ openMs
  halfOpenProbes_pos : 1 ≤ halfOpenProbes
  halfOpenSuccessThreshold_pos : 1 ≤ halfOpenSuccessThreshold
  minimumThroughput_pos : 1 ≤ minimumThroughput
  threshold_pos : 0 < failureRateThreshold
  threshold_le_one : failureRateThreshold ≤ 1
  jitter_nonneg : 0 ≤ openJitterRatio
  jitter_lt_one : openJitterRatio < 1
  window_covers : bucketCount ≤ windowMs

/-- One failed call opens this circuit, for thirty seconds. -/
def tripsAtOnce : BreakerSettings where
  name := "payments"
  windowMs := 10000
  bucketCount := 10
  failureRateThreshold := 1 / 2
  minimumThroughput := 1
  openMs := 30000
  openJitterRatio := 0
  halfOpenProbes := 1
  halfOpenSuccessThreshold := 1
  bucketCount_pos := by decide
  openMs_pos := by decide
  halfOpenProbes_pos := by decide
  halfOpenSuccessThreshold_pos := by decide
  minimumThroughput_pos := by decide
  threshold_pos := by norm_num
  threshold_le_one := by norm_num
  jitter_nonneg := by norm_num
  jitter_lt_one := by norm_num
  window_covers := by decide

def assertPositiveInteger (field : String) (value : ℚ) : Except RangeError { n : ℕ // 1 ≤ n } :=
  checkInteger ("CircuitBreaker: " ++ field ++ " must be an integer >= 1, received ") 1 value

/-- The constructor's checks, in its order. -/
def CircuitBreakerOptions.check (options : CircuitBreakerOptions) :
    Except RangeError BreakerSettings := do
  let said (text : String) := "CircuitBreaker(" ++ options.name ++ "): " ++ text
  let ⟨windowMs, _⟩ ← assertPositiveInteger "windowMs" options.windowMs
  let ⟨bucketCount, hbucket⟩ ← assertPositiveInteger "bucketCount" options.bucketCount
  let ⟨openMs, hopen⟩ ← assertPositiveInteger "openMs" options.openMs
  let ⟨halfOpenProbes, hprobes⟩ ← assertPositiveInteger "halfOpenProbes" options.halfOpenProbes
  let ⟨halfOpenSuccessThreshold, hsuccess⟩ ←
    assertPositiveInteger "halfOpenSuccessThreshold" options.halfOpenSuccessThreshold
  let ⟨minimumThroughput, hthroughput⟩ ← checkInteger
    (said "minimumThroughput must be an integer >= 1, received ") 1 options.minimumThroughput
  if hrate : 0 < options.failureRateThreshold ∧ options.failureRateThreshold ≤ 1 then
    if hjitter : 0 ≤ options.openJitterRatio ∧ options.openJitterRatio < 1 then
      if hwindow : bucketCount ≤ windowMs then
        .ok ⟨options.name, windowMs, bucketCount, options.failureRateThreshold, minimumThroughput,
          openMs, options.openJitterRatio, halfOpenProbes, halfOpenSuccessThreshold, hbucket, hopen,
          hprobes, hsuccess, hthroughput, hrate.1, hrate.2, hjitter.1, hjitter.2, hwindow⟩
      else
        .error ⟨said ("windowMs (" ++ toString windowMs ++
          ") must be at least bucketCount (" ++ toString bucketCount ++
          "), otherwise a bucket spans less than a millisecond and the window cannot advance"),
          options.windowMs⟩
    else
      .error ⟨said "openJitterRatio must be in [0, 1), received ", options.openJitterRatio⟩
  else
    .error ⟨said "failureRateThreshold must be in (0, 1], received ", options.failureRateThreshold⟩

/-- `opened` is the source's `'open'`. -/
inductive CircuitState where
  | closed
  | opened
  | halfOpen
  deriving DecidableEq, Repr

inductive CircuitOutcome where
  | success
  | failure
  | ignored
  deriving DecidableEq, Repr

/-- What `onStateChange` is called with. -/
structure CircuitStateChange where
  name : String
  fromState : CircuitState
  toState : CircuitState
  atMs : ℚ
  failureRate : Option ℚ
  deriving DecidableEq, Repr

structure Bucket where
  epoch : ℤ
  successes : ℕ
  failures : ℕ
  deriving DecidableEq, Repr

def Bucket.fresh : Bucket := ⟨-1, 0, 0⟩

/-- The fields of the class. The ring is read by index: an index that was never
written holds a fresh bucket, also one outside the array. -/
structure CircuitBreaker where
  currentState : CircuitState
  openUntil : ℚ
  probesInFlight : ℕ
  consecutiveProbeSuccesses : ℕ
  generation : ℕ
  buckets : ℤ → Bucket

def CircuitBreaker.create : CircuitBreaker where
  currentState := .closed
  openUntil := 0
  probesInFlight := 0
  consecutiveProbeSuccesses := 0
  generation := 0
  buckets := fun _ => Bucket.fresh

/-- The clock readings one call makes, in their order. A call that makes fewer
leaves the rest unused. -/
structure Readings where
  first : ℚ
  second : ℚ
  third : ℚ
  fourth : ℚ
  first_le : first ≤ second
  second_le : second ≤ third
  third_le : third ≤ fourth

/-- A clock that stands still during a call. -/
def Readings.same (now : ℚ) : Readings := ⟨now, now, now, now, le_rfl, le_rfl, le_rfl⟩

def circuitOpenError (name : String) (retryAfterMs : ℚ) : AppError where
  statusCode := 503
  message := "Circuit \"" ++ name ++ "\" is open; not calling the dependency"
  code := some "CIRCUIT_OPEN"
  headers := [("Retry-After", toString (max 1 ⌈Binary64.round (retryAfterMs / 1000)⌉))]

def halfOpenRetryAfterMs : ℚ := 1000

/-- What a permit remembers of the call that issued it. -/
structure CircuitPermit where
  issuedIn : CircuitState
  generation : ℕ
  deriving DecidableEq, Repr

namespace CircuitBreaker

variable (settings : BreakerSettings)

def transitionTo (breaker : CircuitBreaker) (next : CircuitState) (failureRate : Option ℚ)
    (atMs : ℚ) : CircuitBreaker × List CircuitStateChange :=
  if breaker.currentState = next then (breaker, [])
  else
    let entered :=
      if next = .halfOpen then
        { breaker with
          generation := breaker.generation + 1
          probesInFlight := 0
          consecutiveProbeSuccesses := 0 }
      else breaker
    ({ entered with currentState := next },
      [⟨settings.name, breaker.currentState, next, atMs, failureRate⟩])

/-- The `state` getter: runs the open-to-half-open expiry, then the state is current. -/
def state (breaker : CircuitBreaker) (now : Readings) :
    CircuitBreaker × List CircuitStateChange :=
  if breaker.currentState = .opened ∧ breaker.openUntil ≤ now.first then
    breaker.transitionTo settings .halfOpen none now.second
  else (breaker, [])

def acquire (breaker : CircuitBreaker) (now : Readings) :
    Except AppError CircuitPermit × CircuitBreaker × List CircuitStateChange :=
  let (breaker, changes) := breaker.state settings now
  match breaker.currentState with
  | .opened =>
    (.error (circuitOpenError settings.name (Binary64.round (breaker.openUntil - now.second))),
      breaker, changes)
  | .halfOpen =>
    if settings.halfOpenProbes ≤ breaker.probesInFlight then
      (.error (circuitOpenError settings.name halfOpenRetryAfterMs), breaker, changes)
    else
      (.ok ⟨.halfOpen, breaker.generation⟩,
        { breaker with probesInFlight := breaker.probesInFlight + 1 }, changes)
  | .closed => (.ok ⟨.closed, breaker.generation⟩, breaker, changes)

def bucketMs : ℤ := ⌊Binary64.round (settings.windowMs / settings.bucketCount)⌋

/-- Which slice of the window `now` falls in. -/
def epochAt (now : ℚ) : ℤ := ⌊Binary64.round (now / bucketMs settings)⌋

/-- The bucket of that slice, cleared first if it holds an older one, with one
outcome added. -/
def tally (breaker : CircuitBreaker) (outcome : CircuitOutcome) (now : ℚ) : CircuitBreaker :=
  let epoch := epochAt settings now
  -- `%` of the source takes the sign of the epoch
  let index := epoch.tmod settings.bucketCount
  let held := breaker.buckets index
  let bucket := if held.epoch ≠ epoch then ⟨epoch, 0, 0⟩ else held
  let counted :=
    if outcome = .success then { bucket with successes := bucket.successes + 1 }
    else { bucket with failures := bucket.failures + 1 }
  { breaker with buckets := Function.update breaker.buckets index counted }

/-- Adds up the ring; a bucket that holds an older lap is skipped. -/
def totals (breaker : CircuitBreaker) (now : ℚ) : ℕ × ℕ :=
  let oldestEpoch := epochAt settings now - (settings.bucketCount - 1)
  let counted (count : Bucket → ℕ) : ℕ := ∑ index ∈ Finset.range settings.bucketCount,
    if (breaker.buckets index).epoch < oldestEpoch then 0 else count (breaker.buckets index)
  (counted Bucket.successes, counted Bucket.failures)

/-- When an open circuit next admits a probe, if it opens at `now`. -/
def probeInstant (now : ℚ) (random : Draw) : ℚ :=
  let jitterWindow := ⌊Binary64.round (settings.openMs * settings.openJitterRatio)⌋
  let spread := if 0 < jitterWindow then fullJitterDelay 1 jitterWindow jitterWindow random else 0
  Binary64.round (Binary64.round (now + (settings.openMs - jitterWindow)) + spread)

def trip (breaker : CircuitBreaker) (failureRate : Option ℚ) (now : Readings) (random : Draw) :
    CircuitBreaker × List CircuitStateChange :=
  transitionTo settings
    { breaker with
      openUntil := probeInstant settings now.third random
      probesInFlight := 0
      consecutiveProbeSuccesses := 0 }
    .opened failureRate now.fourth

def close (breaker : CircuitBreaker) (now : Readings) : CircuitBreaker × List CircuitStateChange :=
  transitionTo settings
    { breaker with
      buckets := fun index =>
        if 0 ≤ index ∧ index < settings.bucketCount then Bucket.fresh else breaker.buckets index
      consecutiveProbeSuccesses := 0 }
    .closed none now.fourth

/-- The first half of `record`: a probe of the current episode gives its slot
back, and an outcome that counts goes into the window. -/
def noteOutcome (breaker : CircuitBreaker) (outcome : CircuitOutcome) (permit : CircuitPermit)
    (now : ℚ) : CircuitBreaker :=
  let released :=
    if permit.issuedIn = .halfOpen ∧ permit.generation = breaker.generation then
      { breaker with probesInFlight := breaker.probesInFlight - 1 }
    else breaker
  if outcome = .ignored then released else released.tally settings outcome now

def record (breaker : CircuitBreaker) (outcome : CircuitOutcome) (permit : CircuitPermit)
    (now : Readings) (random : Draw) : CircuitBreaker × List CircuitStateChange :=
  let breaker := breaker.noteOutcome settings outcome permit now.first
  if permit.issuedIn = .halfOpen ∧ permit.generation ≠ breaker.generation then (breaker, [])
  else if breaker.currentState = .halfOpen ∧ permit.issuedIn = .halfOpen then
    match outcome with
    | .failure => trip settings { breaker with consecutiveProbeSuccesses := 0 } none now random
    | .success =>
      let counted :=
        { breaker with consecutiveProbeSuccesses := breaker.consecutiveProbeSuccesses + 1 }
      if settings.halfOpenSuccessThreshold ≤ counted.consecutiveProbeSuccesses then
        counted.close settings now
      else (counted, [])
    | .ignored => (breaker, [])
  else if breaker.currentState ≠ .closed ∨ outcome ≠ .failure then (breaker, [])
  else
    let (successes, failures) := breaker.totals settings now.second
    let total := successes + failures
    if total < settings.minimumThroughput then (breaker, [])
    else
      let failureRate := Binary64.round (failures / total)
      if settings.failureRateThreshold ≤ failureRate then
        breaker.trip settings (some failureRate) now random
      else (breaker, [])

end CircuitBreaker

/-- A permit in a caller's hands. `changesBefore` counts the state changes
announced before it was handed out. -/
structure HeldPermit where
  permit : CircuitPermit
  settled : Bool
  changesBefore : ℕ
  deriving DecidableEq

structure BreakerSystem where
  breaker : CircuitBreaker
  permits : List HeldPermit
  changes : List CircuitStateChange
  clock : ℚ

namespace BreakerSystem

def start (clock : ℚ) : BreakerSystem := ⟨CircuitBreaker.create, [], [], clock⟩

variable (settings : BreakerSettings)

/-- `acquire`: a permit goes to the back of the list, and is named by its place. -/
def acquire (s : BreakerSystem) (now : Readings) : Except AppError ℕ × BreakerSystem :=
  match s.breaker.acquire settings now with
  | (.error e, breaker, changes) =>
    (.error e, { s with
      breaker := breaker, changes := s.changes ++ changes, clock := now.fourth })
  | (.ok permit, breaker, changes) =>
    (.ok s.permits.length,
      { breaker := breaker
        permits := s.permits ++ [⟨permit, false, (s.changes ++ changes).length⟩]
        changes := s.changes ++ changes
        clock := now.fourth })

/-- Reading `state` or `stats`. -/
def look (s : BreakerSystem) (now : Readings) : BreakerSystem :=
  let (breaker, changes) := s.breaker.state settings now
  { s with breaker := breaker, changes := s.changes ++ changes, clock := now.fourth }

/-- `succeed`, `fail` or `ignore` of a held permit. A permit that is settled
already throws, and the breaker is not touched. -/
def settle (s : BreakerSystem) (place : ℕ) (held : HeldPermit) (outcome : CircuitOutcome)
    (now : Readings) (random : Draw) : Except String BreakerSystem :=
  if held.settled then
    .error ("CircuitBreaker(" ++ settings.name ++ "): permit settled twice (second outcome: " ++
      (match outcome with | .success => "success" | .failure => "failure" | .ignored => "ignored")
      ++ ")")
  else
    let (breaker, changes) := s.breaker.record settings outcome held.permit now random
    .ok
      { breaker := breaker
        permits := s.permits.set place { held with settled := true }
        changes := s.changes ++ changes
        clock := now.fourth }

inductive Action where
  | acquire (now : Readings)
  | look (now : Readings)
  | settle (place : ℕ) (outcome : CircuitOutcome) (now : Readings) (random : Draw)

/-- The readings an action makes. -/
def Action.now : Action → Readings
  | .acquire now => now
  | .look now => now
  | .settle _ _ now _ => now

/-- One call on the breaker or on a permit. The clock never goes back. -/
def step (s : BreakerSystem) (a : Action) : Option BreakerSystem :=
  if s.clock ≤ a.now.first then
    match a with
    | .acquire now => some (s.acquire settings now).2
    | .look now => some (s.look settings now)
    | .settle place outcome now random =>
      match s.permits[place]? with
      | none => none
      | some held =>
        match s.settle settings place held outcome now random with
        | .error _ => some s
        | .ok t => some t
  else none

end BreakerSystem

end BoilerplateExpress.Resilience

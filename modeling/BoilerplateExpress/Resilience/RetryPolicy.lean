import BoilerplateExpress.Backoff
import BoilerplateExpress.Errors

/-!
# What one outbound call may do

The decisions of `resilience/http-client.ts` that need no waiting: the checks of a
policy and of the deadlines, what a status and a rejected `fetch` mean, whether a
request may be sent twice, where it may be sent, and how long to wait before it is
sent again. `prepare` is the part of `attemptLadder` before its loop.
-/
namespace BoilerplateExpress.Resilience

structure Url where
  protocol : String
  host : String
  pathname : Text
  href : String
  deriving DecidableEq, Repr

/-- The functions of the language and of the platform that are used below. -/
structure Runtime where
  toUpperCase : String → String
  /-- `Number(s)` is not `NaN`. -/
  isNumber : Text → Bool
  dateParse : Text → Option ℤ
  numberText : ℚ → String
  /-- `new URL(reference, base)`. -/
  parseUrl : String → Option Url → Option Url

structure RetryPolicy where
  attempts : ℚ
  baseDelayMs : ℚ
  maxDelayMs : ℚ
  maxRetryAfterMs : ℚ
  retryNonIdempotent : Bool
  drainBytes : ℚ

def defaultRetryPolicy : RetryPolicy where
  attempts := 3
  baseDelayMs := 100
  maxDelayMs := 2000
  maxRetryAfterMs := 20000
  retryNonIdempotent := false
  drainBytes := 64 * 1024

/-- `Partial<RetryPolicy>`. -/
structure RetryOverrides where
  attempts : Option ℚ := none
  baseDelayMs : Option ℚ := none
  maxDelayMs : Option ℚ := none
  maxRetryAfterMs : Option ℚ := none
  retryNonIdempotent : Option Bool := none
  drainBytes : Option ℚ := none

def RetryPolicy.override (policy : RetryPolicy) (by_ : RetryOverrides) : RetryPolicy where
  attempts := by_.attempts.getD policy.attempts
  baseDelayMs := by_.baseDelayMs.getD policy.baseDelayMs
  maxDelayMs := by_.maxDelayMs.getD policy.maxDelayMs
  maxRetryAfterMs := by_.maxRetryAfterMs.getD policy.maxRetryAfterMs
  retryNonIdempotent := by_.retryNonIdempotent.getD policy.retryNonIdempotent
  drainBytes := by_.drainBytes.getD policy.drainBytes

/-- What is thrown before the first attempt. -/
inductive RequestError where
  | range (message : String)
  | type
  | urlNotAllowed (message : String)
  deriving DecidableEq, Repr

section Checks

variable (runtime : Runtime) (name : String)

def assertPolicy (policy : RetryPolicy) : Except RequestError { n : ℕ // 1 ≤ n } :=
  let said (text : String) := RequestError.range ("HttpClient(" ++ name ++ "): " ++ text)
  if h : policy.attempts.den = 1 ∧ 1 ≤ policy.attempts.num.toNat then
    if policy.baseDelayMs < 1 ∨ policy.maxDelayMs < policy.baseDelayMs then
      .error (said ("retry.maxDelayMs (" ++ runtime.numberText policy.maxDelayMs ++
        ") must be at least retry.baseDelayMs (" ++ runtime.numberText policy.baseDelayMs ++
        "), which must be at least 1"))
    else if policy.drainBytes < 0 then
      .error (said ("retry.drainBytes must be >= 0, received " ++
        runtime.numberText policy.drainBytes))
    else .ok ⟨policy.attempts.num.toNat, h.2⟩
  else
    .error (said ("retry.attempts must be an integer >= 1, received " ++
      runtime.numberText policy.attempts))

/-- A deadline that is finer than the one for the whole exchange. -/
def assertInnerDeadline (field kind : String) (requestMs : ℚ) (deadlineMs : Option ℚ) :
    Except RequestError Unit :=
  match deadlineMs with
  | none => .ok ()
  | some ms =>
    if ms < 1 ∨ requestMs < ms then
      .error (.range ("HttpClient(" ++ name ++ "): " ++ field ++ " (" ++ runtime.numberText ms ++
        ") must be between 1 and timeoutMs (" ++ runtime.numberText requestMs ++
        "); above it the " ++ kind ++ " deadline can never fire"))
    else .ok ()

def assertDeadlines (requestMs : ℚ) (headersMs bodyIdleMs : Option ℚ) :
    Except RequestError Unit := do
  if requestMs < 1 then
    throw (.range ("HttpClient(" ++ name ++ "): timeoutMs must be >= 1, received " ++
      runtime.numberText requestMs))
  assertInnerDeadline runtime name "headersTimeoutMs" "headers" requestMs headersMs
  assertInnerDeadline runtime name "bodyIdleTimeoutMs" "idle" requestMs bodyIdleMs

def inheritDeadline (configured : Option ℚ) (requestMs : ℚ) : Option ℚ :=
  configured.map (fun ms => min ms requestMs)

def urlNotAllowed (baseUrl requested : String) : RequestError :=
  .urlNotAllowed ("HttpClient(" ++ name ++ "): \"" ++ requested ++
    "\" resolves outside the client's base URL (" ++ baseUrl ++ ")")

/-- Everything up to and including the last slash. -/
def directoryOf (pathname : Text) : Text := (pathname.reverse.dropWhile (· ≠ '/')).reverse

def resolveWithinBase (baseUrl requested : String) : Except RequestError Url :=
  match runtime.parseUrl baseUrl none with
  | none => .error .type
  | some base =>
    match runtime.parseUrl requested (some base) with
    | none => .error (urlNotAllowed name baseUrl requested)
    | some resolved =>
      if resolved.protocol ≠ base.protocol ∨ resolved.host ≠ base.host ∨
          ¬ directoryOf base.pathname <+: resolved.pathname then
        .error (urlNotAllowed name baseUrl requested)
      else .ok resolved

end Checks

structure ResponseOutcome where
  dependencyFailure : Bool
  retryable : Bool
  deriving DecidableEq, Repr

def classifyResponse (status : ℕ) : ResponseOutcome :=
  if status < 400 then ⟨false, false⟩
  else if status = 429 then ⟨true, true⟩
  else if status = 408 then ⟨true, true⟩
  else if status < 500 then ⟨false, false⟩
  else if status = 501 then ⟨false, false⟩
  else ⟨true, true⟩

/-- Why `fetch` rejected: `cause` says that the error has one that is not `undefined`. -/
structure TransportError where
  message : String
  typeError : Bool
  cause : Bool
  deriving DecidableEq, Repr

def isRetryableTransportError (err : TransportError) : Bool :=
  if err.typeError then err.cause else true

/-- A request body, with the two methods that are looked for on an object. -/
inductive RequestBody where
  | absent
  | text
  | object (getReader asyncIterator : Bool)
  deriving DecidableEq, Repr

def isReplayableBody : RequestBody → Bool
  | .absent => true
  | .text => true
  | .object getReader asyncIterator => if getReader then false else !asyncIterator

/-- `HttpRequestInit`. The caller's signal belongs to the state of the call. -/
structure HttpRequestInit where
  method : Option String := none
  headers : Option (List (String × String)) := none
  body : RequestBody := .absent
  retry : Option RetryOverrides := none
  timeoutMs : Option ℚ := none
  headersTimeoutMs : Option ℚ := none
  bodyIdleTimeoutMs : Option ℚ := none

def isHttpSpace (c : Char) : Bool := c = '\t' || c = '\n' || c = '\r' || c = ' '

def normalizeValue (value : Text) : Text :=
  ((value.dropWhile isHttpSpace).reverse.dropWhile isHttpSpace).reverse

def isHeaderNameChar (c : Char) : Bool :=
  Text.isAlphanumeric c || "!#$%&'*+-.^_`|~".toList.contains c

/-- What `new Headers` accepts as a name and a value. -/
def isHeaderField (field : String × String) : Bool :=
  !field.1.isEmpty && field.1.toList.all isHeaderNameChar &&
    (normalizeValue field.2.toList).all
      (fun c => c.toNat < 256 && c ≠ '\x00' && c ≠ '\n' && c ≠ '\r')

/-- `new Headers(init.headers).get(name)`; values of one name are joined. -/
def headerValue (headers : Option (List (String × String))) (name : String) :
    Except RequestError (Option String) :=
  match headers with
  | none => .ok none
  | some fields =>
    if fields.all isHeaderField then
      match fields.filter (fun field => field.1.toLower = name) with
      | [] => .ok none
      | held =>
        .ok (some (", ".intercalate
          (held.map (fun field => String.ofList (normalizeValue field.2.toList)))))
    else .error .type

def idempotentMethods : List String := ["GET", "HEAD", "OPTIONS", "TRACE", "PUT", "DELETE"]

def replayable (runtime : Runtime) (init : HttpRequestInit) (policy : RetryPolicy) :
    Except RequestError Bool :=
  if policy.attempts ≤ 1 then .ok false
  else if isReplayableBody init.body = false then .ok false
  else if runtime.toUpperCase (init.method.getD "GET") ∈ idempotentMethods then .ok true
  else if policy.retryNonIdempotent then .ok true
  else (headerValue init.headers "idempotency-key").map Option.isSome

/-- `Number.isSafeInteger` of a natural number that was read from digits. Above the
bound the reading is rounded, to a number above the bound. -/
def isSafeInteger (n : ℕ) : Bool := n < 2 ^ 53

def parseRetryAfter (runtime : Runtime) (value : Option Text) (now : ℚ) : Option ℚ :=
  match value with
  | none => none
  | some value =>
    let field := Text.trim value
    if field = [] then none
    else if field.all Text.isDigit then
      let seconds := Text.digitsToNat field
      if isSafeInteger seconds && isSafeInteger (seconds * 1000) then some (seconds * 1000 : ℕ)
      else none
    else if runtime.isNumber field then none
    else (runtime.dateParse field).map (fun at_ => max 0 (at_ - now))

def ladderDelay (attempt : ℕ) (policy : RetryPolicy) (random : Draw) : ℚ :=
  fullJitterDelay attempt policy.baseDelayMs policy.maxDelayMs random

/-- How long to wait after a response that is retried. -/
def responseDelay (advertised : Option ℚ) (attempt : ℕ) (policy : RetryPolicy) (random : Draw) : ℚ :=
  match advertised with
  | none => ladderDelay attempt policy random
  | some ms => ms + fullJitterDelay 1 policy.baseDelayMs policy.baseDelayMs random

/-- The options a client keeps, with its policy merged into the defaults. -/
structure ClientOptions where
  name : String
  baseUrl : Option String := none
  timeoutMs : ℚ := 5000
  headersTimeoutMs : Option ℚ := none
  bodyIdleTimeoutMs : Option ℚ := none
  policy : RetryPolicy := defaultRetryPolicy

/-- The checks of `createHttpClient`. -/
def ClientOptions.check (runtime : Runtime) (options : ClientOptions) : Except RequestError Unit := do
  let _ ← assertPolicy runtime options.name options.policy
  assertDeadlines runtime options.name options.timeoutMs options.headersTimeoutMs
    options.bodyIdleTimeoutMs

/-- What the loop of `attemptLadder` runs with. -/
structure Plan where
  name : String
  policy : RetryPolicy
  url : Option Url
  deadlineMs : ℚ
  headersDeadlineMs : Option ℚ
  bodyIdleMs : Option ℚ
  maxAttempts : ℕ

/-- The URL that is asked for: without a base, whatever the caller handed in. -/
def resolveUrl (runtime : Runtime) (options : ClientOptions) (input : String) :
    Except RequestError (Option Url) :=
  match options.baseUrl with
  | none => .ok none
  | some baseUrl => (resolveWithinBase runtime options.name baseUrl input).map some

def callPolicy (options : ClientOptions) (init : HttpRequestInit) : RetryPolicy :=
  match init.retry with
  | none => options.policy
  | some perCall => options.policy.override perCall

/-- `attemptLadder` up to its loop. -/
def prepare (runtime : Runtime) (options : ClientOptions) (input : String)
    (init : HttpRequestInit) : Except RequestError Plan := do
  let policy := callPolicy options init
  -- the client's own policy was checked when the client was made
  let attempts ← assertPolicy runtime options.name policy
  let deadlineMs := init.timeoutMs.getD options.timeoutMs
  assertDeadlines runtime options.name deadlineMs init.headersTimeoutMs init.bodyIdleTimeoutMs
  let url ← resolveUrl runtime options input
  let again ← replayable runtime init policy
  return {
    name := options.name
    policy := policy
    url := url
    deadlineMs := deadlineMs
    headersDeadlineMs :=
      init.headersTimeoutMs.orElse (fun _ => inheritDeadline options.headersTimeoutMs deadlineMs)
    bodyIdleMs :=
      init.bodyIdleTimeoutMs.orElse (fun _ => inheritDeadline options.bodyIdleTimeoutMs deadlineMs)
    maxAttempts := if again then attempts.1 else 1 }

/-- The loop has at least one turn, and just one for a request that must not be repeated. -/
theorem prepare_maxAttempts {runtime options input init plan}
    (h : prepare runtime options input init = .ok plan) :
    1 ≤ plan.maxAttempts ∧
      (replayable runtime init plan.policy = .ok false → plan.maxAttempts = 1) := by
  obtain ⟨attempts, -, h⟩ := bind_eq_ok h
  obtain ⟨-, -, h⟩ := bind_eq_ok h
  obtain ⟨url, -, h⟩ := bind_eq_ok h
  obtain ⟨again, hagain, h⟩ := bind_eq_ok h
  cases h
  constructor
  · dsimp only
    split_ifs
    · exact attempts.2
    · exact le_rfl
  · intro hfalse
    obtain rfl : again = false := Except.ok.inj (hagain.symm.trans hfalse)
    rfl

end BoilerplateExpress.Resilience

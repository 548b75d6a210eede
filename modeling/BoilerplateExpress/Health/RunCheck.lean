import BoilerplateExpress.Errors
import BoilerplateExpress.EventStream

/-!
# Health checks

`runCheck` and `runChecks` of `health/run-check.ts`, with `describeFailure` of
`lib/describe-error.ts`. Instants are counted in milliseconds from the start of the call; a check
that settles at the instant its timer fires is late.

The text of a failure is made in the catch block, from whatever the check threw. `instanceof`,
reading a property and turning a value into text run code of that value and may throw: what they
do is given by a `Runtime`.
-/
namespace BoilerplateExpress.Health

open EventStream (units)

structure Runtime (V : Type) extends ValueRuntime JsString V where
  /-- A value in a template literal, where a symbol throws. -/
  toText : V → Except V JsString

inductive DependencyCriticality where
  | critical
  | optional
  deriving DecidableEq

inductive CheckStatus where
  | ok
  | failed
  deriving DecidableEq

/-- What `run` throws is a rejection at once. -/
inductive Settlement (V : Type) where
  | resolved
  | rejected (error : V)

/-- A check, with what it does in the call: `settles` is empty if it stays pending. -/
structure DependencyCheck (V : Type) where
  name : JsString
  criticality : DependencyCriticality
  settles : Option (ℚ × Settlement V)
  /-- When its timer fires. -/
  deadline : ℚ

structure CheckResult where
  name : JsString
  criticality : DependencyCriticality
  status : CheckStatus
  durationMs : ℤ
  error : Option JsString
  deriving DecidableEq

def maxLastErrorLength : ℕ := 1000

def shorten (text : JsString) : JsString :=
  if maxLastErrorLength < text.length then text.take (maxLastErrorLength - 1) ++ units "…"
  else text

/-- The text of a `HealthCheckTimeoutError`. -/
def timeoutText (checkName : JsString) (timeoutMs : ℕ) : JsString :=
  units "HealthCheckTimeoutError: Health check \"" ++ checkName ++
    units "\" did not answer within " ++ units (toString timeoutMs) ++ units "ms"

/-- How the race of a check against its deadline ends, and when; the deadline is `none`. -/
def race {V : Type} (check : DependencyCheck V) : ℚ × Option (Settlement V) :=
  match check.settles with
  | some (instant, settlement) =>
    if instant < check.deadline then (instant, some settlement) else (check.deadline, none)
  | none => (check.deadline, none)

/-- `Promise.all`: the values in order once the last one is there, or the first rejection. -/
def promiseAll {V α : Type} : List (ℚ × Except V α) → ℚ × Except V (List α)
  | [] => (0, .ok [])
  | (instant, .ok value) :: rest =>
    match promiseAll rest with
    | (last, .ok values) => (max instant last, .ok (value :: values))
    | (first, .error error) => (first, .error error)
  | (instant, .error error) :: rest =>
    match promiseAll rest with
    | (_, .ok _) => (instant, .error error)
    | (first, .error other) =>
      (min instant first, .error (if first < instant then other else error))

section

variable {V : Type} (runtime : Runtime V)

/-- A property in a template literal. -/
def readText (value : V) (key : String) : Except V JsString :=
  runtime.get value key >>= runtime.toText

def describeFailure (error : V) : Except V JsString := do
  if ← runtime.instanceofError error then
    let name ← readText runtime error "name"
    let message ← readText runtime error "message"
    return shorten (name ++ units ": " ++ message)
  else
    let text ← runtime.string error
    return shorten (units "Non-error thrown: " ++ text)

def runCheck (timeoutMs : ℕ) (check : DependencyCheck V) : ℚ × Except V CheckResult :=
  let (instant, settled) := race check
  let failed (error : JsString) : CheckResult :=
    ⟨check.name, check.criticality, .failed, round instant, some error⟩
  match settled with
  | some .resolved => (instant, .ok ⟨check.name, check.criticality, .ok, round instant, none⟩)
  | some (.rejected error) => (instant, (describeFailure runtime error).map failed)
  | none => (instant, .ok (failed (shorten (timeoutText check.name timeoutMs))))

def runChecks (timeoutMs : ℕ) (checks : List (DependencyCheck V)) :
    ℚ × Except V (List CheckResult) :=
  promiseAll (checks.map (runCheck runtime timeoutMs))

/-- Everything that `describeFailure` does with the value returns. -/
def Describable (error : V) : Prop :=
  (runtime.instanceofError error = .ok true ∧
      ∀ key ∈ ["name", "message"], ∃ text, readText runtime error key = .ok text) ∨
    (runtime.instanceofError error = .ok false ∧ ∃ text, runtime.string error = .ok text)

/-- The check resolves before its deadline. -/
def inTime (check : DependencyCheck V) : Bool :=
  match check.settles with
  | some (instant, .resolved) => instant < check.deadline
  | _ => false

end

/-- All values come, and look as expected, exactly if each one comes. -/
lemma promiseAll_iff {V ι α β : Type} {f : ι → ℚ × Except V α} {view} {expected : ι → β}
    (hview : ∀ i a, (f i).2 = .ok a → view a = expected i) (l : List ι) :
    (∃ values, (promiseAll (l.map f)).2 = .ok values ∧ values.map view = l.map expected) ↔
      ∀ i ∈ l, ∃ a, (f i).2 = .ok a := by
  induction l with
  | nil => simp [promiseAll]
  | cons i l ih =>
    rw [List.map_cons, List.forall_mem_cons, ← ih]
    rcases hi : f i with ⟨instant, outcome⟩
    rcases hrest : promiseAll (l.map f) with ⟨last, rest⟩
    cases outcome with
    | ok value =>
      have hvalue := hview i value (by rw [hi])
      cases rest <;> simp [promiseAll, hrest, hvalue]
    | error error => cases rest <;> simp [promiseAll, hrest]

lemma promiseAll_le {V α latest} {ps : List (ℚ × Except V α)} (hlat : 0 ≤ latest)
    (h : ∀ p ∈ ps, p.1 ≤ latest) : (promiseAll ps).1 ≤ latest := by
  induction ps with
  | nil => exact hlat
  | cons p ps ih =>
    obtain ⟨hp, hps⟩ := List.forall_mem_cons.mp h
    have hrest := ih hps
    obtain ⟨instant, outcome⟩ := p
    rcases hall : promiseAll ps with ⟨last, rest⟩
    cases outcome <;> cases rest <;> simp_all [promiseAll]

section

variable {V : Type} (runtime : Runtime V)

lemma describeFailure_iff (error) :
    (∃ text, describeFailure runtime error = .ok text) ↔ Describable runtime error := by
  unfold describeFailure Describable
  cases runtime.instanceofError error with
  | error e => simp
  | ok instanceofError => cases instanceofError <;> simp [exists_bind_ok, pure, Except.pure]

/-- One check: its result, when there is one, and when it is there. -/
lemma runCheck_spec (timeoutMs check) :
    ((∃ result, (runCheck runtime timeoutMs check).2 = .ok result) ↔
      ∀ instant error, check.settles = some (instant, .rejected error) →
        instant < check.deadline → Describable runtime error) ∧
    (∀ result, (runCheck runtime timeoutMs check).2 = .ok result →
      (result.name, result.criticality, result.status) =
        (check.name, check.criticality, if inTime check then .ok else .failed)) ∧
    (runCheck runtime timeoutMs check).1 ≤ check.deadline := by
  unfold runCheck race inTime
  cases hset : check.settles with
  | none => simp
  | some settled =>
    obtain ⟨instant, settlement⟩ := settled
    by_cases htime : instant < check.deadline
    · cases settlement with
      | resolved => simp [htime, htime.le]
      | rejected error =>
        have hdes := describeFailure_iff runtime error
        cases hdesc : describeFailure runtime error <;>
          simpa [Except.map, hdesc, htime, htime.le] using hdes
    · cases settlement <;> simp [htime]

/-- The results come together, one for each check in order and `ok` exactly where the check
resolved in time, exactly if every value thrown in time can be described. Never are they waited for
beyond the last deadline. -/
theorem runChecks_resolves_iff (timeoutMs : ℕ) (checks : List (DependencyCheck V)) :
    ((∃ results, (runChecks runtime timeoutMs checks).2 = .ok results ∧
        results.map (fun r => (r.name, r.criticality, r.status)) =
          checks.map (fun check =>
            (check.name, check.criticality, if inTime check then .ok else .failed))) ↔
      ∀ check ∈ checks, ∀ instant error, check.settles = some (instant, .rejected error) →
        instant < check.deadline → Describable runtime error) ∧
    ∀ latest, 0 ≤ latest → (∀ check ∈ checks, check.deadline ≤ latest) →
      (runChecks runtime timeoutMs checks).1 ≤ latest := by
  have hspec := runCheck_spec runtime timeoutMs
  refine ⟨(promiseAll_iff (fun check => (hspec check).2.1) checks).trans ?_, ?_⟩
  · exact forall₂_congr fun check _ => (hspec check).1
  · intro latest hlat hall
    refine promiseAll_le hlat ?_
    intro p hp
    obtain ⟨check, hcheck, rfl⟩ := List.mem_map.mp hp
    exact (hspec check).2.2.trans (hall check hcheck)

end

/-- An object without a prototype, and what turning it into text throws. -/
inductive SampleValue where
  | bare
  | typeError
  deriving DecidableEq

def sampleRuntime : Runtime SampleValue where
  instanceofError value := .ok (value == .typeError)
  get value _ := .ok value
  toText _ := .error .typeError
  string _ := .error .typeError

/-- A check that throws such an object hides the other one, which has resolved. -/
theorem thrown_object_hides_results :
    let checks : List (DependencyCheck SampleValue) :=
      [⟨units "postgres", .critical, some (1, .resolved), 2000⟩,
        ⟨units "redis", .optional, some (2, .rejected .bare), 2000⟩]
    (runChecks sampleRuntime 2000 checks).2 = .error .typeError := by decide +kernel

end BoilerplateExpress.Health

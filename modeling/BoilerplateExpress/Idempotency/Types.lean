import BoilerplateExpress.Errors

/-!
# Idempotency records

`idempotency/idempotency.types.ts` and the errors of `idempotency.errors.ts` that the
store and the middleware raise. In a record of the store a body is a JSON value; `none`
is `undefined`.
-/
namespace BoilerplateExpress.Idempotency

inductive Json where
  | null
  | bool (b : Bool)
  | number (q : ℚ)
  | string (s : Text)
  | array (items : List Json)
  | object (members : List (Text × Json))

inductive IdempotencyState where
  | inProgress
  | completed
  deriving DecidableEq, Repr

/-- What a replay puts back on the wire. `hasBody` is not derived from `body`. -/
structure RecordedResponse (V : Type) where
  status : ℕ
  hasBody : Bool
  body : Option V := none

inductive ClaimResult where
  | claimed (claimId : ℕ)
  | replay (response : RecordedResponse Json)
  | inProgress
  | mismatch

def storeContention (attempts : ℕ) : AppError :=
  { statusCode := 503
    message := "Could not resolve the state of this idempotency key after " ++
      toString attempts ++ " attempts"
    code := some "IDEMPOTENCY_CONTENTION" }

def defaultRetentionMs : ℚ := 24 * 60 * 60 * 1000

def defaultLeaseMs : ℚ := 60000

end BoilerplateExpress.Idempotency

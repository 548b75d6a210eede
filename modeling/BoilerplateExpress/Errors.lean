import BoilerplateExpress.Text

/-!
# Application errors

`AppError` of `lib/errors.ts`: the status, text and code a request fails with, and
the response headers that belong to the answer. `RangeError` is what the argument
checks of the constructors throw.
-/
namespace BoilerplateExpress

structure AppError where
  statusCode : ℕ
  message : String
  code : Option String
  headers : List (String × String) := []
  deriving DecidableEq, Repr

/-- A `RangeError` of an argument check: its text, which ends in the number received. -/
structure RangeError where
  message : String
  received : ℚ
  deriving DecidableEq, Repr

/-- `Number.isInteger(value) && value >= least`, with the integer. -/
def checkInteger (message : String) (least : ℕ) (value : ℚ) :
    Except RangeError { n : ℕ // least ≤ n } :=
  if h : value.den = 1 ∧ least ≤ value.num then
    .ok ⟨value.num.toNat, (Int.toNat_natCast least).symm.trans_le (Int.toNat_le_toNat h.2)⟩
  else .error ⟨message, value⟩

/-- What the language does with a value, with texts in `T`. Each of these runs code of the value when
it is an object, and may throw. -/
structure ValueRuntime (T V : Type) where
  /-- `value instanceof Error`. -/
  instanceofError : V → Except V Bool
  get : V → String → Except V V
  /-- `String(value)`. -/
  string : V → Except V T

@[simp] lemma ok_bind {ε α β : Type} (a) (f : α → Except ε β) :
    ((.ok a : Except ε α) >>= f) = f a := rfl

@[simp] lemma error_bind {ε α β : Type} (e) (f : α → Except ε β) :
    ((.error e : Except ε α) >>= f) = .error e := rfl

/-- Takes a chain of fallible calls apart at its first call. -/
theorem bind_eq_ok {ε α β : Type} {x} {f : α → Except ε β} {b} (h : (x >>= f) = .ok b) :
    ∃ a, x = .ok a ∧ f a = .ok b := by
  cases x with
  | error e => cases h
  | ok a => exact ⟨a, rfl, h⟩

lemma exists_bind_ok {ε α β : Type} {x} {f : α → Except ε β} :
    (∃ b, (x >>= f) = .ok b) ↔ ∃ a, x = .ok a ∧ ∃ b, f a = .ok b := by
  cases x with
  | error e => simp
  | ok a => simp

lemma map_eq_ok {ε α β : Type} {x : Except ε α} {f} {b : β} (h : x.map f = .ok b) :
    ∃ a, x = .ok a ∧ f a = b := by
  cases x with
  | error e => cases h
  | ok a => exact ⟨a, rfl, Except.ok.inj h⟩

lemma toOption_bind_eq_some {ε α β : Type} {x : Except ε α} {f} {b : β}
    (h : x.toOption.bind f = some b) : ∃ a, x = .ok a ∧ f a = some b := by
  cases x with
  | error e => cases h
  | ok a => exact ⟨a, rfl, h⟩

end BoilerplateExpress

import BoilerplateExpress.Errors
import BoilerplateExpress.EventStream

/-!
# Range requests

`http/range.ts`: the `Range` field and what it asks of a representation whose length is
known. A position is a natural number; one with more digits than an offset can have is read
as the largest safe integer.
-/
namespace BoilerplateExpress.Http

open EventStream (units isDigits)

/-- `Number.MAX_SAFE_INTEGER`. -/
def maxSafeInteger : ℕ := 2 ^ 53 - 1

/-- An inclusive byte interval, from `start` to `stop`. -/
structure ByteRange where
  start : ℕ
  stop : ℕ
  deriving DecidableEq, Repr

inductive RangeSpec where
  /-- From `first` to `last`, or to the end. -/
  | int (first : ℕ) (last : Option ℕ)
  /-- The final `length` bytes. -/
  | suffix (length : ℕ)
  deriving DecidableEq, Repr

inductive RangeResolution where
  | ignore
  | unsatisfiable
  | range (range : ByteRange)
  deriving DecidableEq, Repr

def maxPositionDigits : ℕ := 15

/-- Takes the leading zeros away, but not the last digit. -/
def stripZeros : JsString → JsString
  | u :: v :: rest =>
    if u = 48 && (48 ≤ v && v ≤ 57) then stripZeros (v :: rest) else u :: v :: rest
  | text => text

def parsePosition (text : JsString) : Option ℕ :=
  if isDigits text = false then none
  else
    let digits := stripZeros text
    some (if maxPositionDigits < digits.length then maxSafeInteger else digits.digitsToNat)

def parseRangeSpec (part : JsString) : Option RangeSpec :=
  match Text.cut 45 part with
  | none => none
  | some (before, after) =>
    if before = [] then (parsePosition after).map .suffix
    else
      match parsePosition before with
      | none => none
      | some first =>
        if after = [] then some (.int first none)
        else
          match parsePosition after with
          | none => none
          | some last => if last < first then none else some (.int first (some last))

/-- The members of the list after the unit; blank ones are skipped. -/
def rangeParts (list : JsString) : List JsString :=
  ((list.splitOn 44).map JsString.trim).filter (· ≠ [])

/-- One member that cannot be read spoils the list, and a list of nothing is none. The
lower-casing of strings is a parameter. -/
def parseRangeHeader (toLowerCase : JsString → JsString) (header : JsString) :
    Option (List RangeSpec) :=
  match Text.cut 61 header with
  | none => none
  | some (unit, list) =>
    if toLowerCase (JsString.trim unit) ≠ units "bytes" then none
    else
      match (rangeParts list).mapM parseRangeSpec with
      | some (spec :: specs) => some (spec :: specs)
      | _ => none

/-- What one specification means for a representation of `size` bytes. -/
def resolveSpec (size : ℕ) : RangeSpec → RangeResolution
  | .suffix length =>
    if length = 0 || size = 0 then .unsatisfiable
    else .range ⟨size - length, size - 1⟩
  | .int first last =>
    if size ≤ first then .unsatisfiable
    else .range ⟨first, last.elim (size - 1) (min · (size - 1))⟩

/-- More than one range is ignored. -/
def resolveRange (specs : List RangeSpec) (size : ℚ) : Except RangeError RangeResolution :=
  if size.den = 1 ∧ 0 ≤ size ∧ size ≤ maxSafeInteger then
    match specs with
    | [spec] => .ok (resolveSpec size.num.toNat spec)
    | _ => .ok .ignore
  else .error ⟨"resolveRange: size must be a non-negative integer, received ", size⟩

/-- `bytes <start>-<end>/<size>`. -/
def formatContentRange (range : ByteRange) (size : ℕ) : JsString :=
  units "bytes " ++ JsString.natUnits range.start ++ units "-" ++ JsString.natUnits range.stop ++
    units "/" ++ JsString.natUnits size

/-- The size alone, for a range that cannot be satisfied. -/
def formatUnsatisfiedRange (size : ℕ) : JsString := units "bytes */" ++ JsString.natUnits size

def rangeLength (range : ByteRange) : ℕ := range.stop - range.start + 1

end BoilerplateExpress.Http

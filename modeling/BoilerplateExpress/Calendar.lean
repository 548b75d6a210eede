import BoilerplateExpress.EventStream

/-!
# Dates in universal time

A time value is a number of milliseconds since 1970. Its date in the proleptic Gregorian
calendar is found by counting days from the first of March of the year 0, in eras of 400
years, so that a leap day is the last day of its year.
-/
namespace BoilerplateExpress.Calendar

open EventStream (units)
open List

structure Civil where
  year : ℤ
  month : ℕ
  day : ℕ
  deriving DecidableEq, Repr

/-- The date of a day, counted from the first of January 1970. -/
def civil (days : ℤ) : Civil :=
  let z := days + 719468
  let dayOfEra := z % 146097
  let yearOfEra :=
    (dayOfEra - dayOfEra / 1460 + dayOfEra / 36524 - dayOfEra / 146096) / 365
  let dayOfYear := dayOfEra - (365 * yearOfEra + yearOfEra / 4 - yearOfEra / 100)
  let march := (5 * dayOfYear + 2) / 153
  let month := if march < 10 then march + 3 else march - 9
  { year := yearOfEra + z / 146097 * 400 + if month ≤ 2 then 1 else 0
    month := month.toNat
    day := (dayOfYear - (153 * march + 2) / 5 + 1).toNat }

def weekdays : List String := ["Sun", "Mon", "Tue", "Wed", "Thu", "Fri", "Sat"]

def months : List String :=
  ["Jan", "Feb", "Mar", "Apr", "May", "Jun", "Jul", "Aug", "Sep", "Oct", "Nov", "Dec"]

/-- The first of January 1970 was a Thursday. -/
def weekday (days : ℤ) : JsString := units (weekdays.getD ((days + 4) % 7).toNat "")

def monthName (month : ℕ) : JsString := units (months.getD (month - 1) "")

/-- A number with leading zeros to a width. -/
def pad (width n : ℕ) : JsString :=
  List.replicate (width - (JsString.natUnits n).length) 48 ++ JsString.natUnits n

/-- `Date.prototype.toUTCString`. The milliseconds are not written. -/
def toUTCString (time : ℤ) : JsString :=
  let days := time / 86400000
  let seconds := (time % 86400000 / 1000).toNat
  let date := civil days
  weekday days ++ units ", " ++ pad 2 date.day ++ units " " ++ monthName date.month ++ units " " ++
    (if date.year < 0 then units "-" else []) ++ pad 4 date.year.natAbs ++ units " " ++
    pad 2 (seconds / 3600) ++ units ":" ++ pad 2 (seconds / 60 % 60) ++ units ":" ++
    pad 2 (seconds % 60) ++ units " GMT"

example : toUTCString 1709251199999 = units "Thu, 29 Feb 2024 23:59:59 GMT" := by decide +kernel

/-- The year of `toISOString`: six digits and a sign where four do not do. -/
def isoYear (year : ℤ) : JsString :=
  if 0 ≤ year ∧ year ≤ 9999 then pad 4 year.toNat
  else units (if year < 0 then "-" else "+") ++ pad 6 year.natAbs

/-- `Date.prototype.toISOString`. -/
def toISOString (time : ℤ) : JsString :=
  let date := civil (time / 86400000)
  let millis := (time % 86400000).toNat
  isoYear date.year ++ units "-" ++ pad 2 date.month ++ units "-" ++ pad 2 date.day ++ units "T" ++
    pad 2 (millis / 3600000) ++ units ":" ++ pad 2 (millis / 60000 % 60) ++ units ":" ++
    pad 2 (millis / 1000 % 60) ++ units "." ++ pad 3 (millis % 1000) ++ units "Z"

example : toISOString 1709251199999 = units "2024-02-29T23:59:59.999Z" := by decide +kernel

lemma toUTCString_eq (time) :
    ∃ name ∈ weekdays, ∃ middle, toUTCString time = units name ++ middle ++ units "GMT" := by
  have hmem : weekdays.getD ((time / 86400000 + 4) % 7).toNat "" ∈ weekdays := by
    have hindex : ((time / 86400000 + 4) % 7).toNat < weekdays.length := by
      rw [show weekdays.length = 7 from rfl]
      omega
    rw [getD_eq_getElem?_getD, getElem?_eq_getElem hindex, Option.getD_some]
    exact getElem_mem hindex
  refine ⟨_, hmem, ?_⟩
  have hzone : units " GMT" = units " " ++ units "GMT" := by decide
  simp only [toUTCString, weekday, hzone, append_assoc, append_cancel_left_eq]
  simp only [← append_assoc]
  exact ⟨_, rfl⟩

end BoilerplateExpress.Calendar

import BoilerplateExpress.EventStream
import BoilerplateExpress.Regex
import Mathlib.Data.Nat.Digits.Defs

/-!
# Redaction by the shape of a value

`logging/value-patterns.ts`: the five detectors, the two checksums and `redactText`, which
runs the detectors in order.

The patterns carry the `u` flag and so match code points, but all of their classes are of
single units and a match never starts at a surrogate, so matching units is the same. The
pattern of the authorization schemes carries `i` too. Under both flags U+017F and U+212A
fold to `s` and `k`: they match these letters and count as units of a word.
-/
namespace BoilerplateExpress.Logging

open EventStream (units)
open Regex (Pattern replaceAll)
open List

/-! ### Markers of `logging/redaction.types.ts` -/

def redacted : JsString := units "[redacted]"

def redactedEmail : JsString := units "[redacted:email]"

def redactedJwt : JsString := units "[redacted:jwt]"

def redactedCard : JsString := units "[redacted:card]"

def redactedIban : JsString := units "[redacted:iban]"

/-! ### Classes of units -/

def isDigit (u : UInt16) : Bool := 48 ≤ u && u ≤ 57

def isUpper (u : UInt16) : Bool := 65 ≤ u && u ≤ 90

def isLower (u : UInt16) : Bool := 97 ≤ u && u ≤ 122

def isAlpha (u : UInt16) : Bool := isUpper u || isLower u

def isAlnum (u : UInt16) : Bool := isAlpha u || isDigit u

/-- `\w`, which `\b` looks at. -/
def isWord (u : UInt16) : Bool := isAlnum u || u == 95

/-- `[ -]`. -/
def isSeparator (u : UInt16) : Bool := u == 32 || u == 45

/-- The two units outside ASCII that fold to a letter of ASCII. -/
def foldsToAscii (u : UInt16) : Bool := u == 0x17F || u == 0x212A

/-- `\w` under the flags `iu`. -/
def isFoldedWord (u : UInt16) : Bool := isWord u || foldsToAscii u

/-- A lower-case letter of a pattern under the flags `iu`. -/
def isLetter (letter u : UInt16) : Bool :=
  u == letter || u == letter - 32 || (letter == 115 && u == 0x17F) || (letter == 107 && u == 0x212A)

/-- `[A-Za-z0-9._~+/=-]` under the flags `iu`. -/
def isCredential (u : UInt16) : Bool :=
  isAlnum u || (units "._~+/=-").contains u || foldsToAscii u

/-- `[A-Za-z0-9_-]`. -/
def isBase64Url (u : UInt16) : Bool := isAlnum u || (units "_-").contains u

/-- `[A-Za-z0-9._%+-]`. -/
def isLocalPart (u : UInt16) : Bool := isAlnum u || (units "._%+-").contains u

/-- `[A-Za-z0-9-]`. -/
def isHostPart (u : UInt16) : Bool := isAlnum u || u == 45

/-! ### Patterns -/

/-- `/\b(Bearer|Basic)\s+[A-Za-z0-9._~+/=-]+/giu`. -/
def authScheme : Pattern UInt16 :=
  .seq (.boundary isFoldedWord) <|
  .seq (.alt (.each ((units "bearer").map isLetter)) (.each ((units "basic").map isLetter))) <|
  .seq (.plus (.unit JsString.isSpace)) (.plus (.unit isCredential))

/-- `/\beyJ[A-Za-z0-9_-]+\.[A-Za-z0-9_-]+\.[A-Za-z0-9_-]*/gu`. -/
def jwt : Pattern UInt16 :=
  .seq (.boundary isWord) <| .seq (.unit (· == 101)) <| .seq (.unit (· == 121)) <|
  .seq (.unit (· == 74)) <| .seq (.plus (.unit isBase64Url)) <| .seq (.unit (· == 46)) <|
  .seq (.plus (.unit isBase64Url)) <| .seq (.unit (· == 46)) (.star (.unit isBase64Url))

/-- `/\b[A-Z]{2}[0-9]{2}[A-Za-z0-9]{0,30}(?: [A-Za-z0-9]{1,4}){0,8}\b/gu`. -/
def iban : Pattern UInt16 :=
  .seq (.boundary isWord) <| .seq (.unit isUpper) <| .seq (.unit isUpper) <|
  .seq (.unit isDigit) <| .seq (.unit isDigit) <| .seq (.upTo 30 (.unit isAlnum)) <|
  .seq (.upTo 8 (.seq (.unit (· == 32)) (.seq (.unit isAlnum) (.upTo 3 (.unit isAlnum)))))
    (.boundary isWord)

/-- `\d[ -]?`. -/
def cardDigit : Pattern UInt16 := .seq (.unit isDigit) (.upTo 1 (.unit isSeparator))

/-- `/\b(?:\d[ -]?){12,18}\d\b/gu`. -/
def card : Pattern UInt16 :=
  .seq (.boundary isWord) <| .seq (.copies cardDigit 12) <| .seq (.upTo 6 cardDigit) <|
  .seq (.unit isDigit) (.boundary isWord)

/-- `/\b[A-Za-z0-9._%+-]+@[A-Za-z0-9-]+(?:\.[A-Za-z0-9-]+)*\.[A-Za-z]{2,}\b/gu`. -/
def email : Pattern UInt16 :=
  .seq (.boundary isWord) <| .seq (.plus (.unit isLocalPart)) <| .seq (.unit (· == 64)) <|
  .seq (.plus (.unit isHostPart)) <|
  .seq (.star (.seq (.unit (· == 46)) (.plus (.unit isHostPart)))) <|
  .seq (.unit (· == 46)) <| .seq (.unit isAlpha) <| .seq (.plus (.unit isAlpha)) (.boundary isWord)

/-! ### Checksums -/

/-- What a digit adds to the sum; every second one is doubled. -/
def luhnDigit (double : Bool) (u : UInt16) : ℕ :=
  let digit := u.toNat - 48
  if double then if 9 < 2 * digit then 2 * digit - 9 else 2 * digit else digit

/-- The loop of `passesLuhn` over the units from the last to the first. -/
def luhnLoop : JsString → Bool → ℕ → Option ℕ
  | [], _, sum => some sum
  | u :: rest, double, sum =>
    if isDigit u then luhnLoop rest (!double) (sum + luhnDigit double u) else none

/-- The Luhn checksum every card scheme's numbering plan satisfies. -/
def passesLuhn (digits : JsString) : Bool :=
  if digits.length < 13 || 19 < digits.length then false
  else (luhnLoop digits.reverse false 0).any (fun sum => sum % 10 == 0)

/-- `toUpperCase` of ASCII; every candidate for an IBAN is ASCII. -/
def toUpperUnit (u : UInt16) : UInt16 := if isLower u then u - 32 else u

/-- `/^[A-Z]{2}[0-9]{2}[A-Z0-9]+$/u`. -/
def isIbanShape (compact : JsString) : Bool :=
  (compact.take 2).length = 2 && (compact.take 2).all isUpper &&
    ((compact.drop 2).take 2).length = 2 && ((compact.drop 2).take 2).all isDigit &&
    0 < (compact.drop 4).length && (compact.drop 4).all (fun u => isUpper u || isDigit u)

/-- The remainder, reduced as the units are read: a letter is two decimal digits. -/
def ibanRemainder (rearranged : JsString) : ℕ :=
  rearranged.foldl (fun remainder u =>
    let value := if 65 ≤ u.toNat then u.toNat - 55 else u.toNat - 48
    (remainder * (if 9 < value then 100 else 10) + value) % 97) 0

/-- ISO 13616's mod-97 check. -/
def passesIbanChecksum (iban : JsString) : Bool :=
  let compact := (iban.filter (fun u => !JsString.isSpace u)).map toUpperUnit
  if compact.length < 15 || 34 < compact.length then false
  else if !isIbanShape compact then false
  else ibanRemainder (compact.drop 4 ++ compact.take 4) == 1

/-! ### The IBAN check as arithmetic -/

/-- The decimal digits a unit is replaced by: `A` is 10 and `Z` is 35. -/
def ibanDigits (u : UInt16) : List ℕ :=
  if isUpper u then [(u.toNat - 55) / 10, (u.toNat - 55) % 10] else [u.toNat - 48]

/-- The number of up to sixty digits that the remainder is taken of. -/
def ibanNumber (rearranged : JsString) : ℕ :=
  Nat.ofDigits 10 (rearranged.flatMap ibanDigits).reverse

lemma ibanRemainder_concat {u s} (hu : isUpper u || isDigit u)
    (h : ibanRemainder s = ibanNumber s % 97) :
    ibanRemainder (s ++ [u]) = ibanNumber (s ++ [u]) % 97 := by
  simp only [ibanRemainder, ibanNumber, foldl_append, flatMap_append, flatMap_cons,
    ibanDigits] at h ⊢
  rw [h]
  simp [isUpper, isDigit, UInt16.le_iff_toNat_le] at hu ⊢
  split_ifs <;> simp [Nat.ofDigits_cons] <;> omega

/-- Reducing at each unit loses nothing. -/
theorem ibanRemainder_eq {s} (h : ∀ u ∈ s, isUpper u || isDigit u) :
    ibanRemainder s = ibanNumber s % 97 := by
  induction s using reverseRecOn with
  | nil => rfl
  | append_singleton s u ih =>
    exact ibanRemainder_concat (h u (by simp)) (ih fun v hv => h v (by simp [hv]))

/-- An ASCII string passes exactly if it is, without white space and upper-cased, two letters, two
digits and 11 to 30 letters or digits, and the number they write with the first four at the end
leaves remainder 1. -/
theorem passes_iff_number_mod_97 (iban : JsString) (_hascii : ∀ u ∈ iban, u.toNat < 128) :
    passesIbanChecksum iban = true ↔ ∃ a b c d rest,
      (iban.filter (fun u => !JsString.isSpace u)).map toUpperUnit = a :: b :: c :: d :: rest ∧
      (isUpper a ∧ isUpper b) ∧ (isDigit c ∧ isDigit d) ∧
      (11 ≤ rest.length ∧ rest.length ≤ 30 ∧ ∀ u ∈ rest, isUpper u || isDigit u) ∧
      ibanNumber (rest ++ [a, b, c, d]) % 97 = 1 := by
  unfold passesIbanChecksum
  generalize (iban.filter (fun u => !JsString.isSpace u)).map toUpperUnit = compact
  match compact with
  | [] | [_] | [_, _] | [_, _, _] => simp
  | a :: b :: c :: d :: rest =>
    have hnum (hab : isUpper a ∧ isUpper b) (hcd : isDigit c ∧ isDigit d)
        (h : ∀ u ∈ rest, isUpper u || isDigit u) :
        ibanRemainder (rest ++ [a, b, c, d]) = ibanNumber (rest ++ [a, b, c, d]) % 97 := by
      apply ibanRemainder_eq
      simp only [mem_append, mem_cons]
      rintro u (hu | rfl | rfl | rfl | rfl | hu)
      · exact h u hu
      all_goals simp_all
    have hshape : isIbanShape (a :: b :: c :: d :: rest) ↔ (isUpper a ∧ isUpper b) ∧
        (isDigit c ∧ isDigit d) ∧ rest ≠ [] ∧ ∀ u ∈ rest, isUpper u || isDigit u := by
      simp [isIbanShape, length_pos_iff, and_assoc]
    constructor
    · intro hpass
      have hall : (11 ≤ rest.length ∧ rest.length < 31) ∧ isIbanShape (a :: b :: c :: d :: rest) ∧
          ibanRemainder (rest ++ [a, b, c, d]) = 1 := by simpa using hpass
      obtain ⟨⟨hmin, hmax⟩, hshap, hmod⟩ := hall
      obtain ⟨hab, hcd, -, hall⟩ := hshape.mp hshap
      rw [hnum hab hcd hall] at hmod
      exact ⟨a, b, c, d, rest, rfl, hab, hcd, ⟨hmin, by omega, hall⟩, hmod⟩
    · rintro ⟨_, _, _, _, _, ⟨⟩, hab, hcd, ⟨hmin, hmax, hall⟩, hmod⟩
      have hne : rest ≠ [] := ne_nil_of_length_pos (by omega)
      simp [hshape.mpr ⟨hab, hcd, hne, hall⟩, hnum hab hcd hall]
      omega

theorem sample_iban_passes :
    passesIbanChecksum (units "gb82 WEST 1234 5698 7654 32") = true := by
  have hascii : (units "gb82 WEST 1234 5698 7654 32").all (·.toNat < 128) = true := by
    decide +kernel
  have hrest : (units "WEST12345698765432").all (fun u => isUpper u || isDigit u) = true := by
    decide +kernel
  refine (passes_iff_number_mod_97 _ fun u hu => ?_).mpr ⟨71, 66, 56, 50,
    units "WEST12345698765432", by decide +kernel, by decide, by decide,
    ⟨by decide +kernel, by decide +kernel, List.all_eq_true.mp hrest⟩, by decide +kernel⟩
  exact of_decide_eq_true (List.all_eq_true.mp hascii u hu)

/-! ### Passes -/

/-- The callback of the first pass: the scheme is what stands before the white space. -/
def redactAuthMatch (m : JsString) : JsString :=
  m.takeWhile (fun u => !JsString.isSpace u) ++ units " " ++ redacted

/-- The longest number of leading groups, at most `count`, that check out. -/
def ibanGroups (parts : List JsString) : ℕ → Option ℕ
  | 0 => none
  | count + 1 =>
    if passesIbanChecksum ((units " ").intercalate (parts.take (count + 1))) then some (count + 1)
    else ibanGroups parts count

/-- Trailing groups are dropped until the rest is an IBAN, and handed back. -/
def redactIbanMatch (m : JsString) : JsString :=
  let parts := m.splitOn 32
  match ibanGroups parts parts.length with
  | none => m
  | some count =>
    let surplus := (units " ").intercalate (parts.drop count)
    if 0 < surplus.length then redactedIban ++ units " " ++ surplus else redactedIban

/-- `match.replace(/[ -]/gu, '')`. -/
def withoutSeparators (m : JsString) : JsString := m.filter (fun u => !isSeparator u)

def redactCardMatch (m : JsString) : JsString :=
  if passesLuhn (withoutSeparators m) then redactedCard else m

/-- Runs every detector over one string. -/
def redactText (text : JsString) : JsString :=
  let text := replaceAll authScheme redactAuthMatch text
  let text := replaceAll jwt (fun _ => redactedJwt) text
  let text := replaceAll iban redactIbanMatch text
  let text := replaceAll card redactCardMatch text
  replaceAll email (fun _ => redactedEmail) text

end BoilerplateExpress.Logging

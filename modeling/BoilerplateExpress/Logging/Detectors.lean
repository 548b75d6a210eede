import BoilerplateExpress.Logging.ValuePatterns
import BoilerplateExpress.Marking

/-!
# The detectors of `redactText`

`redactText` runs five detectors, each with a marker of its own. Every marker stands in brackets,
which no pattern knows, so each detector looks at the stretches between the markers of the earlier
ones, one by one. Of an authorization value the scheme is left, with the blank that the callback
writes behind it, and of a candidate for an account number the groups that it does not need.
-/
namespace BoilerplateExpress.Logging

open EventStream (units)
open Regex (scan)
open Marking (Detector runAll leavesAll Closed)
open List

/-! ### Classes of units -/

variable {u : UInt16}

lemma isWord_of_isAlnum (h : isAlnum u) : isWord u := by simp [isWord, h]

lemma isAlnum_of_isDigit (h : isDigit u) : isAlnum u := by simp [isAlnum, h]

lemma isWord_of_isDigit (h : isDigit u) : isWord u := isWord_of_isAlnum (isAlnum_of_isDigit h)

/-- What is of no class that holds another one is of that one neither. -/
lemma any_eq_false_of_imp {p q : UInt16 → Bool} (himp : ∀ u, q u → p u) {o : Option UInt16}
    (h : o.any p = false) : o.any q = false := by
  cases o with
  | none => rfl
  | some u =>
    cases hu : q u with
    | false => exact hu
    | true => exact absurd h (by simp [himp u hu])

lemma getLast_or {w} (h : w ≠ []) (prev : Option UInt16) :
    w.getLast?.or prev = w.getLast? := by
  rw [getLast?_eq_some_getLast h]
  rfl

/-- Units that are not of a word, or the ends of the text, stand on both sides. -/
def Delimited (pre post : JsString) : Prop :=
  pre.getLast?.any isWord = false ∧ post.head?.any isWord = false

instance (pre post : JsString) : Decidable (Delimited pre post) :=
  inferInstanceAs (Decidable (_ ∧ _))

/-! ### The five -/

def authDetector : Detector UInt16 where
  pattern := authScheme
  marker := redacted
  split m := some (m.takeWhile (fun u => !JsString.isSpace u) ++ units " ", [])

def jwtDetector : Detector UInt16 where
  pattern := jwt
  marker := redactedJwt
  split _ := some ([], [])

/-- What is left of a candidate behind the groups that check out. -/
def ibanSplit (m : JsString) : Option (JsString × JsString) :=
  (ibanGroups (m.splitOn 32) (m.splitOn 32).length).map fun count =>
    let surplus := (units " ").intercalate ((m.splitOn 32).drop count)
    ([], if 0 < surplus.length then units " " ++ surplus else [])

def ibanDetector : Detector UInt16 where
  pattern := iban
  marker := redactedIban
  split := ibanSplit

def cardDetector : Detector UInt16 where
  pattern := card
  marker := redactedCard
  split m := if passesLuhn (withoutSeparators m) then some ([], []) else none

def emailDetector : Detector UInt16 where
  pattern := email
  marker := redactedEmail
  split _ := some ([], [])

def detectors : List (Detector UInt16) :=
  [authDetector, jwtDetector, ibanDetector, cardDetector, emailDetector]

/-- The callbacks of the passes are those of the detectors. -/
theorem redactText_eq_runAll (text : JsString) : redactText text = runAll detectors text := by
  have hauth : authDetector.replace = redactAuthMatch := by
    funext m
    simp [Detector.replace, authDetector, redactAuthMatch]
  have hjwt : jwtDetector.replace = fun _ => redactedJwt := by
    funext m
    simp [Detector.replace, jwtDetector]
  have hiban : ibanDetector.replace = redactIbanMatch := by
    funext m
    simp only [Detector.replace, ibanDetector, ibanSplit, redactIbanMatch]
    cases ibanGroups (m.splitOn 32) (m.splitOn 32).length with
    | none => rfl
    | some count =>
      simp only [Option.map_some, nil_append]
      split_ifs
      · rw [append_assoc]
      · rw [append_nil]
  have hcard : cardDetector.replace = redactCardMatch := by
    funext m
    simp only [Detector.replace, cardDetector, redactCardMatch]
    split_ifs <;> simp
  have hemail : emailDetector.replace = fun _ => redactedEmail := by
    funext m
    simp [Detector.replace, emailDetector]
  simp only [redactText, runAll, detectors, foldl_cons, foldl_nil, Detector.run, hauth, hjwt, hiban,
    hcard, hemail]
  rfl

lemma detectors_closed : Closed 91 93 detectors := by
  have hall : (detectors.all fun d => detectors.all fun d' =>
      d.marker == 91 :: (d.marker.tail.dropLast ++ [93]) && !d'.pattern.sees 91 &&
        !d'.pattern.sees 93 && scan d'.pattern d.marker.tail.dropLast ==
          d.marker.tail.dropLast.map .skip) = true := by decide +kernel
  intro d hd d' hd'
  have h := all_eq_true.mp (all_eq_true.mp hall d hd) d' hd'
  simp only [Bool.and_eq_true, beq_iff_eq, Bool.not_eq_true'] at h
  exact ⟨_, h.1.1.1, h.1.1.2, h.1.2, h.2⟩

/-! ### Copies of a number -/

/-- No bracket and a digit among the units. -/
structure Legible (N : JsString) : Prop where
  plain : 91 ∉ N ∧ 93 ∉ N
  digit : ∃ u ∈ N, isDigit u = true

variable {N : JsString}

/-- A number is printed exactly if the detectors leave a stretch that holds it. -/
theorem infix_redactText_iff (hN : Legible N) (text : JsString) :
    N <:+: redactText text ↔ ∃ s ∈ leavesAll detectors text, N <:+: s := by
  rw [redactText_eq_runAll]
  refine Marking.runAll_exists_iff detectors_closed ?_ text
  intro d hd ss hss
  have hdigits : (detectors.all fun d => !d.marker.any isDigit) = true := by decide +kernel
  obtain ⟨inner, hmark, -⟩ := detectors_closed d hd d hd
  obtain ⟨u, hu, hdigit⟩ := hN.digit
  rw [hmark]
  refine Marking.infix_intercalate (ne_nil_of_mem hu) hN.plain.1 hN.plain.2 ?_ hss
  intro hin
  have hnone := all_eq_true.mp hdigits d hd
  rw [hmark, Bool.not_eq_true', any_eq_false] at hnone
  exact hnone u (by simp [hin.subset hu]) hdigit

/-- The same, detector by detector. -/
lemma infix_redactText_split {ds ds'} {d}
    (hds : detectors = ds ++ d :: ds') (hN : Legible N) (text : JsString) :
    N <:+: redactText text ↔
      ∃ u ∈ leavesAll ds text, ∃ s ∈ d.leaves u, ∃ e ∈ leavesAll ds' s, N <:+: e := by
  rw [infix_redactText_iff hN, hds, Marking.leavesAll_append]
  simp only [mem_flatMap, leavesAll]
  constructor
  · rintro ⟨e, ⟨u, hu, s, hs, he⟩, hin⟩
    exact ⟨u, hu, s, hs, e, he, hin⟩
  · rintro ⟨u, hu, s, hs, e, he, hin⟩
    exact ⟨e, ⟨u, hu, s, hs, he⟩, hin⟩

lemma cardDetector_cuts : cardDetector.Cuts := by
  intro m front back h
  simp only [cardDetector] at h
  split_ifs at h
  cases h
  exact ⟨m, by simp⟩

lemma emailDetector_cuts : emailDetector.Cuts := by
  rintro m front back ⟨⟩
  exact ⟨m, by simp⟩

end BoilerplateExpress.Logging

import BoilerplateExpress.Logging.CardPattern

/-!
# Card numbers in a redacted text

The card detector matches greedily and asks for the checksum of the longest match only. Every
delimited number shares digits with a match, and one that stands alone is a match of its own and
is replaced. One that has a further digit behind a single separator may be matched together with
it; the longer run fails the checksum as a rule, and the number is printed.
-/
namespace BoilerplateExpress.Logging

open EventStream (units)
open Regex (Meets)
open Marking (leavesAll)
open List

/-- A Luhn-valid number of 13 to 19 digits; `passesLuhn` checks the length too. -/
structure CardNumber (N : JsString) : Prop where
  spaced : isSpaced N = true
  luhn : passesLuhn (withoutSeparators N) = true

lemma length_of_luhn {digits} (h : passesLuhn digits) :
    13 ≤ digits.length ∧ digits.length ≤ 19 := by
  unfold passesLuhn at h
  split at h
  · cases h
  · rename_i hlen
    simp only [Bool.or_eq_true, decide_eq_true_eq, not_or, not_lt] at hlen
    exact hlen

lemma card_hides_iff (text pre N : JsString) : cardDetector.Hides text pre N ↔
    ∃ m, Meets card text pre N m ∧ passesLuhn (withoutSeparators m) = true := by
  constructor
  · rintro ⟨ps, m, qs, front, back, hscan, hsplit, hstart, hend⟩
    simp only [cardDetector] at hsplit
    split_ifs at hsplit with hluhn
    cases hsplit
    exact ⟨m, ⟨ps, qs, hscan, by simpa using hstart, by simpa using hend⟩, hluhn⟩
  · rintro ⟨m, ⟨ps, qs, hscan, hstart, hend⟩, hluhn⟩
    exact ⟨ps, m, qs, [], [], hscan, if_pos hluhn, by simpa using hstart, by simpa using hend⟩

/-- A number is not in the output exactly if, in what the card detector leaves of the stretches it
is given, an address hides a part of each copy. The card detector leaves a number exactly if some
copy shares a unit only with matches that fail the checksum. A delimited copy shares units with a
match at least, and an isolated one is a match. -/
theorem card_number_removed_iff (N : JsString) (hN : CardNumber N) (text : JsString) :
    (¬ N <:+: redactText text ↔
      ∀ u ∈ leavesAll [authDetector, jwtDetector, ibanDetector] text, ∀ s ∈ cardDetector.leaves u,
        ∀ pre post, s = pre ++ N ++ post → emailDetector.Hides s pre N) ∧
    ∀ u : JsString,
      ((∃ s ∈ cardDetector.leaves u, N <:+: s) ↔ ∃ pre post, u = pre ++ N ++ post ∧
        ∀ m, Meets card u pre N m → passesLuhn (withoutSeparators m) = false) ∧
      ∀ pre post, u = pre ++ N ++ post → Delimited pre post →
        (∃ m, Meets card u pre N m) ∧ (Isolated pre post → Meets card u pre N N) := by
  obtain ⟨hleast, hmost⟩ := length_of_luhn hN.luhn
  refine ⟨?_, fun u => ⟨?_, ?_⟩⟩
  · have hlast (s : JsString) : leavesAll [emailDetector] s = emailDetector.leaves s := by
      simp [leavesAll]
    have hds : detectors =
        [authDetector, jwtDetector, ibanDetector] ++ cardDetector :: [emailDetector] := rfl
    rw [infix_redactText_split hds (isSpaced_legible hN.spaced)]
    simp only [hlast, Marking.infix_leaves_iff emailDetector_cuts]
    push Not
    rfl
  · rw [Marking.infix_leaves_iff cardDetector_cuts]
    simp only [card_hides_iff, not_exists, not_and, Bool.not_eq_true]
  · rintro pre post rfl hdelim
    exact ⟨card_meets hN.spaced hleast hmost hdelim,
      card_meets_isolated hN.spaced hleast hmost hdelim⟩

lemma cardNumber_sample : CardNumber (units "4111 1111 1111 1111") :=
  ⟨by decide +kernel, by decide +kernel⟩

/-- The year behind the number is not taken along, since the match may not end inside it. -/
theorem card_number_removed_before_year :
    CardNumber (units "4111 1111 1111 1111") ∧
      ¬ units "4111 1111 1111 1111" <:+: redactText (units "card 4111 1111 1111 1111 2027") := by
  refine ⟨cardNumber_sample, ?_⟩
  have hleft : ((leavesAll [authDetector, jwtDetector, ibanDetector]
      (units "card 4111 1111 1111 1111 2027")).all fun u =>
        (cardDetector.leaves u).all fun s => s.length < (units "4111 1111 1111 1111").length) =
      true := by decide +kernel
  refine (card_number_removed_iff _ cardNumber_sample _).1.mpr ?_
  rintro u hu s hs pre post rfl
  have hshort := of_decide_eq_true (all_eq_true.mp (all_eq_true.mp hleft u hu) _ hs)
  simp only [length_append] at hshort
  omega

/-- A number is printed when an expiry date follows it: the match takes the month along. -/
theorem card_number_before_expiry_printed :
    CardNumber (units "4111 1111 1111 1111") ∧ Delimited [] (units " 12/27") ∧
      units "4111 1111 1111 1111" <:+:
        redactText ([] ++ units "4111 1111 1111 1111" ++ units " 12/27") := by
  have hsame : redactText ([] ++ units "4111 1111 1111 1111" ++ units " 12/27") =
      [] ++ units "4111 1111 1111 1111" ++ units " 12/27" := by decide +kernel
  exact ⟨cardNumber_sample, by decide +kernel, [], units " 12/27", hsame.symm⟩

end BoilerplateExpress.Logging

import BoilerplateExpress.Logging.AccountCandidates

/-!
# Account numbers in a redacted text

An account number without blanks is a first word of its own and is replaced. One in groups of
four is replaced unless the match of a word before it takes its groups along: what that match does
not need is handed to the later passes, not to the detector again, and the account number is
printed.
-/
namespace BoilerplateExpress.Logging

open EventStream (units)
open Regex (Meets)
open Marking (leavesAll)
open List

section

variable {N pre post : JsString} (hN : Iban N) (hcap : capitalCountry N)
  (hdelim : Delimited pre post)
include hN hcap hdelim

lemma iban_number_meets : ∃ m, Meets iban (pre ++ N ++ post) pre N m := by
  obtain ⟨w, gs, h⟩ := written_of_iban hN
  obtain ⟨_, _, _, _, _, -, -, hhead⟩ := written_head hN h
  obtain ⟨m, ps, qs, hscan, hstart, hend⟩ :=
    iban_meets (hhead hcap) hdelim.1 (head_of_groups hdelim.2)
  have heq : pre ++ N ++ post = pre ++ w ++ (gs.flatMap (32 :: ·) ++ post) := by
    rw [h.eq_run, run]
    simp
  refine ⟨m, ps, qs, by rw [heq, hscan], ?_, hend⟩
  rw [h.eq_run, run]
  simp only [length_append] at hstart ⊢
  omega

lemma iban_number_hidden (hfree : 32 ∈ N → ¬ Headed pre) :
    ibanDetector.Hides (pre ++ N ++ post) pre N := by
  obtain ⟨w, gs, h⟩ := written_of_iban hN
  obtain ⟨_, _, _, _, _, -, -, hhead⟩ := written_head hN h
  have hgroup : isGroup w → ¬ Headed pre := by
    intro hgroup
    refine hfree ((written_blank h).mpr ?_)
    intro hnil
    have hlen := h.compact hnil
    simp only [isGroup, Bool.and_eq_true, decide_eq_true_eq] at hgroup
    omega
  have heq : pre ++ N ++ post = pre ++ w ++ (gs.flatMap (32 :: ·) ++ post) := by
    rw [h.eq_run, run]
    simp
  obtain ⟨ps, qs, hscan, hps⟩ := hit_of_head (hhead hcap) hdelim.1 (head_of_groups hdelim.2) hgroup
  rw [← heq] at hscan
  have hpass := hN.checksum
  rw [h.eq_run, prefix_iff_eq_take.mp (groupsAhead_append h.groups hdelim.2 h.length)] at hpass
  obtain ⟨⟨front, back⟩, hsplit⟩ :=
    ibanSplit_isSome (isAlnums_of_isHead (hhead hcap)) (groupsAhead_groups 8 _) hpass
  obtain ⟨rfl, old, hold, hcut⟩ := ibanSplit_cut hsplit
  have hlong := length_pos_iff.mpr hold
  have hword := length_pos_iff.mpr h.word.ne_nil
  refine ⟨ps, _, qs, [], back, hscan, hsplit, ?_, ?_⟩
  · rw [hps, h.eq_run, run]
    simp only [length_append, length_nil]
    omega
  · rw [hps, hcut]
    simp only [length_append]
    omega

end

/-- An account number is not in the output exactly if no copy of it is left by the detectors, one
after the other. The detector of account numbers leaves it exactly if some copy shares no unit with
the start of a match that checks out. A delimited copy with its country code in capitals shares
units with a match at least, and is hidden if it has no blanks or stands behind no first word. -/
theorem iban_removed_iff (N : JsString) (hN : Iban N) (text : JsString) :
    (¬ N <:+: redactText text ↔
      ∀ u ∈ leavesAll [authDetector, jwtDetector] text, ∀ s ∈ ibanDetector.leaves u,
        ∀ e ∈ leavesAll [cardDetector, emailDetector] s, ¬ N <:+: e) ∧
    ∀ u : JsString,
      ((∃ s ∈ ibanDetector.leaves u, N <:+: s) ↔
        ∃ pre post, u = pre ++ N ++ post ∧ ¬ ibanDetector.Hides u pre N) ∧
      ∀ pre post, u = pre ++ N ++ post → Delimited pre post → capitalCountry N = true →
        (∃ m, Meets iban u pre N m) ∧
          ((32 ∈ N → ¬ Headed pre) → ibanDetector.Hides u pre N) := by
  refine ⟨?_, fun u => ⟨Marking.infix_leaves_iff ibanDetector_cuts u, ?_⟩⟩
  · have hds : detectors =
        [authDetector, jwtDetector] ++ ibanDetector :: [cardDetector, emailDetector] := rfl
    rw [infix_redactText_split hds (legible_of_iban hN)]
    push Not
    rfl
  · rintro pre post rfl hdelim hcap
    exact ⟨iban_number_meets hN hcap hdelim, iban_number_hidden hN hcap hdelim⟩

lemma iban_sample : Iban (units "GB82 WEST 1234 5698 7654 32") := by
  have hall : ((units "GB82 WEST 1234 5698 7654 32").splitOn 32).all (·.all isAlnum) := by
    decide +kernel
  refine ⟨?_, by decide +kernel, by decide +kernel⟩
  exact fun g hg => all_eq_true.mp (all_eq_true.mp hall g hg)

/-- The word before the number looks like a first word, but the credential takes it away. -/
theorem iban_removed_behind_credential :
    Iban (units "GB82 WEST 1234 5698 7654 32") ∧
      ¬ units "GB82 WEST 1234 5698 7654 32" <:+:
        redactText (units "Bearer AB12 GB82 WEST 1234 5698 7654 32") := by
  refine ⟨iban_sample, ?_⟩
  have hleft : ((leavesAll [authDetector, jwtDetector]
      (units "Bearer AB12 GB82 WEST 1234 5698 7654 32")).all fun u =>
        (ibanDetector.leaves u).all fun s => (leavesAll [cardDetector, emailDetector] s).all fun e =>
          e.length < (units "GB82 WEST 1234 5698 7654 32").length) = true := by decide +kernel
  refine (iban_removed_iff _ iban_sample _).1.mpr ?_
  intro u hu s hs e he hin
  have hshort := of_decide_eq_true (all_eq_true.mp (all_eq_true.mp (all_eq_true.mp hleft u hu) s hs)
    e he)
  exact absurd hin.length_le (by omega)

/-- Of two account numbers in groups, one behind the other, the second is printed. -/
theorem second_iban_printed :
    Iban (units "GB82 WEST 1234 5698 7654 32") ∧
      capitalCountry (units "GB82 WEST 1234 5698 7654 32") = true ∧
      Delimited (units "DE89 3704 0044 0532 0130 00 ") [] ∧
      units "GB82 WEST 1234 5698 7654 32" <:+:
        redactText (units "DE89 3704 0044 0532 0130 00 " ++
          units "GB82 WEST 1234 5698 7654 32" ++ []) := by
  refine ⟨iban_sample, by decide +kernel, by decide +kernel, units "[redacted:iban] ", [], ?_⟩
  decide +kernel

end BoilerplateExpress.Logging

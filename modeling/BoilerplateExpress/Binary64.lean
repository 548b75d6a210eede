import Mathlib.Data.Int.Log
import Mathlib.Tactic

/-!
# Rounding to binary64

A floating-point operation returns its exact result rounded to 53 significant
bits, ties to even. The exponent range is left out: no number below is large or
small enough to overflow or to be subnormal.
-/
namespace BoilerplateExpress.Binary64

/-- The nearest integer, and of two equally near ones the even one. -/
def roundHalfEven (q : ℚ) : ℤ :=
  let rest := q - ⌊q⌋
  if rest < 1 / 2 then ⌊q⌋
  else if 1 / 2 < rest then ⌊q⌋ + 1
  else if ⌊q⌋ % 2 = 0 then ⌊q⌋ else ⌊q⌋ + 1

/-- The exponent of the last of the 53 bits. -/
def lastPlace (q : ℚ) : ℤ := Int.log 2 |q| - 52

def round (q : ℚ) : ℚ :=
  if q = 0 then 0 else (roundHalfEven (q / 2 ^ lastPlace q) : ℚ) * 2 ^ lastPlace q

lemma roundHalfEven_intCast (n : ℤ) : roundHalfEven n = n := by simp [roundHalfEven]

lemma roundHalfEven_nonneg {q} (h : 0 ≤ q) : 0 ≤ roundHalfEven q := by
  have hfloor : 0 ≤ ⌊q⌋ := Int.floor_nonneg.mpr h
  unfold roundHalfEven
  dsimp only
  split_ifs <;> omega

lemma round_nonneg {q} (h : 0 ≤ q) : 0 ≤ round q := by
  unfold round
  split_ifs with hq
  · exact le_rfl
  · have hscal : 0 ≤ q / 2 ^ lastPlace q := by positivity
    have hint : (0 : ℚ) ≤ roundHalfEven (q / 2 ^ lastPlace q) := by
      exact_mod_cast roundHalfEven_nonneg hscal
    positivity

@[simp] lemma round_zero : round 0 = 0 := by simp [round]

lemma roundHalfEven_mono {p q} (h : p ≤ q) : roundHalfEven p ≤ roundHalfEven q := by
  have hfloor : ⌊p⌋ ≤ ⌊q⌋ := Int.floor_le_floor h
  have hboun (r : ℚ) : ⌊r⌋ ≤ roundHalfEven r ∧ roundHalfEven r ≤ ⌊r⌋ + 1 := by
    unfold roundHalfEven
    dsimp only
    split_ifs <;> omega
  rcases hfloor.lt_or_eq with hlt | heq
  · have hp := (hboun p).2
    have hq := (hboun q).1
    omega
  · -- in one unit the larger number has the larger rest
    unfold roundHalfEven
    dsimp only
    rw [heq]
    split_ifs <;> first | omega | (exfalso; linarith)

lemma round_range {q} (hq : 0 < q) :
    (2 : ℚ) ^ Int.log 2 q ≤ round q ∧ round q ≤ (2 : ℚ) ^ (Int.log 2 q + 1) := by
  have hunit : (0 : ℚ) < 2 ^ lastPlace q := by positivity
  have hleast : ((2 ^ 52 : ℤ) : ℚ) * 2 ^ lastPlace q = 2 ^ Int.log 2 q := by
    rw [lastPlace, abs_of_pos hq, zpow_sub₀ two_ne_zero]
    ring
  have hmost : ((2 ^ 53 : ℤ) : ℚ) * 2 ^ lastPlace q = 2 ^ (Int.log 2 q + 1) := by
    rw [zpow_add_one₀ two_ne_zero, ← hleast]
    ring
  have hlow : ((2 ^ 52 : ℤ) : ℚ) ≤ q / 2 ^ lastPlace q := by
    rw [le_div_iff₀ hunit, hleast]
    exact Int.zpow_log_le_self one_lt_two hq
  have hhigh : q / 2 ^ lastPlace q ≤ ((2 ^ 53 : ℤ) : ℚ) := by
    rw [div_le_iff₀ hunit, hmost]
    exact (Int.lt_zpow_succ_log_self one_lt_two q).le
  have hround_low := roundHalfEven_mono hlow
  have hround_high := roundHalfEven_mono hhigh
  rw [roundHalfEven_intCast] at hround_low hround_high
  rw [round, if_neg hq.ne', ← hleast, ← hmost]
  constructor <;> gcongr

lemma round_mono {p q} (hp : 0 ≤ p) (h : p ≤ q) : round p ≤ round q := by
  rcases hp.eq_or_lt with rfl | hpos
  · rw [round_zero]
    exact round_nonneg h
  have hq : 0 < q := hpos.trans_le h
  rcases (Int.log_mono_right hpos h : Int.log 2 p ≤ Int.log 2 q).lt_or_eq with hlt | heq
  · calc round p ≤ (2 : ℚ) ^ (Int.log 2 p + 1) := (round_range hpos).2
      _ ≤ 2 ^ Int.log 2 q := zpow_le_zpow_right₀ one_le_two hlt
      _ ≤ round q := (round_range hq).1
  · have hplace : lastPlace p = lastPlace q := by
      rw [lastPlace, lastPlace, abs_of_pos hpos, abs_of_pos hq, heq]
    rw [round, round, if_neg hpos.ne', if_neg hq.ne', hplace]
    have hscal : p / 2 ^ lastPlace q ≤ q / 2 ^ lastPlace q := by gcongr
    have hint : (roundHalfEven (p / 2 ^ lastPlace q) : ℚ) ≤
        roundHalfEven (q / 2 ^ lastPlace q) := by exact_mod_cast roundHalfEven_mono hscal
    gcongr

end BoilerplateExpress.Binary64

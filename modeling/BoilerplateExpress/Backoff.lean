import Mathlib.Tactic

/-!
# Backoff with full jitter

`fullJitterDelay` of `lib/backoff.ts`, with exact numbers. The random draw is an argument.
-/
namespace BoilerplateExpress

/-- What `Math.random` returns. -/
abbrev Draw := { q : ℚ // 0 ≤ q ∧ q < 1 }

def Draw.zero : Draw := ⟨0, by norm_num⟩

/-- `attempt` counts from one. -/
def fullJitterDelay (attempt : ℕ) (baseMs maxMs : ℚ) (random : Draw) : ℤ :=
  ⌊random.1 * min maxMs (baseMs * 2 ^ (attempt - 1))⌋

/-- A step is never negative and never above its ceiling. -/
theorem fullJitterDelay_bounds {baseMs maxMs} (attempt) (random) (hbase : 0 ≤ baseMs)
    (hmax : 0 ≤ maxMs) :
    0 ≤ fullJitterDelay attempt baseMs maxMs random ∧
      (fullJitterDelay attempt baseMs maxMs random : ℚ) ≤ maxMs := by
  have hcap : 0 ≤ min maxMs (baseMs * 2 ^ (attempt - 1)) := le_min hmax (by positivity)
  constructor
  · exact Int.floor_nonneg.mpr (mul_nonneg random.2.1 hcap)
  · calc (fullJitterDelay attempt baseMs maxMs random : ℚ)
        ≤ random.1 * min maxMs (baseMs * 2 ^ (attempt - 1)) := Int.floor_le _
      _ ≤ 1 * min maxMs (baseMs * 2 ^ (attempt - 1)) :=
          mul_le_mul_of_nonneg_right random.2.2.le hcap
      _ ≤ maxMs := by rw [one_mul]; exact min_le_left _ _

end BoilerplateExpress

import Mathlib
import BoilerplateExpress.Errors

/-!
# Token buckets

`createTokenBucket` of `ws/token-bucket.ts`, with exact numbers. The refill is lazy:
every operation reads the clock once and credits the elapsed time first. A bucket
carries its bounds, so no operation can leave it overdrawn or above its capacity.
-/
namespace BoilerplateExpress.Ws

open List

structure TokenBucket where
  capacity : ℚ
  refillPerSecond : ℚ
  tokens : ℚ
  lastRefillMs : ℚ
  refill_pos : 0 < refillPerSecond
  nonneg : 0 ≤ tokens
  le_capacity : tokens ≤ capacity

namespace TokenBucket

def create (capacity refillPerSecond nowMs : ℚ) : Except RangeError TokenBucket :=
  if hcapacity : 0 < capacity then
    if hrefill : 0 < refillPerSecond then
      .ok ⟨capacity, refillPerSecond, capacity, nowMs, hrefill, le_of_lt hcapacity, le_refl _⟩
    else .error
      ⟨"createTokenBucket: refillPerSecond must be a positive number, received ", refillPerSecond⟩
  else .error ⟨"createTokenBucket: capacity must be a positive number, received ", capacity⟩

def refill (b : TokenBucket) (nowMs : ℚ) : TokenBucket :=
  if h : nowMs - b.lastRefillMs ≤ 0 then { b with lastRefillMs := nowMs }
  else
    { b with
      tokens := min b.capacity (b.tokens + (nowMs - b.lastRefillMs) / 1000 * b.refillPerSecond)
      lastRefillMs := nowMs
      nonneg := by
        have hrefill := b.refill_pos
        have hnonneg := b.nonneg
        have hcapacity := b.le_capacity
        rw [not_le] at h
        apply le_min
        · linarith
        · positivity
      le_capacity := min_le_left _ _ }

/-- Spends `cost` tokens if the bucket has them; a refusal spends nothing. -/
def tryRemove (b : TokenBucket) (cost nowMs : ℚ) : Except RangeError (Bool × TokenBucket) :=
  if hcost : cost ≤ 0 then
    .error ⟨"TokenBucket.tryRemove: cost must be positive, received ", cost⟩
  else
    let refilled := b.refill nowMs
    if h : cost > refilled.tokens then .ok (false, refilled)
    else
      .ok (true,
        { refilled with
          tokens := refilled.tokens - cost
          nonneg := by linarith
          le_capacity := by linarith [refilled.le_capacity] })

/-- Whole seconds until `cost` tokens are there, rounded up. -/
def retryAfterSeconds (b : TokenBucket) (cost nowMs : ℚ) : ℤ × TokenBucket :=
  let refilled := b.refill nowMs
  if cost ≤ refilled.tokens then (0, refilled)
  else (⌈(cost - refilled.tokens) / refilled.refillPerSecond⌉, refilled)

/-- `tryRemove` throws exactly on a cost that is not positive. -/
theorem tryRemove_ok_iff (b : TokenBucket) (cost nowMs) :
    (∃ r, b.tryRemove cost nowMs = .ok r) ↔ 0 < cost := by
  unfold tryRemove
  by_cases hcost : cost ≤ 0
  · simp [hcost]
  · simp only
    have hpos : 0 < cost := not_le.mp hcost
    split_ifs <;> simp [hpos]

/-- A positive cost is granted exactly when the refilled bucket holds it. -/
theorem tryRemove_granted_iff {cost} (b : TokenBucket) (nowMs) (hcost : 0 < cost) :
    (∃ b', b.tryRemove cost nowMs = .ok (true, b')) ↔ cost ≤ (b.refill nowMs).tokens := by
  unfold tryRemove
  simp only [not_le.mpr hcost]
  by_cases hgrant : cost > (b.refill nowMs).tokens
  · simp [hgrant]
  · simp [hgrant, not_lt.mp hgrant]

/-! ### Histories of calls -/

/-- A call on a bucket. A `tryRemove` whose cost is not positive throws before it reads the
clock, so it is left out. -/
inductive Call where
  | tryRemove (cost : {cost : ℚ // 0 < cost}) (nowMs : ℚ)
  | available (nowMs : ℚ)
  | retryAfterSeconds (cost nowMs : ℚ)

def Call.nowMs : Call → ℚ
  | .tryRemove _ nowMs => nowMs
  | .available nowMs => nowMs
  | .retryAfterSeconds _ nowMs => nowMs

/-- The cost a call is granted, and the bucket after it. -/
def call (b : TokenBucket) : Call → ℚ × TokenBucket
  | .tryRemove cost nowMs =>
    match b.tryRemove cost nowMs with
    | .ok (granted, b') => (if granted then cost else 0, b')
    | .error _ => (0, b)
  | .available nowMs => (0, b.refill nowMs)
  | .retryAfterSeconds cost nowMs => (0, (b.retryAfterSeconds cost nowMs).2)

def after (b : TokenBucket) (calls : List Call) : TokenBucket :=
  calls.foldl (fun b c => (b.call c).2) b

/-- The total cost that a list of calls is granted. -/
def admitted : TokenBucket → List Call → ℚ
  | _, [] => 0
  | b, c :: calls => (b.call c).1 + (b.call c).2.admitted calls

/-- The total number of tokens that the refills of a list of calls add. -/
def credited : TokenBucket → List Call → ℚ
  | _, [] => 0
  | b, c :: calls => ((b.refill c.nowMs).tokens - b.tokens) + (b.call c).2.credited calls

variable {b : TokenBucket} {nowMs : ℚ}

lemma create_spec {rate start} {capacity} (h : create capacity rate start = .ok b) :
    b.capacity = capacity ∧ b.refillPerSecond = rate ∧ b.tokens = capacity ∧
      b.lastRefillMs = start := by
  unfold create at h
  split_ifs at h
  cases h
  exact ⟨rfl, rfl, rfl, rfl⟩

lemma refill_fields (b : TokenBucket) (nowMs) : (b.refill nowMs).lastRefillMs = nowMs ∧
    (b.refill nowMs).capacity = b.capacity ∧
    (b.refill nowMs).refillPerSecond = b.refillPerSecond := by
  unfold refill
  split_ifs <;> exact ⟨rfl, rfl, rfl⟩

/-- What a bucket holds at a later time if nothing is spent. -/
def level (b : TokenBucket) (nowMs : ℚ) : ℚ :=
  min b.capacity (b.tokens + (nowMs - b.lastRefillMs) / 1000 * b.refillPerSecond)

lemma refill_tokens (h : b.lastRefillMs ≤ nowMs) : (b.refill nowMs).tokens = b.level nowMs := by
  unfold refill level
  split_ifs with helapsed
  · have hzero : nowMs - b.lastRefillMs = 0 := le_antisymm helapsed (sub_nonneg.mpr h)
    rw [hzero, zero_div, zero_mul, add_zero, min_eq_right b.le_capacity]
  · rfl

lemma tokens_le_refill (b : TokenBucket) (nowMs) : b.tokens ≤ (b.refill nowMs).tokens := by
  have hrate := b.refill_pos
  unfold refill
  split_ifs with helap
  · exact le_rfl
  · have hcred : 0 < (nowMs - b.lastRefillMs) / 1000 * b.refillPerSecond := by
      rw [not_le] at helap
      positivity
    exact le_min b.le_capacity (by linarith)

lemma retryAfterSeconds_snd (b : TokenBucket) (cost nowMs) :
    (b.retryAfterSeconds cost nowMs).2 = b.refill nowMs := by
  unfold retryAfterSeconds
  dsimp only
  split_ifs <;> rfl

lemma call_spec (b : TokenBucket) (c) : 0 ≤ (b.call c).1 ∧
    (b.call c).2.tokens = (b.refill c.nowMs).tokens - (b.call c).1 ∧
    (b.call c).2.lastRefillMs = c.nowMs ∧ (b.call c).2.capacity = b.capacity ∧
    (b.call c).2.refillPerSecond = b.refillPerSecond := by
  have hfs := refill_fields b c.nowMs
  cases c with
  | tryRemove cost nowMs =>
    have hcost : ¬ cost.1 ≤ 0 := not_le.mpr cost.2
    simp only [call, tryRemove]
    split_ifs
    · exact ⟨le_rfl, (sub_zero _).symm, hfs⟩
    · exact ⟨cost.2.le, rfl, hfs⟩
  | available nowMs => exact ⟨le_rfl, (sub_zero _).symm, hfs⟩
  | retryAfterSeconds cost nowMs =>
    simp only [call, retryAfterSeconds_snd]
    exact ⟨le_rfl, (sub_zero _).symm, hfs⟩

lemma admitted_nonneg (b : TokenBucket) (calls) : 0 ≤ b.admitted calls := by
  induction calls generalizing b with
  | nil => exact le_rfl
  | cons c calls ih => exact add_nonneg (call_spec b c).1 (ih _)

lemma tokens_after (b : TokenBucket) (calls) :
    (b.after calls).tokens = b.tokens + b.credited calls - b.admitted calls := by
  induction calls generalizing b with
  | nil => simp [after, credited, admitted]
  | cons c calls ih =>
    have haft : b.after (c :: calls) = (b.call c).2.after calls := rfl
    rw [haft, ih, (call_spec b c).2.1, credited, admitted]
    ring

lemma after_fields (b : TokenBucket) (calls) :
    (b.after calls).capacity = b.capacity ∧
      (b.after calls).refillPerSecond = b.refillPerSecond := by
  induction calls generalizing b with
  | nil => exact ⟨rfl, rfl⟩
  | cons c calls ih =>
    obtain ⟨-, -, -, hcap, hrate⟩ := call_spec b c
    exact ⟨(ih _).1.trans hcap, (ih _).2.trans hrate⟩

/-- Along a clock that does not step back, the refills add at most the rate times the time. -/
lemma credited_le (calls top) (hclk : (b.lastRefillMs :: calls.map (·.nowMs)).Pairwise (· ≤ ·))
    (htop : ∀ reading ∈ b.lastRefillMs :: calls.map (·.nowMs), reading ≤ top) :
    b.credited calls ≤ (top - b.lastRefillMs) / 1000 * b.refillPerSecond := by
  have hrate := b.refill_pos
  induction calls generalizing b with
  | nil =>
    have hlast := htop b.lastRefillMs mem_cons_self
    have : 0 ≤ top - b.lastRefillMs := sub_nonneg.mpr hlast
    exact mul_nonneg (by positivity) hrate.le
  | cons c calls ih =>
    rw [map_cons, pairwise_cons] at hclk
    obtain ⟨-, -, hlast, -, hsame⟩ := call_spec b c
    have hrest := ih (b := (b.call c).2) (by rw [hlast]; exact hclk.2)
      (by rw [hlast]; exact fun reading hr => htop reading (mem_cons_of_mem _ hr))
      (by rw [hsame]; exact hrate)
    have hcred : (b.refill c.nowMs).tokens ≤
        b.tokens + (c.nowMs - b.lastRefillMs) / 1000 * b.refillPerSecond := by
      rw [refill_tokens (hclk.1 c.nowMs mem_cons_self)]
      exact min_le_right _ _
    rw [hlast, hsame] at hrest
    rw [credited]
    linarith

/-- No interval is credited twice as long as the clock does not step back. -/
theorem credited_once_when_clock_monotone {capacity rate start : ℚ}
    (hb : create capacity rate start = .ok b) (calls : List Call)
    (hclock : (start :: calls.map (·.nowMs)).Pairwise (· ≤ ·)) (top : ℚ)
    (htop : ∀ reading ∈ start :: calls.map (·.nowMs), reading ≤ top) :
    b.credited calls ≤ rate * ((top - start) / 1000) := by
  obtain ⟨-, rfl, -, rfl⟩ := create_spec hb
  rw [mul_comm]
  exact credited_le calls top hclock htop

/-- Ten tokens are taken, and credited again within ten seconds. -/
theorem credited_once_ten_seconds :
    ∃ b, create 10 1 0 = .ok b ∧
      b.credited [.tryRemove ⟨10, by norm_num⟩ 0, .available 10000] ≤ 1 * ((10000 - 0) / 1000) := by
  refine ⟨_, rfl, ?_⟩
  have hcreate : create 10 1 0 = .ok _ := rfl
  exact credited_once_when_clock_monotone hcreate _ (by simp [Call.nowMs]) 10000
    (by simp [Call.nowMs])

/-- The clock steps back by ten seconds, and the ten seconds are credited a second time. -/
theorem interval_credited_twice :
    ∃ b, create 10 1 0 = .ok b ∧
      b.credited [.tryRemove ⟨10, by norm_num⟩ 0, .tryRemove ⟨10, by norm_num⟩ 10000,
        .available 0, .available 10000] = 20 ∧ ¬ (20 : ℚ) ≤ 1 * ((10000 - 0) / 1000) := by
  refine ⟨_, rfl, ?_, by norm_num⟩
  decide +kernel

/-! ### Admitted traffic -/

/-- Calls within a window of `t` seconds are granted at most the capacity and what the window
adds. -/
lemma admitted_le {t calls u} (ht : 0 ≤ t) (hclk : (calls.map (·.nowMs)).Pairwise (· ≤ ·))
    (hwin : ∀ c ∈ calls, u ≤ c.nowMs ∧ c.nowMs ≤ u + 1000 * t) :
    b.admitted calls ≤ b.capacity + b.refillPerSecond * t := by
  have hrate := b.refill_pos
  cases calls with
  | nil => exact add_nonneg (b.nonneg.trans b.le_capacity) (mul_nonneg hrate.le ht)
  | cons c calls =>
    obtain ⟨-, htok, hlast, -, hsame⟩ := call_spec b c
    obtain ⟨hu, hut⟩ := hwin c mem_cons_self
    -- the first call starts from at most the capacity, the others from what it leaves
    have hfull := (b.refill c.nowMs).le_capacity
    rw [(refill_fields b c.nowMs).2.1] at hfull
    have hcred := credited_le (b := (b.call c).2) calls (u + 1000 * t)
      (by rw [hlast]; exact hclk)
      (by rw [hlast]; simpa using ⟨hut, fun c' hc' => (hwin c' (mem_cons_of_mem _ hc')).2⟩)
    have hleft := ((b.call c).2.after calls).nonneg
    rw [tokens_after] at hleft
    have hspan : (u + 1000 * t - c.nowMs) / 1000 * b.refillPerSecond ≤ b.refillPerSecond * t := by
      rw [mul_comm]
      refine mul_le_mul_of_nonneg_left ?_ hrate.le
      linarith
    rw [hlast, hsame] at hcred
    rw [admitted]
    linarith

/-- After calls that spend nothing the bucket holds what it would hold without them. -/
lemma refill_after {calls later} (hidle : b.admitted calls = 0)
    (hclk : (b.lastRefillMs :: (calls.map (·.nowMs) ++ [later])).Pairwise (· ≤ ·)) :
    ((b.after calls).refill later).tokens = b.level later := by
  have hrate := b.refill_pos
  induction calls generalizing b with
  | nil => exact refill_tokens ((pairwise_cons.mp hclk).1 later (by simp))
  | cons c calls ih =>
    rw [map_cons, cons_append, pairwise_cons] at hclk
    obtain ⟨hnon, htok, hlast, hcap, hsame⟩ := call_spec b c
    have hrest := admitted_nonneg (b.call c).2 calls
    rw [admitted] at hidle
    have haft : b.after (c :: calls) = (b.call c).2.after calls := rfl
    rw [haft, ih (by linarith) (by rw [hlast]; exact hclk.2) (by rw [hsame]; exact hrate)]
    have hlater : c.nowMs ≤ later := (pairwise_cons.mp hclk.2).1 later (by simp)
    have hspan : 0 ≤ (later - c.nowMs) / 1000 * b.refillPerSecond :=
      mul_nonneg (by linarith) hrate.le
    -- a refill on the way is capped, and what it adds is not added again
    rw [level, htok, hlast, hcap, hsame, show (b.call c).1 = 0 by linarith, sub_zero,
      refill_tokens (hclk.1 c.nowMs mem_cons_self), level, level, ← min_add_add_right,
      ← min_assoc, min_eq_left (by linarith : b.capacity ≤ _)]
    congr 1
    ring

/-- After the wait that `retryAfterSeconds` answers with, the cost is there. -/
lemma tryRemove_after_retry {cost idle later} (hcost : 0 < cost) (hfits : cost ≤ b.capacity)
    (hidle : (b.retryAfterSeconds cost nowMs).2.admitted idle = 0)
    (hclk : (nowMs :: (idle.map (·.nowMs) ++ [later])).Pairwise (· ≤ ·))
    (hwait : nowMs + 1000 * (b.retryAfterSeconds cost nowMs).1 ≤ later) :
    ∃ b', ((b.retryAfterSeconds cost nowMs).2.after idle).tryRemove cost later =
      .ok (true, b') := by
  obtain ⟨hlast, hcap, hsame⟩ := refill_fields b nowMs
  have hrate := b.refill_pos
  have hlater : nowMs ≤ later := (pairwise_cons.mp hclk).1 later (by simp)
  rw [retryAfterSeconds_snd] at hidle ⊢
  rw [tryRemove_granted_iff _ later hcost, refill_after hidle (by rw [hlast]; exact hclk), level,
    hlast, hcap, hsame]
  refine le_min hfits ?_
  unfold retryAfterSeconds at hwait
  dsimp only at hwait
  rw [hsame] at hwait
  split_ifs at hwait with hthere
  · have hspan : 0 ≤ (later - nowMs) / 1000 * b.refillPerSecond := mul_nonneg (by linarith) hrate.le
    linarith
  · have hceil := Int.le_ceil ((cost - (b.refill nowMs).tokens) / b.refillPerSecond)
    have hlong : (cost - (b.refill nowMs).tokens) / b.refillPerSecond ≤ (later - nowMs) / 1000 := by
      linarith
    have hdef := (div_le_iff₀ hrate).mp hlong
    linarith

lemma tryRemove_of_le {cost} (nowMs) (hcost : 0 < cost) (h : cost ≤ b.tokens) :
    ∃ b', b.tryRemove cost nowMs = .ok (true, b') ∧ b.tokens - cost ≤ b'.tokens := by
  have hmore := tokens_le_refill b nowMs
  have hgrant : ¬ cost > (b.refill nowMs).tokens := by linarith
  unfold tryRemove
  simp only [not_le.mpr hcost, hgrant]
  exact ⟨_, rfl, by simpa using hmore⟩

end TokenBucket

end BoilerplateExpress.Ws

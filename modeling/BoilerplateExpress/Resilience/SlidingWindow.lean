import BoilerplateExpress.Resilience.Episodes

/-!
# The ring of buckets is a sliding window

A slot of the ring is shared by every slice with its residue and is cleared only when an outcome
falls into it, so what a slot holds may be long out of date. Read against the full log of outcomes
a slot holds those of the newest slice that reached it, and `totals` skips it once that slice has
left the window.
-/
namespace BoilerplateExpress.Resilience

open List
open CircuitBreaker

/-- Whether an outcome was a success, and the clock reading it was recorded at. -/
abbrev OutcomeLog := List (Bool × ℚ)

/-- An outcome that does not count leaves no entry. -/
def OutcomeLog.add (log : OutcomeLog) (outcome : CircuitOutcome) (now : ℚ) : OutcomeLog :=
  match outcome with
  | .success => log ++ [(true, now)]
  | .failure => log ++ [(false, now)]
  | .ignored => log

def Bucket.count (bucket : Bucket) (success : Bool) : ℕ :=
  if success then bucket.successes else bucket.failures

section Window

variable (settings : BreakerSettings)

/-- The place in the ring of the slice `now` falls in. -/
def slotAt (now : ℚ) : ℤ := (epochAt settings now).tmod settings.bucketCount

/-- The slice of `time` is one of the last `bucketCount` at `now`, the current one included. -/
def InWindow (now time : ℚ) : Prop :=
  epochAt settings now - (settings.bucketCount - 1) ≤ epochAt settings time ∧
    epochAt settings time ≤ epochAt settings now

instance (now time : ℚ) : Decidable (InWindow settings now time) :=
  inferInstanceAs (Decidable (_ ∧ _))

/-- What the ring holds of the log. -/
structure Represents (buckets : ℤ → Bucket) (log : OutcomeLog) : Prop where
  newest : ∀ entry ∈ log,
    epochAt settings entry.2 ≤ (buckets (slotAt settings entry.2)).epoch
  source : ∀ index : ℤ, 0 ≤ index → index < settings.bucketCount → (buckets index).epoch = -1 ∨
    ∃ entry ∈ log, slotAt settings entry.2 = index ∧
      epochAt settings entry.2 = (buckets index).epoch
  counted : ∀ index : ℤ, 0 ≤ index → index < settings.bucketCount → ∀ success,
    (buckets index).count success = log.countP (fun entry => entry.1 = success ∧
      slotAt settings entry.2 = index ∧ epochAt settings entry.2 = (buckets index).epoch)

/-- The readings of a log, none after `clock`. -/
def Until (clock : ℚ) (log : OutcomeLog) : Prop := ∀ entry ∈ log, 0 ≤ entry.2 ∧ entry.2 ≤ clock

lemma bucketMs_nonneg : (0 : ℚ) ≤ bucketMs settings := by
  have h : 0 ≤ bucketMs settings := Int.floor_nonneg.mpr (Binary64.round_nonneg (by positivity))
  exact_mod_cast h

lemma epochAt_nonneg {now} (hnow : 0 ≤ now) : 0 ≤ epochAt settings now :=
  Int.floor_nonneg.mpr (Binary64.round_nonneg (div_nonneg hnow (bucketMs_nonneg settings)))

lemma epochAt_mono {now later} (hnow : 0 ≤ now) (h : now ≤ later) :
    epochAt settings now ≤ epochAt settings later := by
  have hms := bucketMs_nonneg settings
  exact Int.floor_le_floor (Binary64.round_mono (div_nonneg hnow hms)
    (div_le_div_of_nonneg_right h hms))

lemma slotAt_range {now} (hnow : 0 ≤ now) :
    0 ≤ slotAt settings now ∧ slotAt settings now < settings.bucketCount := by
  have hcnt : (0 : ℤ) < settings.bucketCount := by exact_mod_cast settings.bucketCount_pos
  exact ⟨Int.tmod_nonneg _ (epochAt_nonneg settings hnow), Int.tmod_lt_of_pos _ hcnt⟩

/-- Two slices of one window that share a slot are the same. -/
lemma epochAt_eq_of_slotAt_eq {time time' now} (htime : 0 ≤ time) (htime' : 0 ≤ time')
    (hwin : InWindow settings now time) (hwin' : InWindow settings now time')
    (hslot : slotAt settings time = slotAt settings time') :
    epochAt settings time = epochAt settings time' := by
  obtain ⟨hlow, hhigh⟩ := hwin
  obtain ⟨hlow', hhigh'⟩ := hwin'
  rw [slotAt, slotAt, Int.tmod_eq_emod_of_nonneg (epochAt_nonneg settings htime),
    Int.tmod_eq_emod_of_nonneg (epochAt_nonneg settings htime')] at hslot
  have hdvd := Int.ModEq.dvd hslot
  have hzero := Int.eq_zero_of_abs_lt_dvd hdvd (abs_lt.mpr ⟨by omega, by omega⟩)
  omega

lemma represents_fresh {buckets}
    (h : ∀ index : ℤ, 0 ≤ index → index < settings.bucketCount → buckets index = Bucket.fresh) :
    Represents settings buckets [] := by
  refine ⟨nofun, fun index hlow hhigh => .inl (by rw [h index hlow hhigh]; rfl), ?_⟩
  intro index hlow hhigh success
  rw [h index hlow hhigh]
  cases success <;> rfl

lemma tally_here (breaker : CircuitBreaker) (success now outcome)
    (hout : decide (outcome = .success) = success) :
    ((breaker.tally settings outcome now).buckets (slotAt settings now)).epoch =
        epochAt settings now ∧
      ∀ kind, ((breaker.tally settings outcome now).buckets (slotAt settings now)).count kind =
        (if (breaker.buckets (slotAt settings now)).epoch = epochAt settings now then
          (breaker.buckets (slotAt settings now)).count kind else 0) +
        if kind = success then 1 else 0 := by
  subst hout
  simp only [tally, slotAt]
  by_cases hepoch : (breaker.buckets ((epochAt settings now).tmod settings.bucketCount)).epoch =
      epochAt settings now
  · by_cases hsuc : outcome = .success
    · simp [hepoch, hsuc, Bucket.count]
    · simp [hepoch, hsuc, Bucket.count]
  · by_cases hsuc : outcome = .success
    · simp [hepoch, hsuc, Bucket.count]
    · simp [hepoch, hsuc, Bucket.count]

variable {settings} {breaker : CircuitBreaker} {log : OutcomeLog} {clock now : ℚ}

lemma represents_tally {outcome success} (h : Represents settings breaker.buckets log)
    (hlog : Until clock log)
    (hclk : 0 ≤ clock) (hnow : clock ≤ now) (hout : decide (outcome = .success) = success) :
    Represents settings (breaker.tally settings outcome now).buckets (log ++ [(success, now)]) := by
  obtain ⟨hepoch, hcnt⟩ := tally_here settings breaker success now outcome hout
  have hoth (index : ℤ) (hne : index ≠ slotAt settings now) :
      (breaker.tally settings outcome now).buckets index = breaker.buckets index :=
    Function.update_of_ne hne _ _
  have hpre (entry : Bool × ℚ) (hentry : entry ∈ log) :
      epochAt settings entry.2 ≤ epochAt settings now :=
    epochAt_mono settings (hlog entry hentry).1 ((hlog entry hentry).2.trans hnow)
  refine ⟨?_, ?_, ?_⟩
  · intro entry hentry
    rcases mem_append.mp hentry with hold | hnew
    · by_cases hslot : slotAt settings entry.2 = slotAt settings now
      · rw [hslot, hepoch]
        exact hpre entry hold
      · rw [hoth _ hslot]
        exact h.newest entry hold
    · rw [mem_singleton.mp hnew]
      exact hepoch.ge
  · intro index hlow hhigh
    by_cases hslot : index = slotAt settings now
    · exact .inr ⟨(success, now), by simp, hslot.symm, by rw [hslot, hepoch]⟩
    · rw [hoth _ hslot]
      rcases h.source index hlow hhigh with hfresh | ⟨entry, hentry, hat⟩
      · exact .inl hfresh
      · exact .inr ⟨entry, mem_append_left _ hentry, hat⟩
  · intro index hlow hhigh kind
    rw [countP_append, countP_singleton]
    by_cases hslot : index = slotAt settings now
    · subst hslot
      rw [hcnt, hepoch]
      congr 1
      · split_ifs with hsame
        · rw [h.counted _ hlow hhigh, hsame]
        · -- a slot that holds another slice has seen none of this one
          symm
          rw [countP_eq_zero]
          intro entry hentry hat
          obtain ⟨-, hthere, hslice⟩ := of_decide_eq_true hat
          have hnewest := h.newest entry hentry
          rw [hthere, hslice] at hnewest
          rcases h.source _ hlow hhigh with hfresh | ⟨other, hoth', -, hheld⟩
          · have := epochAt_nonneg settings (hclk.trans hnow)
            omega
          · have := hpre other hoth'
            omega
      · simp [eq_comm]
    · rw [hoth _ hslot, h.counted _ hlow hhigh, if_neg (by simp [Ne.symm hslot]), add_zero]

/-- The log follows the first half of `record`. -/
lemma represents_noteOutcome (h : Represents settings breaker.buckets log) (hlog : Until clock log)
    (hclk : 0 ≤ clock) (hnow : clock ≤ now) (outcome permit) :
    Represents settings (breaker.noteOutcome settings outcome permit now).buckets
      (log.add outcome now) := by
  have hbuc : (breaker.noteOutcome settings outcome permit now).buckets =
      if outcome = .ignored then breaker.buckets
      else (breaker.tally settings outcome now).buckets := by
    unfold noteOutcome
    split_ifs <;> rfl
  rw [hbuc]
  cases outcome with
  | ignored => exact h
  | _ => exact represents_tally h hlog hclk hnow rfl

lemma until_add (hlog : Until clock log) (hclk : 0 ≤ clock) (hnow : clock ≤ now) (outcome) :
    Until now (log.add outcome now) := by
  have hold (entry : Bool × ℚ) (hentry : entry ∈ log) : 0 ≤ entry.2 ∧ entry.2 ≤ now :=
    ⟨(hlog entry hentry).1, (hlog entry hentry).2.trans hnow⟩
  have hnew (success : Bool) : Until now (log ++ [(success, now)]) := by
    intro entry hentry
    rcases mem_append.mp hentry with h | h
    · exact hold entry h
    · rw [mem_singleton.mp h]
      exact ⟨hclk.trans hnow, le_rfl⟩
  cases outcome with
  | success => exact hnew true
  | failure => exact hnew false
  | ignored => exact hold

/-- What one slot adds to the totals is what the window has of its residue. -/
lemma slot_counted (h : Represents settings breaker.buckets log) (hlog : Until now log) {index : ℤ}
    (hlow : 0 ≤ index) (hhigh : index < settings.bucketCount) (success) :
    (if (breaker.buckets index).epoch < epochAt settings now - (settings.bucketCount - 1) then 0
      else (breaker.buckets index).count success) =
    log.countP (fun entry => decide (entry.1 = success ∧ InWindow settings now entry.2) &&
      decide (slotAt settings entry.2 = index)) := by
  have hwin {entry : Bool × ℚ} (hentry : entry ∈ log) :
      epochAt settings entry.2 ≤ epochAt settings now :=
    epochAt_mono settings (hlog entry hentry).1 (hlog entry hentry).2
  split_ifs with hstale
  · symm
    rw [countP_eq_zero]
    intro entry hentry hat
    simp only [Bool.and_eq_true, decide_eq_true_eq] at hat
    obtain ⟨⟨-, hin, -⟩, rfl⟩ := hat
    have := h.newest entry hentry
    omega
  · rw [h.counted index hlow hhigh]
    refine countP_congr fun entry hentry => ?_
    simp only [Bool.and_eq_true, decide_eq_true_eq]
    constructor
    · rintro ⟨hkind, hslot, hslice⟩
      exact ⟨⟨hkind, by omega, hwin hentry⟩, hslot⟩
    · rintro ⟨⟨hkind, hin⟩, rfl⟩
      refine ⟨hkind, rfl, ?_⟩
      have hnew := h.newest entry hentry
      have hnon := epochAt_nonneg settings (hlog entry hentry).1
      rcases h.source _ hlow hhigh with hfresh | ⟨other, hoth, hslot, hheld⟩
      · omega
      · rw [← hheld]
        exact epochAt_eq_of_slotAt_eq settings (hlog entry hentry).1 (hlog other hoth).1 hin
          ⟨by omega, hwin hoth⟩ hslot.symm

/-- Counting slot by slot counts everything once. -/
lemma sum_countP_slot {α : Type} (slot : α → ℤ) (p) {n : ℕ} {l : List α}
    (h : ∀ a ∈ l, 0 ≤ slot a ∧ slot a < n) :
    ∑ index ∈ Finset.range n, l.countP (fun a => p a && decide (slot a = index)) = l.countP p := by
  induction l with
  | nil => simp
  | cons a l ih =>
    obtain ⟨⟨hlow, hhigh⟩, hrest⟩ := forall_mem_cons.mp h
    obtain ⟨place, hplace⟩ := Int.eq_ofNat_of_zero_le hlow
    have hmem : place ∈ Finset.range n := Finset.mem_range.mpr (by omega)
    simp only [countP_cons, Finset.sum_add_distrib, ih hrest]
    rw [Finset.sum_eq_single_of_mem place hmem]
    · simp [hplace]
    · intro other _ hne
      simp [hplace, Ne.symm hne]

lemma totals_eq_window (h : Represents settings breaker.buckets log) (hlog : Until now log) :
    breaker.totals settings now =
      (log.countP (fun entry => entry.1 ∧ InWindow settings now entry.2),
        log.countP (fun entry => entry.1 = false ∧ InWindow settings now entry.2)) := by
  have hkind (success : Bool) : ∑ index ∈ Finset.range settings.bucketCount,
      (if (breaker.buckets index).epoch < epochAt settings now - (settings.bucketCount - 1) then 0
        else (breaker.buckets index).count success) =
      log.countP (fun entry => entry.1 = success ∧ InWindow settings now entry.2) := by
    rw [← sum_countP_slot (fun entry => slotAt settings entry.2) _
      (fun entry hentry => slotAt_range settings (hlog entry hentry).1)]
    refine Finset.sum_congr rfl fun index hindex => ?_
    exact slot_counted h hlog (Int.natCast_nonneg index)
      (by exact_mod_cast Finset.mem_range.mp hindex) success
  exact Prod.ext (hkind true) (hkind false)

end Window

namespace BreakerSystem

variable (settings : BreakerSettings)

/-- The log of outcomes since the circuit last closed, after an action led from `s` to `t`. -/
def journal (s : BreakerSystem) (log : OutcomeLog) (a : Action) (t : BreakerSystem) : OutcomeLog :=
  if s.breaker.currentState ≠ .closed ∧ t.breaker.currentState = .closed then []
  else
    match a with
    | .settle place outcome now _ =>
      if (s.permits[place]?).any (fun held => !held.settled) then log.add outcome now.first
      else log
    | _ => log

/-- A breaker that keeps its log beside it. -/
def stepLogged (s : BreakerSystem × OutcomeLog) (a : Action) :
    Option (BreakerSystem × OutcomeLog) :=
  (step settings s.1 a).map (fun t => (t, journal s.1 s.2 a t))

structure Windowed (s : BreakerSystem × OutcomeLog) : Prop where
  clock : 0 ≤ s.1.clock
  ring : Represents settings s.1.breaker.buckets s.2
  past : Until s.1.clock s.2

variable {settings} {s : BreakerSystem}

lemma until_later {log later} {clock} (h : Until clock log) (hle : clock ≤ later) : Until later
    log :=
  fun entry hentry => ⟨(h entry hentry).1, (h entry hentry).2.trans hle⟩

lemma journal_of_not_closing {place log t}
    (h : t.breaker.currentState = .closed → s.breaker.currentState = .closed)
    {held} (hheld : s.permits[place]? = some held) (outcome now random) :
    journal s log (.settle place outcome now random) t =
      if held.settled then log else log.add outcome now.first := by
  rw [journal, if_neg (fun hclos => hclos.1 (h hclos.2)), hheld]
  cases hset : held.settled <;> simp [hset]

variable (settings)

lemma windowed_step (s a t) (hs : Windowed settings s) (h : stepLogged settings s a = some t) :
    Windowed settings t := by
  obtain ⟨u, hu, rfl⟩ := Option.map_eq_some_iff.mp h
  obtain ⟨hclk, hmoved⟩ := moved settings hu
  have hlast := a.now.first_le_fourth
  have hfour := hs.clock.trans (hclk.trans hlast)
  -- an action that records nothing does not close the circuit
  have hquiet {t : BreakerSystem} (hcl : t.breaker.currentState = .closed →
      s.1.breaker.currentState = .closed) (hbuc : t.breaker.buckets = s.1.breaker.buckets)
      (htime : t.clock = a.now.fourth) : Windowed settings
        (t, if s.1.breaker.currentState ≠ .closed ∧ t.breaker.currentState = .closed then []
          else s.2) := by
    rw [if_neg fun hclos => hclos.1 (hcl hclos.2)]
    exact ⟨htime ▸ hfour, hbuc ▸ hs.ring, htime ▸ until_later hs.past (hclk.trans hlast)⟩
  cases hmoved with
  | acquires now =>
    obtain ⟨hbuc, hcl⟩ := look_frame settings s.1 now
    have hspec := acquired settings s.1 now
    generalize s.1.acquire settings now = result at hspec ⊢
    cases hspec <;> exact hquiet hcl hbuc rfl
  | looks now =>
    obtain ⟨hbuc, hcl⟩ := look_frame settings s.1 now
    exact hquiet hcl hbuc rfl
  | again hheld hset =>
    rw [journal_of_not_closing id hheld, if_pos hset]
    exact hs
  | @settles _ held outcome now _ _ _ hheld huns hrecd =>
    have hring := represents_noteOutcome hs.ring hs.past hs.clock hclk outcome held.permit
    have hpast := until_later (until_add hs.past hs.clock hclk outcome) hlast
    obtain ⟨hst, -, -, -⟩ := noteOutcome_frame settings s.1.breaker outcome held.permit now.first
    cases hrecd with
    | stays successes =>
      rw [journal_of_not_closing (fun hcl => hst.symm.trans hcl) hheld, huns]
      exact ⟨hfour, hring, hpast⟩
    | trips failureRate hfrom =>
      rw [journal_of_not_closing (fun hcl => by cases hcl) hheld, huns]
      exact ⟨hfour, hring, hpast⟩
    | closes hhalf hprobe =>
      rw [journal, if_pos ⟨by rw [hhalf]; exact nofun, rfl⟩]
      refine ⟨hfour, represents_fresh settings ?_, nofun⟩
      exact fun index hlow hhigh => if_pos ⟨hlow, hhigh⟩

end BreakerSystem

/-- In every state of every run with non-negative, non-decreasing clock readings and at every later
moment, the totals of the ring are the numbers of successes and failures in the log since the
circuit last closed whose slice is one of the last `bucketCount` up to the current one. -/
theorem ring_is_sliding_window (settings : BreakerSettings) (clock : ℚ) (hclock : 0 ≤ clock)
    (as : List BreakerSystem.Action) (s : BreakerSystem) (log : OutcomeLog)
    (hexec : Machine.exec (BreakerSystem.stepLogged settings) (BreakerSystem.start clock, []) as =
      some (s, log)) (now : ℚ) (hnow : s.clock ≤ now) :
    s.breaker.totals settings now =
      (log.countP (fun entry => entry.1 = true ∧ InWindow settings now entry.2),
        log.countP (fun entry => entry.1 = false ∧ InWindow settings now entry.2)) := by
  have hstart : BreakerSystem.Windowed settings (BreakerSystem.start clock, []) :=
    ⟨hclock, represents_fresh settings fun _ _ _ => rfl, nofun⟩
  have hs := Machine.exec_invariant _ (BreakerSystem.windowed_step settings) hstart hexec
  exact totals_eq_window hs.ring (BreakerSystem.until_later hs.past hnow)

/-- Ten slices of a second: ten seconds after a success and two failures only these are left. -/
theorem ring_is_sliding_window_after_ten_seconds :
    ∃ s, Machine.exec (BreakerSystem.stepLogged tripsAtOnce) (BreakerSystem.start 0, [])
        [.acquire (.same 0), .acquire (.same 0), .acquire (.same 0),
          .settle 0 .success (.same 0) Draw.zero, .settle 1 .failure (.same 1000) Draw.zero,
          .settle 2 .failure (.same 1500) Draw.zero] =
        some (s, [(true, 0), (false, 1000), (false, 1500)]) ∧ s.clock = 1500 ∧
      s.breaker.totals tripsAtOnce 10000 = (0, 2) := by
  have hrun : (Machine.exec (BreakerSystem.stepLogged tripsAtOnce) (BreakerSystem.start 0, [])
      [.acquire (.same 0), .acquire (.same 0), .acquire (.same 0),
        .settle 0 .success (.same 0) Draw.zero, .settle 1 .failure (.same 1000) Draw.zero,
        .settle 2 .failure (.same 1500) Draw.zero]).map (fun s => (s.1.clock, s.2)) =
      some (1500, [(true, 0), (false, 1000), (false, 1500)]) := by decide +kernel
  obtain ⟨⟨s, log⟩, hs, hseen⟩ := Option.map_eq_some_iff.mp hrun
  obtain ⟨hclk, rfl⟩ := Prod.mk.inj hseen
  refine ⟨s, hs, hclk, ?_⟩
  rw [ring_is_sliding_window tripsAtOnce 0 le_rfl _ s _ hs 10000 (by rw [hclk]; norm_num)]
  decide +kernel

end BoilerplateExpress.Resilience

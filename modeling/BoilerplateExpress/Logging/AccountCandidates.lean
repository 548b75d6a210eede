import BoilerplateExpress.Logging.AccountWords

/-!
# Account numbers and candidates for them

An account number without blanks is one word, one in groups of four a word and groups behind it.
The detector offers `redactIbanMatch` a first word and the groups behind it, and only what starts
at the first word is tried: the longest start that checks out is hidden, what follows it is kept.
-/
namespace BoilerplateExpress.Logging

open EventStream (units)
open List

/-- Groups of four, the last one of one to four. -/
def inFours : List JsString → Bool
  | [] => false
  | [g] => 1 ≤ g.length && g.length ≤ 4
  | g :: gs => g.length == 4 && inFours gs

/-- An account number without blanks or in groups of four; `passesIbanChecksum` checks its length
too. -/
structure Iban (N : JsString) : Prop where
  alnum : ∀ g ∈ N.splitOn 32, ∀ u ∈ g, isAlnum u = true
  written : (N.splitOn 32).length = 1 ∨ inFours (N.splitOn 32) = true
  checksum : passesIbanChecksum N = true

/-- The country code is in capitals. -/
def capitalCountry (N : JsString) : Bool := (N.take 2).all isUpper

/-! ### The words of an account number -/

variable {gs : List JsString}

lemma inFours_groups (h : inFours gs) :
    (∀ g ∈ gs, 1 ≤ g.length ∧ g.length ≤ 4) ∧ 4 * gs.length ≤ gs.flatten.length + 3 := by
  induction gs using inFours.induct with
  | case1 => cases h
  | case2 g =>
    simp only [inFours, Bool.and_eq_true, decide_eq_true_eq] at h
    simp only [mem_singleton, forall_eq, length_singleton, flatten_singleton]
    omega
  | case3 g gs hne ih =>
    rw [inFours] at h
    · rw [Bool.and_eq_true, beq_iff_eq] at h
      obtain ⟨hall, hlen⟩ := ih h.2
      simp only [forall_mem_cons, length_cons, flatten_cons, length_append]
      exact ⟨⟨by omega, hall⟩, by omega⟩
    · exact hne

lemma isSpace_blank : JsString.isSpace 32 := by decide +kernel

lemma not_isSpace_of_isAlnum {u} (h : isAlnum u) : JsString.isSpace u = false := by
  have hall : ((List.range 128).all fun n => !isAlnum (UInt16.ofNat n) ||
      !JsString.isSpace (UInt16.ofNat n)) = true := by decide +kernel
  have hlt : u.toNat < 128 := by
    simp only [isAlnum, isAlpha, isUpper, isLower, isDigit, Bool.or_eq_true, Bool.and_eq_true,
      decide_eq_true_eq, UInt16.le_iff_toNat_le, UInt16.reduceToNat] at h
    omega
  have hspace := all_eq_true.mp hall u.toNat (mem_range.mpr hlt)
  rw [UInt16.ofNat_toNat, h] at hspace
  simpa using hspace

variable {w : JsString}

lemma filter_alnum (h : ∀ u ∈ w, isAlnum u) : w.filter (fun u => !JsString.isSpace u) = w :=
  filter_eq_self.mpr fun u hu => by simp [not_isSpace_of_isAlnum (h u hu)]

lemma filter_run (hw : ∀ u ∈ w, isAlnum u) (hgs : ∀ g ∈ gs, ∀ u ∈ g, isAlnum u) :
    (run w gs).filter (fun u => !JsString.isSpace u) = w ++ gs.flatten := by
  induction gs generalizing w with
  | nil => simp [run, filter_alnum hw]
  | cons g gs ih =>
    obtain ⟨hg, hgs'⟩ := forall_mem_cons.mp hgs
    rw [run_cons, filter_append, filter_alnum hw, filter_cons_of_neg
      (by simp [isSpace_blank]), ih hg hgs', flatten_cons]

lemma isDigit_of_toUpperUnit {u} (h : isDigit (toUpperUnit u)) : isDigit u := by
  unfold toUpperUnit at h
  split at h
  · rename_i hlower
    simp only [isLower, isDigit, Bool.and_eq_true, decide_eq_true_eq, UInt16.le_iff_toNat_le,
      UInt16.reduceToNat] at hlower h
    have hle : (32 : UInt16) ≤ u := by
      simp only [UInt16.le_iff_toNat_le, UInt16.reduceToNat]
      omega
    simp only [UInt16.toNat_sub_of_le _ _ hle, UInt16.reduceToNat] at h
    omega
  · exact h

lemma shape_of_checksum (hw : ∀ u ∈ w, isAlnum u)
    (hgs : ∀ g ∈ gs, ∀ u ∈ g, isAlnum u) (h : passesIbanChecksum (run w gs)) :
    15 ≤ (w ++ gs.flatten).length ∧ (w ++ gs.flatten).length ≤ 34 ∧
      isIbanShape ((w ++ gs.flatten).map toUpperUnit) := by
  simp only [passesIbanChecksum, filter_run hw hgs, length_map] at h
  split_ifs at h with hlen hshape
  simp only [Bool.or_eq_true, decide_eq_true_eq, not_or, not_lt] at hlen
  exact ⟨hlen.1, hlen.2, by simpa using hshape⟩

/-- An account number as a run of its words. -/
structure Written (N w : JsString) (gs : List JsString) : Prop where
  eq_run : N = run w gs
  word : IsAlnums w
  groups : ∀ g ∈ gs, isGroup g = true
  length : gs.length ≤ 8
  four : 4 ≤ w.length
  compact : gs = [] → 15 ≤ w.length

variable {N : JsString}

lemma written_of_iban (hN : Iban N) : ∃ w gs, Written N w gs := by
  have hne : N.splitOn 32 ≠ [] := splitOn_ne_nil _ _
  obtain ⟨w, gs, hsplit⟩ := exists_cons_of_ne_nil hne
  have hrun : N = run w gs := by rw [← run_eq_intercalate, ← hsplit, intercalate_splitOn]
  obtain ⟨hw, hgs⟩ : (∀ u ∈ w, isAlnum u) ∧ ∀ g ∈ gs, ∀ u ∈ g, isAlnum u := by
    have halnum := hN.alnum
    rw [hsplit] at halnum
    exact forall_mem_cons.mp halnum
  have hchecksum := hN.checksum
  rw [hrun] at hchecksum
  obtain ⟨hleast, hmost, -⟩ := shape_of_checksum hw hgs hchecksum
  have hwritten := hN.written
  rw [hsplit] at hwritten
  rcases hwritten with hone | hfours
  · obtain rfl : gs = [] := by simpa using hone
    simp only [flatten_nil, append_nil] at hleast
    refine ⟨w, [], hrun, ⟨hw, ?_⟩, by simp, by simp, by omega, fun _ => hleast⟩
    rintro rfl
    exact absurd hleast (by decide)
  · obtain ⟨hall, hcount⟩ := inFours_groups hfours
    obtain ⟨hwl, hgl⟩ := forall_mem_cons.mp hall
    have hmany : gs ≠ [] := by
      rintro rfl
      simp only [flatten_nil, append_nil] at hleast
      omega
    have hfour : w.length = 4 := by
      rw [inFours, Bool.and_eq_true, beq_iff_eq] at hfours
      · exact hfours.1
      · exact hmany
    simp only [flatten_cons, length_cons] at hcount
    have hgroup : ∀ g, 1 ≤ g.length ∧ g.length ≤ 4 → (∀ u ∈ g, isAlnum u) → isGroup g := by
      intro g hlength halnum
      simp only [isGroup, Bool.and_eq_true, decide_eq_true_eq, all_eq_true]
      exact ⟨hlength, halnum⟩
    refine ⟨w, gs, hrun, ⟨hw, ?_⟩, fun g hg => hgroup g (hgl g hg) (hgs g hg), by omega,
      by omega, fun h => absurd h hmany⟩
    rintro rfl
    cases hfour

lemma exists_four (h : 4 ≤ w.length) : ∃ a b c d t, w = a :: b :: c :: d :: t := by
  rcases w with _ | ⟨a, _ | ⟨b, _ | ⟨c, _ | ⟨d, t⟩⟩⟩⟩
  · exact absurd h (by simp)
  · exact absurd h (by simp)
  · exact absurd h (by simp)
  · exact absurd h (by simp)
  · exact ⟨a, b, c, d, t, rfl⟩

lemma legible_run (hw : IsAlnums w) (hgs : ∀ g ∈ gs, IsAlnums g)
    (hdigit : ∃ u ∈ w, isDigit u) : Legible (run w gs) := by
  have hall : ∀ u ∈ run w gs, isAlnum u || u == 32 := by
    intro u hu
    rcases mem_append.mp hu with hu | hu
    · simp [hw.all u hu]
    · obtain ⟨g, hg, hu⟩ := mem_flatMap.mp hu
      rcases mem_cons.mp hu with rfl | hu
      · rfl
      · simp [(hgs g hg).all u hu]
  obtain ⟨d, hd, hdigit⟩ := hdigit
  refine ⟨⟨?_, ?_⟩, d, mem_append_left _ hd, hdigit⟩
  · exact fun hmem => absurd (hall 91 hmem) (by decide)
  · exact fun hmem => absurd (hall 93 hmem) (by decide)

section Written

variable {N w : JsString} {gs : List JsString} (hN : Iban N) (h : Written N w gs)
include h

lemma written_blank : 32 ∈ N ↔ gs ≠ [] := by
  rw [h.eq_run]
  cases gs with
  | nil =>
    have hnot := not_blank_of_isAlnum h.word.all
    simpa [run] using hnot
  | cons g gs => simp [run]

include hN

/-- Two letters and two digits stand in front, and with the letters in capitals it is a first
word. -/
lemma written_head : ∃ a b c d t, w = a :: b :: c :: d :: t ∧ isDigit c ∧
    (capitalCountry N → isHead w) := by
  have hchec := hN.checksum
  rw [h.eq_run] at hchec
  obtain ⟨-, hmost, hshape⟩ := shape_of_checksum h.word.all
    (fun g hg => isGroup_alnum (h.groups g hg)) hchec
  have hfour := h.four
  obtain ⟨a, b, c, d, t, rfl⟩ := exists_four hfour
  have hlet := hshape
  simp only [isIbanShape, cons_append, map_cons, take_succ_cons, take_zero,
    drop_succ_cons, drop_zero, all_cons, all_nil, Bool.and_eq_true, Bool.and_true] at hlet
  obtain ⟨⟨⟨-, hc, hd⟩, -⟩, -⟩ := hlet
  refine ⟨a, b, c, d, t, rfl, isDigit_of_toUpperUnit hc, ?_⟩
  intro hcap
  rw [h.eq_run] at hcap
  simp only [capitalCountry, run, cons_append, take_succ_cons, all_cons,
    Bool.and_eq_true] at hcap
  simp only [isHead, hcap.1, hcap.2, isDigit_of_toUpperUnit hc, isDigit_of_toUpperUnit hd,
    Bool.true_and, Bool.and_eq_true, decide_eq_true_eq, all_eq_true]
  refine ⟨?_, fun u hu => h.word.all u (by simp [hu])⟩
  simp only [length_append, length_cons] at hmost
  omega

lemma written_legible : Legible N := by
  obtain ⟨a, b, c, d, t, hw, hc, -⟩ := written_head hN h
  rw [h.eq_run]
  exact legible_run h.word (fun g hg => isAlnums_of_isGroup (h.groups g hg))
    ⟨c, by rw [hw]; simp, hc⟩

end Written

lemma legible_of_iban (hN : Iban N) : Legible N := by
  obtain ⟨w, gs, h⟩ := written_of_iban hN
  exact written_legible hN h

/-! ### What the detector makes of its candidates -/

lemma ibanGroups_of_passes {k n parts} (hpos : 0 < k) (hk : k ≤ n)
    (h : passesIbanChecksum ((units " ").intercalate (parts.take k))) :
    ∃ count, ibanGroups parts n = some count := by
  induction n with
  | zero => omega
  | succ n ih =>
    rw [ibanGroups]
    split
    · exact ⟨n + 1, rfl⟩
    · rename_i hfails
      refine ih ?_
      rcases Nat.lt_or_eq_of_le hk with hlt | rfl
      · omega
      · exact absurd h hfails

lemma intercalate_take (w) (gs : List JsString) (k) :
    (units " ").intercalate ((w :: gs).take (k + 1)) = run w (gs.take k) := by
  have hblank : units " " = [32] := by decide +kernel
  rw [hblank, take_succ_cons, run_eq_intercalate]

lemma ibanSplit_isSome {k} (hw : IsAlnums w) (hgs : ∀ g ∈ gs, isGroup g)
    (h : passesIbanChecksum (run w (gs.take k))) : ∃ parts, ibanSplit (run w gs) = some parts := by
  wlog hk : k ≤ gs.length generalizing k
  · have hall : gs.take k = gs.take gs.length := by rw [take_length, take_of_length_le (by omega)]
    rw [hall] at h
    exact this h le_rfl
  rw [← intercalate_take] at h
  obtain ⟨count, hcnt⟩ := ibanGroups_of_passes (Nat.succ_pos k) (Nat.succ_le_succ hk) h
  rw [ibanSplit, splitOn_run hw hgs, length_cons, hcnt]
  exact ⟨_, rfl⟩

lemma ibanGroups_eq_some {parts} {n count}
    (h : ibanGroups parts n = some count) :
    0 < count ∧ passesIbanChecksum ((units " ").intercalate (parts.take count)) := by
  induction n with
  | zero => cases h
  | succ n ih =>
    rw [ibanGroups] at h
    split at h
    · rename_i hpass
      cases h
      exact ⟨Nat.succ_pos n, hpass⟩
    · exact ih h

lemma intercalate_append {sep : JsString} {xs ys : List JsString} (hx : xs ≠ []) (hy : ys ≠ []) :
    sep.intercalate (xs ++ ys) = sep.intercalate xs ++ sep ++ sep.intercalate ys := by
  induction xs with
  | nil => exact absurd rfl hx
  | cons x xs ih =>
    obtain ⟨y, ys', rfl⟩ := exists_cons_of_ne_nil hy
    cases xs with
    | nil => simp
    | cons x' xs =>
      rw [cons_append, cons_append, intercalate_cons_cons, ← cons_append, ih (cons_ne_nil _ _),
        intercalate_cons_cons]
      simp only [append_assoc]

/-- The groups that check out are hidden, and what stands behind them is left. -/
lemma ibanSplit_cut {m front back : JsString} (h : ibanSplit m = some (front, back)) :
    front = [] ∧ ∃ old, old ≠ [] ∧ m = old ++ back := by
  obtain ⟨count, hcnt, hparts⟩ := Option.map_eq_some_iff.mp h
  obtain ⟨rfl, rfl⟩ := Prod.mk.inj hparts
  refine ⟨rfl, ?_⟩
  have hpass := (ibanGroups_eq_some hcnt).2
  have hold : (units " ").intercalate ((m.splitOn 32).take count) ≠ [] := by
    intro hnil
    rw [hnil] at hpass
    exact absurd hpass (by decide)
  have hjoin : m =
      (units " ").intercalate ((m.splitOn 32).take count ++ (m.splitOn 32).drop count) := by
    have hblank : units " " = [32] := by decide +kernel
    rw [take_append_drop, hblank, intercalate_splitOn]
  split_ifs with hsur
  · refine ⟨_, hold, ?_⟩
    conv_lhs => rw [hjoin]
    rw [intercalate_append]
    · simp
    · intro hnil
      rw [hnil] at hold
      exact hold rfl
    · intro hnil
      rw [hnil] at hsur
      exact absurd hsur (by decide)
  · refine ⟨m, ?_, by simp⟩
    rintro rfl
    refine hold ?_
    rw [splitOn_nil]
    cases count <;> simp

lemma ibanDetector_cuts : ibanDetector.Cuts := by
  intro m front back h
  obtain ⟨rfl, old, -, hm⟩ := ibanSplit_cut h
  exact ⟨old, hm⟩

end BoilerplateExpress.Logging

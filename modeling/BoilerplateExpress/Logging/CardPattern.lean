import BoilerplateExpress.Logging.Detectors

/-!
# The card detector

What `/\b(?:\d[ -]?){12,18}\d\b/gu` matches. A match is a run of digits with at most one
separator between two of them. The scan of a text has a match in every delimited run of 13 to 19
digits, and at a run that stands alone the greedy repetition takes exactly the run.
-/
namespace BoilerplateExpress.Logging

open Regex (Pattern Piece Pos Consumes Meets first ends)
open List

/-- Digits, with at most a single space or dash between two of them. -/
def isSpaced : JsString → Bool
  | [] => false
  | [d] => isDigit d
  | d :: c :: rest => isDigit d && (isSpaced (c :: rest) || (isSeparator c && isSpaced rest))

/-- A single separator and a digit behind it. -/
def joinsDigit : JsString → Bool
  | s :: d :: _ => isSeparator s && isDigit d
  | _ => false

/-- No further digit stands beside the number with only a single separator between. -/
def Isolated (pre post : JsString) : Prop :=
  joinsDigit pre.reverse = false ∧ joinsDigit post = false

lemma joinsDigit_cons (s : UInt16) (rest : JsString) :
    joinsDigit (s :: rest) = (isSeparator s && rest.head?.any isDigit) := by
  cases rest <;> simp [joinsDigit]

/-! ### Runs of digits -/

lemma not_separator_of_digit {u} (h : isDigit u) : isSeparator u = false := by
  cases hs : isSeparator u with
  | false => rfl
  | true =>
    simp only [isSeparator, Bool.or_eq_true, beq_iff_eq] at hs
    rcases hs with rfl | rfl
    · exact absurd h (by decide)
    · exact absurd h (by decide)

lemma not_digit_of_separator {u} (h : isSeparator u) : isDigit u = false := by
  cases hd : isDigit u with
  | false => rfl
  | true => exact absurd h (by simp [not_separator_of_digit hd])

variable {N : JsString}

lemma isSpaced_head (h : isSpaced N) : ∃ d rest, N = d :: rest ∧ isDigit d := by
  cases N using isSpaced.fun_cases with
  | case1 => cases h
  | case2 d => exact ⟨d, [], rfl, h⟩
  | case3 d c rest =>
    rw [isSpaced, Bool.and_eq_true] at h
    exact ⟨d, c :: rest, rfl, h.1⟩

variable {d : UInt16}

lemma isSpaced_cons (hd : isDigit d) (h : isSpaced N) : isSpaced (d :: N) := by
  obtain ⟨c, rest, rfl, _⟩ := isSpaced_head h
  rw [isSpaced, hd, h]
  rfl

variable {s : UInt16}

lemma isSpaced_gap (hd : isDigit d) (hs : isSeparator s) (h : isSpaced N) :
    isSpaced (d :: s :: N) := by
  rw [isSpaced, hd, hs, h, Bool.true_and, Bool.true_and, Bool.or_true]

/-- A run is a digit, a digit and a run, or a digit, a separator and a run. -/
@[elab_as_elim]
lemma isSpaced_induction {motive : ∀ N, isSpaced N → Prop}
    (one : ∀ d (hd : isDigit d), motive [d] hd)
    (next : ∀ d N (hd : isDigit d) (hN : isSpaced N), motive N hN →
      motive (d :: N) (isSpaced_cons hd hN))
    (gap : ∀ d s N (hd : isDigit d) (hs : isSeparator s) (hN : isSpaced N),
      motive N hN → motive (d :: s :: N) (isSpaced_gap hd hs hN)) (N h) : motive N h := by
  induction N using isSpaced.induct with
  | case1 => cases h
  | case2 d => exact one d h
  | case3 d c rest ihnext ihgap =>
    have hrun := h
    rw [isSpaced, Bool.and_eq_true, Bool.or_eq_true, Bool.and_eq_true] at hrun
    obtain ⟨hd, hrun | ⟨hs, hrun⟩⟩ := hrun
    · exact next d (c :: rest) hd hrun (ihnext hrun)
    · exact gap d c rest hd hs hrun (ihgap hrun)

lemma isSpaced_all (h : isSpaced N) : ∀ u ∈ N, isDigit u || isSeparator u := by
  induction N, h using isSpaced_induction with
  | one d hd => simp [hd]
  | next d N hd hN ih => simpa [hd] using ih
  | gap d s N hd hs hN ih => simpa [hd, hs] using ih

lemma isSpaced_ne_nil (h : isSpaced N) : N ≠ [] := by
  obtain ⟨d, rest, rfl, _⟩ := isSpaced_head h
  exact cons_ne_nil _ _

lemma isSpaced_legible (h : isSpaced N) : Legible N := by
  have hall := isSpaced_all h
  obtain ⟨d, rest, rfl, hd⟩ := isSpaced_head h
  refine ⟨⟨?_, ?_⟩, d, mem_cons_self, hd⟩
  · exact fun hmem => absurd (hall 91 hmem) (by decide)
  · exact fun hmem => absurd (hall 93 hmem) (by decide)

@[simp] lemma withoutSeparators_digit (hd : isDigit d) (N : JsString) :
    withoutSeparators (d :: N) = d :: withoutSeparators N := by
  simp [withoutSeparators, not_separator_of_digit hd]

@[simp] lemma withoutSeparators_separator (hs : isSeparator s) (N : JsString) :
    withoutSeparators (s :: N) = withoutSeparators N := by simp [withoutSeparators, hs]

variable {rest : JsString}

/-- Inside a run a separator has a digit before it. -/
lemma digit_before_separator {l} (h : isSpaced (l ++ s :: rest))
    (hs : isSeparator s) : l.getLast?.any isDigit := by
  induction l using isSpaced.induct with
  | case1 =>
    obtain ⟨d, _, heq, hd⟩ := isSpaced_head h
    obtain ⟨rfl, _⟩ := List.cons.inj heq
    exact absurd hs (by simp [not_separator_of_digit hd])
  | case2 d =>
    obtain ⟨e, _, heq, he⟩ := isSpaced_head h
    obtain ⟨rfl, _⟩ := List.cons.inj heq
    simpa using he
  | case3 d c l ihnext ihgap =>
    rw [cons_append, cons_append, isSpaced, Bool.and_eq_true, Bool.or_eq_true,
      Bool.and_eq_true] at h
    obtain ⟨hd, hrun | ⟨hc, hrun⟩⟩ := h
    · rw [getLast?_cons_cons]
      exact ihnext hrun
    · have hlast := ihgap hrun
      cases l with
      | nil => cases hlast
      | cons e l => simpa using hlast

/-! ### Matches of the card pattern -/

variable {pos : Pos UInt16}

lemma mem_ends_cardDigit {q} (h : q ∈ ends cardDigit pos) :
    ∃ d rest, pos.rest = d :: rest ∧ isDigit d ∧ (q = ⟨some d, rest⟩ ∨
      ∃ s rest', rest = s :: rest' ∧ isSeparator s ∧ q = ⟨some s, rest'⟩) := by
  obtain ⟨mid, hmid, hq⟩ := Regex.mem_ends_seq.mp h
  obtain ⟨d, rest, hrest, hd, rfl⟩ := Regex.mem_ends_unit.mp hmid
  refine ⟨d, rest, hrest, hd, ?_⟩
  rw [ends, Regex.greedy, mem_append, mem_flatMap, mem_singleton] at hq
  rcases hq with ⟨mid, hmid, hq⟩ | rfl
  · obtain ⟨s, rest', hrest', hs, rfl⟩ := Regex.mem_ends_unit.mp (mem_filter.mp hmid).1
    exact .inr ⟨s, rest', hrest', hs, mem_singleton.mp hq⟩
  · exact .inl rfl

lemma cardDigit_consumes (pos q) (h : q ∈ ends cardDigit pos) :
    q.rest.length < pos.rest.length := by
  obtain ⟨d, rest, hrest, _, rfl | ⟨s, rest', rfl, _, rfl⟩⟩ := mem_ends_cardDigit h
  · simp [hrest]
  · simp [hrest]

variable {prev : Option UInt16}

lemma ends_cardDigit_separator (hd : isDigit d) (hs : isSeparator s) :
    ends cardDigit ⟨prev, d :: s :: rest⟩ = [⟨some s, rest⟩, ⟨some d, s :: rest⟩] := by
  simp [cardDigit, ends, Regex.greedy, hd, hs]

lemma ends_cardDigit_last (hd : isDigit d) (hrest : rest.head?.any isSeparator = false) :
    ends cardDigit ⟨prev, d :: rest⟩ = [⟨some d, rest⟩] := by
  cases rest with
  | nil => simp [cardDigit, ends, Regex.greedy, hd]
  | cons c rest =>
    have hc : isSeparator c = false := hrest
    simp [cardDigit, ends, Regex.greedy, hd, hc]

/-- The last digit of the pattern and the boundary behind it. -/
def cardEnd : Pattern UInt16 := .seq (.unit isDigit) (.boundary isWord)

/-- `(?:\d[ -]?){k,k+n}\d\b`. -/
def cardRun (k n : ℕ) : Pattern UInt16 :=
  .seq (cardDigit.copies k) (.seq (.upTo n cardDigit) cardEnd)

lemma ends_cardRun_copy (k n pos) :
    ends (cardRun (k + 1) n) pos = (ends cardDigit pos).flatMap (ends (cardRun k n)) :=
  Regex.ends_copies_succ _ _ k pos

lemma ends_cardRun_more (n pos) :
    ends (cardRun 0 (n + 1)) pos =
      (ends cardDigit pos).flatMap (ends (cardRun 0 n)) ++ ends cardEnd pos := by
  have hzero : ends (cardRun 0 n) = ends (.seq (.upTo n cardDigit) cardEnd) :=
    funext (Regex.ends_copies_zero _ _)
  rw [cardRun, Regex.ends_copies_zero, Regex.ends_upTo_succ cardDigit_consumes, hzero]

lemma ends_cardRun_end (pos) : ends (cardRun 0 0) pos = ends cardEnd pos := by
  rw [cardRun, Regex.ends_copies_zero, Regex.ends_upTo_zero]

/-- The matches of the pattern are runs of digits. -/
def MatchesRuns (r : Pattern UInt16) : Prop :=
  ∀ pos q, q ∈ ends r pos → ∃ m, Consumes pos m q ∧ isSpaced m = true

variable {r : Pattern UInt16}

/-- A digit, perhaps with a separator behind it, goes on to a longer run. -/
lemma run_of_step {q} (hr : MatchesRuns r) (h : q ∈ (ends cardDigit pos).flatMap (ends r)) :
    ∃ m, Consumes pos m q ∧ isSpaced m := by
  obtain ⟨mid, hmid, hq⟩ := mem_flatMap.mp h
  obtain ⟨m, hm, hspac⟩ := hr mid q hq
  obtain ⟨d, rest, hrest, hd, rfl | ⟨s, rest', rfl, hs, rfl⟩⟩ := mem_ends_cardDigit hmid
  · have hfst : Consumes pos [d] ⟨some d, rest⟩ := ⟨hrest, rfl⟩
    exact ⟨d :: m, Regex.consumes_trans hfst hm, isSpaced_cons hd hspac⟩
  · have hfst : Consumes pos [d, s] ⟨some s, rest'⟩ := ⟨hrest, rfl⟩
    exact ⟨d :: s :: m, Regex.consumes_trans hfst hm, isSpaced_gap hd hs hspac⟩

lemma cardEnd_matchesRuns : MatchesRuns cardEnd := by
  intro pos q hq
  obtain ⟨mid, hmid, hq⟩ := Regex.mem_ends_seq.mp hq
  obtain ⟨d, rest, hrest, hd, rfl⟩ := Regex.mem_ends_unit.mp hmid
  obtain ⟨_, rfl⟩ := Regex.mem_ends_boundary.mp hq
  exact ⟨[d], ⟨hrest, rfl⟩, hd⟩

lemma cardRun_matchesRuns (k n) : MatchesRuns (cardRun k n) := by
  induction k with
  | zero =>
    induction n with
    | zero =>
      intro pos q hq
      rw [ends_cardRun_end] at hq
      exact cardEnd_matchesRuns pos q hq
    | succ n ih =>
      intro pos q hq
      rw [ends_cardRun_more, mem_append] at hq
      rcases hq with hq | hq
      · exact run_of_step ih hq
      · exact cardEnd_matchesRuns pos q hq
  | succ k ih =>
    intro pos q hq
    rw [ends_cardRun_copy] at hq
    exact run_of_step ih hq

lemma card_matchesRuns : MatchesRuns card := by
  intro pos q hq
  obtain ⟨mid, hmid, hrun⟩ := Regex.mem_ends_seq.mp hq
  obtain ⟨_, rfl⟩ := Regex.mem_ends_boundary.mp hmid
  exact cardRun_matchesRuns 12 6 mid q hrun

/-- A pattern of runs matches in front of a digit only. -/
lemma ends_of_not_digit (hr : MatchesRuns r) (hpos : pos.rest.head?.any isDigit = false) :
    ends r pos = [] := by
  refine eq_nil_iff_forall_not_mem.mpr ?_
  intro q hq
  obtain ⟨m, hm, hspac⟩ := hr pos q hq
  obtain ⟨d, rest, rfl, hd⟩ := isSpaced_head hspac
  simp [hm.rest, hd] at hpos

section Step

variable {r : Pattern UInt16} (hr : MatchesRuns r) {prev : Option UInt16} {d : UInt16}
  (hd : isDigit d = true)
include hr hd

/-- A repetition is given up at the last digit of a run. -/
lemma step_last {post} (hpost : post.head?.any isDigit = false) (hjoin : joinsDigit post = false) :
    (ends cardDigit ⟨prev, d :: post⟩).flatMap (ends r) = [] := by
  cases hsep : post.head?.any isSeparator with
  | false =>
    rw [ends_cardDigit_last hd hsep, flatMap_singleton]
    exact ends_of_not_digit hr hpost
  | true =>
    obtain ⟨s, hhead, hs⟩ := (Option.any_eq_true _ _).mp hsep
    obtain ⟨rest, rfl⟩ := head?_eq_some_iff.mp hhead
    rw [joinsDigit_cons, hs, Bool.true_and] at hjoin
    have hdigit : ends r ⟨some s, rest⟩ = [] := ends_of_not_digit hr hjoin
    have hsep : ends r ⟨some d, s :: rest⟩ = [] := ends_of_not_digit hr (not_digit_of_separator hs)
    rw [ends_cardDigit_separator hd hs, flatMap_cons, flatMap_singleton, hdigit, hsep]
    rfl

omit hr in
lemma step_next (r : Pattern UInt16) {N post} (hN : isSpaced N = true) :
    (ends cardDigit ⟨prev, d :: N ++ post⟩).flatMap (ends r) = ends r ⟨some d, N ++ post⟩ := by
  obtain ⟨c, rest, rfl, hc⟩ := isSpaced_head hN
  have hsep : (c :: rest ++ post).head?.any isSeparator = false := not_separator_of_digit hc
  rw [cons_append, ends_cardDigit_last hd hsep, flatMap_singleton]

lemma step_gap {rest} (hs : isSeparator s) :
    (ends cardDigit ⟨prev, d :: s :: rest⟩).flatMap (ends r) = ends r ⟨some s, rest⟩ := by
  have hsep : ends r ⟨some d, s :: rest⟩ = [] := ends_of_not_digit hr (not_digit_of_separator hs)
  rw [ends_cardDigit_separator hd hs, flatMap_cons, flatMap_singleton, hsep, append_nil]

end Step

lemma ends_cardEnd {post} (hpost : post.head?.any isWord = false)
    (hd : isDigit d) : ends cardEnd ⟨prev, d :: post⟩ = [⟨some d, post⟩] := by
  simp [cardEnd, ends, hd, Pos.atBoundary, isWord_of_isDigit hd, hpost]

section Reaches

variable {P : Pos UInt16 → List (Pos UInt16) → Prop} (hP : ∀ q l l', P q l → P q (l ++ l'))
include hP

/-- A digit that can only be taken is taken, in front of `l` others. -/
lemma cardRun_step {mid q} {k n l}
    (hstep : ∀ k n, (ends cardDigit pos).flatMap (ends (cardRun k n)) = ends (cardRun k n) mid)
    (hmid : ∀ k n, k + 1 ≤ l → l ≤ k + n + 1 → P q (ends (cardRun k n) mid)) (hl : 1 ≤ l)
    (hleast : k ≤ l) (hmost : l ≤ k + n) : P q (ends (cardRun k n) pos) := by
  cases k with
  | zero =>
    obtain ⟨n, rfl⟩ : ∃ j, n = j + 1 := ⟨n - 1, by omega⟩
    rw [ends_cardRun_more, hstep]
    exact hP _ _ _ (hmid 0 n hl (by omega))
  | succ k =>
    rw [ends_cardRun_copy, hstep]
    exact hmid k n hleast (by omega)

/-- The repetition gets to the end of a run of as many digits as it may take, if it does so from
the last one. -/
lemma cardRun_reaches {post N : JsString}
    (hlast : ∀ d n prev, isDigit d → P ⟨some d, post⟩ (ends (cardRun 0 n) ⟨prev, d :: post⟩))
    (hN : isSpaced N) (k n : ℕ) (prev : Option UInt16)
    (hleast : k + 1 ≤ (withoutSeparators N).length)
    (hmost : (withoutSeparators N).length ≤ k + n + 1) :
    P ⟨N.getLast?, post⟩ (ends (cardRun k n) ⟨prev, N ++ post⟩) := by
  induction N, hN using isSpaced_induction generalizing k n prev with
  | one d hd =>
    obtain rfl : k = 0 := by
      rw [withoutSeparators_digit hd] at hleast
      exact Nat.le_zero.mp (Nat.le_of_succ_le_succ hleast)
    exact hlast d n prev hd
  | next d N hd hN ih =>
    obtain ⟨c, rest, rfl, hc⟩ := isSpaced_head hN
    simp only [withoutSeparators_digit hd, withoutSeparators_digit hc, length_cons]
      at hleast hmost ih
    refine cardRun_step hP (fun k n => step_next hd _ hN) (fun k n => ih k n (some d)) ?_ ?_ ?_
    all_goals omega
  | gap d s N hd hs hN ih =>
    obtain ⟨c, rest, rfl, hc⟩ := isSpaced_head hN
    simp only [withoutSeparators_digit hd, withoutSeparators_separator hs,
      withoutSeparators_digit hc, length_cons] at hleast hmost ih
    refine cardRun_step hP (fun k n => step_gap (cardRun_matchesRuns k n) hd hs)
      (fun k n => ih k n (some s)) ?_ ?_ ?_
    all_goals omega

end Reaches

lemma ends_card {prev} (hN : isSpaced N) (hprev : prev.any isWord = false)
    (post : JsString) : ends card ⟨prev, N ++ post⟩ = ends (cardRun 12 6) ⟨prev, N ++ post⟩ := by
  have hboun : ends (.boundary isWord) ⟨prev, N ++ post⟩ = [⟨prev, N ++ post⟩] := by
    obtain ⟨d, rest, rfl, hd⟩ := isSpaced_head hN
    simp [ends, Pos.atBoundary, hprev, isWord_of_isDigit hd]
  rw [card, ends, hboun, flatMap_singleton]
  rfl

/-- A delimited run of 13 to 19 digits is one of the ends of the pattern. -/
lemma mem_ends_card {post} (hN : isSpaced N)
    (hleast : 13 ≤ (withoutSeparators N).length) (hmost : (withoutSeparators N).length ≤ 19)
    (hprev : prev.any isWord = false) (hpost : post.head?.any isWord = false) :
    ⟨N.getLast?, post⟩ ∈ ends card ⟨prev, N ++ post⟩ := by
  rw [ends_card hN hprev]
  refine cardRun_reaches (P := fun q l => q ∈ l) (fun _ _ _ => mem_append_left _) ?_ hN 12 6 prev
    hleast hmost
  intro d n prev hd
  cases n with
  | zero =>
    rw [ends_cardRun_end, ends_cardEnd hpost hd]
    exact mem_cons_self
  | succ n =>
    rw [ends_cardRun_more, ends_cardEnd hpost hd]
    exact mem_append_right _ mem_cons_self

lemma first_card {post} (hN : isSpaced N)
    (hleast : 13 ≤ (withoutSeparators N).length) (hmost : (withoutSeparators N).length ≤ 19)
    (hprev : prev.any isWord = false) (hpost : post.head?.any isWord = false)
    (hjoin : joinsDigit post = false) :
    first card ⟨prev, N ++ post⟩ = some ⟨N.getLast?, post⟩ := by
  rw [first, ends_card hN hprev]
  refine cardRun_reaches (P := fun q l => l.head? = some q) ?_ ?_ hN 12 6 prev hleast hmost
  · intro q l l' hq
    rw [head?_append, hq]
    rfl
  · intro d n prev hd
    cases n with
    | zero =>
      rw [ends_cardRun_end, ends_cardEnd hpost hd]
      rfl
    | succ n =>
      have hdigit := any_eq_false_of_imp (fun _ => isWord_of_isDigit) hpost
      rw [ends_cardRun_more, step_last (cardRun_matchesRuns 0 n) hd hdigit hjoin,
        ends_cardEnd hpost hd]
      rfl

/-! ### The scan -/

lemma joinsDigit_append {l l'} (h : joinsDigit (l ++ l') = false) : joinsDigit l = false := by
  cases l using joinsDigit.fun_cases with
  | case1 s d rest => exact h
  | case2 l hl =>
    cases l with
    | nil => rfl
    | cons s l =>
      cases l with
      | nil => rfl
      | cons d rest => exact absurd rfl (hl s d rest)

/-- A match does not reach to an isolated number from the left. -/
lemma not_reaching {m pre tail} (hm : isSpaced m) (heq : m = pre ++ tail)
    (hpre : pre ≠ []) (hword : pre.getLast?.any isWord = false)
    (hleft : joinsDigit pre.reverse = false) : False := by
  obtain ⟨before, s, rfl⟩ := (eq_nil_or_concat pre).resolve_left hpre
  have hsword : isWord s = false := by simpa using hword
  have hs : isSeparator s := by
    have hnum := isSpaced_all hm s (by rw [heq]; simp)
    rcases Bool.or_eq_true _ _ |>.mp hnum with hdigit | hsep
    · rw [isWord_of_isDigit hdigit] at hsword
      cases hsword
    · exact hsep
  have hdigit : before.getLast?.any isDigit := by
    rw [heq, concat_eq_append, append_assoc, singleton_append] at hm
    exact digit_before_separator hm hs
  rw [concat_eq_append, reverse_append, reverse_singleton, singleton_append,
    joinsDigit_cons, hs, head?_reverse, hdigit] at hleft
  cases hleft

section Copy

variable {pre post : JsString} (hN : isSpaced N) (hleast : 13 ≤ (withoutSeparators N).length)
  (hmost : (withoutSeparators N).length ≤ 19) (hdelim : Delimited pre post)
include hN hleast hmost hdelim

lemma card_meets : ∃ m, Meets card (pre ++ N ++ post) pre N m := by
  refine Regex.meets_of_ends (isSpaced_ne_nil hN) ?_ ?_
  · intro pos q hq
    obtain ⟨m, hm, hspac⟩ := card_matchesRuns pos q hq
    rw [hm.rest, length_append]
    have hpos := length_pos_iff.mpr (isSpaced_ne_nil hspac)
    omega
  · exact ne_nil_of_mem (mem_ends_card hN hleast hmost hdelim.1 hdelim.2)

/-- A match of the scan is an isolated number, and nothing more with it. -/
theorem card_meets_isolated (hisol : Isolated pre post) :
    Meets card (pre ++ N ++ post) pre N N := by
  have hne := isSpaced_ne_nil hN
  have hcard := first_card hN hleast hmost hdelim.1 hdelim.2 hisol.2
  have hhit : ∃ ps qs, Regex.scan card (pre ++ (N ++ post)) = ps ++ .hit N :: qs ∧
      ps.flatMap Piece.text = pre := by
    refine Regex.scan_hits hcard ⟨rfl, (getLast_or hne _).symm⟩ hne ?_
    rintro before b tail q rfl hb hq hrest
    obtain ⟨m, hm, hspac⟩ := card_matchesRuns _ _ hq
    obtain rfl : b ++ tail = m := by
      have hall := hm.rest
      rw [hrest, ← append_assoc] at hall
      exact append_cancel_right hall
    have hword := hdelim.1
    have hleft := hisol.1
    rw [getLast?_append, getLast_or hb] at hword
    rw [reverse_append] at hleft
    exact not_reaching hspac rfl hb hword (joinsDigit_append hleft)
  obtain ⟨ps, qs, hps, hpre⟩ := hhit
  have hpos := length_pos_iff.mpr hne
  refine ⟨ps, qs, by rw [append_assoc, hps], ?_⟩
  rw [hpre, length_append]
  omega

end Copy

end BoilerplateExpress.Logging

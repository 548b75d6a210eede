import BoilerplateExpress.Logging.Detectors

/-!
# The detector of account numbers

What `/\b[A-Z]{2}[0-9]{2}[A-Za-z0-9]{0,30}(?: [A-Za-z0-9]{1,4}){0,8}\b/gu` matches. A match is
a word that starts like an account number and up to eight short words behind it, all of them
whole and with single blanks between. The scan of a text starts a match at every such first
word, unless the word is itself a short one that the match of an earlier word takes along.
-/
namespace BoilerplateExpress.Logging

open Regex (Pattern Piece Pos Consumes Meets first ends)
open List

/-- Country code and check digits in capitals, and up to 30 letters and digits. -/
def isHead : JsString → Bool
  | a :: b :: c :: d :: rest =>
    isUpper a && isUpper b && isDigit c && isDigit d && rest.length ≤ 30 && rest.all isAlnum
  | _ => false

/-- One to four letters and digits. -/
def isGroup (g : JsString) : Bool := 1 ≤ g.length && g.length ≤ 4 && g.all isAlnum

/-- A word and groups behind it, each after a blank. -/
def run (w : JsString) (gs : List JsString) : JsString := w ++ gs.flatMap (32 :: ·)

/-- The groups that the greedy repetition takes, at most `n`. -/
def groupsAhead : ℕ → JsString → List JsString
  | 0, _ => []
  | _ + 1, [] => []
  | n + 1, u :: rest =>
    let group := rest.takeWhile isAlnum
    let after := rest.dropWhile isAlnum
    if u == 32 && isGroup group && !after.head?.any isWord then group :: groupsAhead n after
    else []

/-! ### Words -/

variable {u : UInt16}

lemma any_isWord_of_isAlnum {o : Option UInt16} (h : o.any isAlnum) : o.any isWord := by
  cases o with
  | none => cases h
  | some u => exact isWord_of_isAlnum h

lemma isAlnum_of_isUpper (h : isUpper u) : isAlnum u := by simp [isAlnum, isAlpha, h]

variable {w : JsString}

lemma isHead_cases (h : isHead w) :
    ∃ a b c d t, w = a :: b :: c :: d :: t ∧ isUpper a ∧ isUpper b ∧
      isDigit c ∧ isDigit d ∧ t.length ≤ 30 ∧ ∀ u ∈ t, isAlnum u := by
  cases w using isHead.fun_cases with
  | case1 a b c d t =>
    simp only [isHead, Bool.and_eq_true, decide_eq_true_eq, all_eq_true] at h
    obtain ⟨⟨⟨⟨⟨ha, hb⟩, hc⟩, hd⟩, hlen⟩, ht⟩ := h
    exact ⟨a, b, c, d, t, rfl, ha, hb, hc, hd, hlen, ht⟩
  | case2 w hnot =>
    rw [isHead] at h
    · cases h
    · exact hnot

/-- A stretch of letters and digits, not empty. -/
structure IsAlnums (w : JsString) : Prop where
  all : ∀ u ∈ w, isAlnum u = true
  ne_nil : w ≠ []

lemma isAlnums_of_isHead (h : isHead w) : IsAlnums w := by
  obtain ⟨a, b, c, d, t, rfl, ha, hb, hc, hd, -, ht⟩ := isHead_cases h
  refine ⟨?_, cons_ne_nil _ _⟩
  simp only [mem_cons]
  rintro u (rfl | rfl | rfl | rfl | hu)
  · exact isAlnum_of_isUpper ha
  · exact isAlnum_of_isUpper hb
  · exact isAlnum_of_isDigit hc
  · exact isAlnum_of_isDigit hd
  · exact ht u hu

variable {g : JsString}

lemma isGroup_alnum (h : isGroup g) : ∀ u ∈ g, isAlnum u := by
  simp only [isGroup, Bool.and_eq_true, all_eq_true] at h
  exact h.2

lemma isGroup_ne_nil (h : isGroup g) : g ≠ [] := by
  rintro rfl
  cases h

lemma isAlnums_of_isGroup (h : isGroup g) : IsAlnums g := ⟨isGroup_alnum h, isGroup_ne_nil h⟩

lemma last_of_isAlnums (h : IsAlnums w) : w.getLast?.any isAlnum := by
  rw [getLast?_eq_some_getLast h.ne_nil]
  exact h.all _ (getLast_mem h.ne_nil)

lemma any_isAlnum_of_isWord {o : Option UInt16} (h : o.any isWord = false) :
    o.any isAlnum = false := any_eq_false_of_imp (fun _ => isWord_of_isAlnum) h

/-- A group behind a blank ends in a unit of a word. -/
lemma last_of_blank_group (h : isGroup g) (prev) : ((32 :: g).getLast?.or prev).any isWord := by
  have hne := isGroup_ne_nil h
  rw [getLast?_cons, getLast?_eq_some_getLast hne]
  exact isWord_of_isAlnum (isGroup_alnum h _ (getLast_mem hne))

variable {after : JsString}

/-- The letters and digits up to something else are the word before it. -/
lemma takeWhile_word (hw : ∀ u ∈ w, isAlnum u) (haft : after.head?.any isAlnum = false) :
    (w ++ after).takeWhile isAlnum = w ∧ (w ++ after).dropWhile isAlnum = after := by
  rw [takeWhile_append_of_pos hw, dropWhile_append_of_pos hw]
  cases after with
  | nil => simp
  | cons u after =>
    have hu : isAlnum u = false := haft
    simp [hu]

/-- Two words that start alike and end before something else are the same. -/
lemma word_unique {w' after'} (hw : ∀ u ∈ w, isAlnum u) (hw' : ∀ u ∈ w', isAlnum u)
    (haft : after.head?.any isAlnum = false) (haft' : after'.head?.any isAlnum = false)
    (h : w ++ after = w' ++ after') : w = w' ∧ after = after' := by
  obtain ⟨htake, hdrop⟩ := takeWhile_word hw haft
  obtain ⟨htake', hdrop'⟩ := takeWhile_word hw' haft'
  rw [h] at htake hdrop
  exact ⟨htake.symm.trans htake', hdrop.symm.trans hdrop'⟩

/-! ### Runs -/

lemma run_cons (w g gs) : run w (g :: gs) = w ++ 32 :: run g gs := by simp [run]

lemma run_eq_intercalate (w : JsString) (gs : List JsString) :
    [32].intercalate (w :: gs) = run w gs := by
  induction gs generalizing w with
  | nil => simp [run]
  | cons g gs ih => rw [intercalate_cons_cons, ih, run_cons, append_assoc]; rfl

lemma not_blank_of_isAlnum (h : ∀ u ∈ w, isAlnum u) : 32 ∉ w :=
  fun hmem => absurd (h 32 hmem) (by decide)

variable {gs : List JsString}

lemma splitOn_run (hw : IsAlnums w) (hgs : ∀ g ∈ gs, isGroup g) :
    (run w gs).splitOn 32 = w :: gs := by
  rw [← run_eq_intercalate]
  refine splitOn_intercalate 32 ?_ (cons_ne_nil _ _)
  intro l hl
  rcases mem_cons.mp hl with rfl | hl
  · exact not_blank_of_isAlnum hw.all
  · exact not_blank_of_isAlnum (isGroup_alnum (hgs l hl))

variable {pre : JsString}

/-- A run is cut behind something that is no letter or digit only at one of its blanks. -/
lemma cut_run {mid} (hw : IsAlnums w) (hgs : ∀ g ∈ gs, isGroup g) (h : run w gs = pre ++ mid)
    (hne : pre ≠ []) (hlast : pre.getLast?.any isAlnum = false) :
    ∃ gs₁ g gs₂, gs = gs₁ ++ g :: gs₂ ∧ pre = run w gs₁ ++ [32] ∧ mid = run g gs₂ := by
  induction gs generalizing w pre with
  | nil =>
    have hpre : ∀ u ∈ pre, isAlnum u := by
      intro u hu
      refine hw.all u ?_
      rw [show w = pre ++ mid by simpa [run] using h]
      exact mem_append_left _ hu
    rw [last_of_isAlnums ⟨hpre, hne⟩] at hlast
    cases hlast
  | cons g gs ih =>
    obtain ⟨hg, hgs'⟩ := forall_mem_cons.mp hgs
    rcases append_eq_append_iff.mp h with ⟨x, rfl, hx⟩ | ⟨x, rfl, hx⟩
    · cases x with
      | nil =>
        rw [append_nil, last_of_isAlnums hw] at hlast
        cases hlast
      | cons u x =>
        obtain ⟨rfl, hrun⟩ := List.cons.inj hx
        cases x with
        | nil => exact ⟨[], g, gs, rfl, by simp [run], hrun.symm⟩
        | cons v x =>
          have hlast' : (v :: x).getLast?.any isAlnum = false := by
            rw [getLast?_append, getLast?_cons_cons, getLast?_cons] at hlast
            rw [getLast?_cons]
            exact hlast
          obtain ⟨gs₁, g', gs₂, rfl, hpre, hmid⟩ :=
            ih (isAlnums_of_isGroup hg) hgs' hrun (cons_ne_nil _ _) hlast'
          exact ⟨g :: gs₁, g', gs₂, rfl, by rw [hpre, run_cons]; simp, hmid⟩
    · have hpre : IsAlnums pre := ⟨fun u hu => hw.all u (mem_append_left _ hu), hne⟩
      rw [last_of_isAlnums hpre] at hlast
      cases hlast

/-- Groups with something behind them start with a blank. -/
lemma head_of_groups (h : after.head?.any isWord = false) :
    (gs.flatMap (32 :: ·) ++ after).head?.any isWord = false := by
  cases gs with
  | nil => exact h
  | cons g gs => rfl

/-! ### Groups ahead -/

/-- ` [A-Za-z0-9]{1,4}`. -/
def ibanGroup : Pattern UInt16 :=
  .seq (.unit (· == 32)) (.seq (.unit isAlnum) (.upTo 3 (.unit isAlnum)))

/-- Up to `n` groups and the boundary that closes the pattern. -/
def ibanTail (n : ℕ) : Pattern UInt16 := .seq (.upTo n ibanGroup) (.boundary isWord)

variable {pos q : Pos UInt16}

lemma mem_ends_ibanGroup : q ∈ ends ibanGroup pos ↔ ∃ g, isGroup g ∧ Consumes pos (32 :: g) q := by
  constructor
  · intro h
    obtain ⟨mid, hmid, h⟩ := Regex.mem_ends_seq.mp h
    obtain ⟨mid', hmid', h⟩ := Regex.mem_ends_seq.mp h
    obtain ⟨b, rest, hrest, hb, rfl⟩ := Regex.mem_ends_unit.mp hmid
    obtain ⟨c, rest', hrest', hc, rfl⟩ := Regex.mem_ends_unit.mp hmid'
    obtain ⟨m, hm, hlength, hall⟩ := Regex.mem_ends_upTo_unit.mp h
    have hblank : b = 32 := by simpa using hb
    have hgroup : isGroup (c :: m) := by
      simp only [isGroup, length_cons, Bool.and_eq_true, decide_eq_true_eq, all_eq_true,
        forall_mem_cons]
      exact ⟨by omega, hc, hall⟩
    have hstart : Consumes pos [32, c] ⟨some c, rest'⟩ := by
      refine ⟨?_, rfl⟩
      rw [hrest, hblank]
      exact congrArg (32 :: ·) hrest'
    exact ⟨c :: m, hgroup, Regex.consumes_trans hstart hm⟩
  · rintro ⟨g, hgroup, hconsumes⟩
    obtain ⟨c, m, rfl⟩ := exists_cons_of_ne_nil (isGroup_ne_nil hgroup)
    obtain ⟨hc, hall⟩ := forall_mem_cons.mp (isGroup_alnum hgroup)
    have hlength : m.length ≤ 3 := by
      simp only [isGroup, length_cons, Bool.and_eq_true, decide_eq_true_eq] at hgroup
      omega
    have hrest : pos.rest = 32 :: c :: (m ++ q.rest) := hconsumes.rest
    refine Regex.mem_ends_seq.mpr ⟨⟨some 32, c :: (m ++ q.rest)⟩, ?_, ?_⟩
    · exact Regex.mem_ends_unit.mpr ⟨32, _, hrest, by decide, rfl⟩
    · refine Regex.mem_ends_seq.mpr ⟨⟨some c, m ++ q.rest⟩, ?_, ?_⟩
      · exact Regex.mem_ends_unit.mpr ⟨c, _, rfl, hc, rfl⟩
      · refine Regex.mem_ends_upTo_unit.mpr ⟨m, ⟨rfl, ?_⟩, hlength, hall⟩
        rw [hconsumes.prev, getLast?_cons_cons, Regex.getLast?_cons_or]

lemma ibanGroup_consumes (pos q) (h : q ∈ ends ibanGroup pos) :
    q.rest.length < pos.rest.length := by
  obtain ⟨g, _, hcons⟩ := mem_ends_ibanGroup.mp h
  rw [hcons.rest]
  simp only [length_cons, length_append]
  omega

/-- Inside a word the pattern does not go on. -/
lemma ends_ibanTail_inside (hprev : pos.prev.any isWord)
    (hnext : pos.rest.head?.any isWord) (n) : ends (ibanTail n) pos = [] := by
  have hboun : ends (.boundary isWord) pos = [] := by simp [ends, Pos.atBoundary, hprev, hnext]
  cases n with
  | zero => rw [ibanTail, Regex.ends_upTo_zero, hboun]
  | succ n =>
    have hgroup : ends ibanGroup pos = [] := by
      refine eq_nil_iff_forall_not_mem.mpr ?_
      intro q hq
      obtain ⟨g, _, hcons⟩ := mem_ends_ibanGroup.mp hq
      rw [hcons.rest] at hnext
      have hblank : isWord 32 := hnext
      exact absurd hblank (by decide)
    rw [ibanTail, Regex.ends_upTo_succ ibanGroup_consumes, hgroup, hboun]
    rfl

lemma ends_boundary_behind (hprev : pos.prev.any isWord)
    (hnext : pos.rest.head?.any isWord = false) : ends (.boundary isWord) pos = [pos] := by
  simp [ends, Pos.atBoundary, hprev, hnext]

variable {n : ℕ}

/-- A group from which the pattern goes on is the whole word behind a blank. -/
lemma group_is_word {mid} (hmid : mid ∈ ends ibanGroup pos) (hgoes : ends (ibanTail n) mid ≠ []) :
    ∃ g, isGroup g ∧ Consumes pos (32 :: g) mid ∧ mid.rest.head?.any isWord = false := by
  obtain ⟨g, hgroup, hcons⟩ := mem_ends_ibanGroup.mp hmid
  refine ⟨g, hgroup, hcons, ?_⟩
  have hprev : mid.prev.any isWord := by
    rw [hcons.prev]
    exact last_of_blank_group hgroup pos.prev
  cases hnext : mid.rest.head?.any isWord with
  | false => rfl
  | true => exact absurd (ends_ibanTail_inside hprev hnext n) hgoes

lemma groupsAhead_cons (hgroup : isGroup g) (haft : after.head?.any isWord = false) (n) :
    groupsAhead (n + 1) (32 :: (g ++ after)) = g :: groupsAhead n after := by
  obtain ⟨htake, hdrop⟩ := takeWhile_word (isGroup_alnum hgroup) (any_isAlnum_of_isWord haft)
  simp only [groupsAhead, htake, hdrop, hgroup, haft]
  rfl

/-- A group stands ahead: a whole word behind a blank. -/
def GroupAhead (rest g after : JsString) : Prop :=
  rest = 32 :: (g ++ after) ∧ isGroup g = true ∧ after.head?.any isWord = false

lemma groupsAhead_nil {rest} (h : ∀ g after, ¬ GroupAhead rest g after) (n) : groupsAhead n rest =
    [] := by
  cases n with
  | zero => rfl
  | succ n =>
    cases rest with
    | nil => rfl
    | cons u rest =>
      simp only [groupsAhead]
      split
      · rename_i hcond
        simp only [Bool.and_eq_true, beq_iff_eq, Bool.not_eq_true'] at hcond
        obtain ⟨⟨rfl, hgroup⟩, hafter⟩ := hcond
        refine absurd ⟨?_, hgroup, hafter⟩ (h (rest.takeWhile isAlnum) (rest.dropWhile isAlnum))
        rw [takeWhile_append_dropWhile]
      · rfl

lemma groupsAhead_groups (n rest) : ∀ g ∈ groupsAhead n rest, isGroup g := by
  induction n, rest using groupsAhead.induct with
  | case1 rest => simp [groupsAhead]
  | case2 n => simp [groupsAhead]
  | case3 n u rest group after hcond ih =>
    rw [groupsAhead, if_pos hcond]
    simp only [Bool.and_eq_true] at hcond
    exact forall_mem_cons.mpr ⟨hcond.1.2, ih⟩
  | case4 n u rest group after hcond =>
    rw [groupsAhead, if_neg hcond]
    simp

/-- Groups that stand ahead are taken, where there is room for them. -/
lemma groupsAhead_append (hgs : ∀ g ∈ gs, isGroup g)
    (haft : after.head?.any isWord = false) (hlen : gs.length ≤ n) :
    gs <+: groupsAhead n (gs.flatMap (32 :: ·) ++ after) := by
  induction gs generalizing n with
  | nil => exact nil_prefix
  | cons g gs ih =>
    obtain ⟨hg, hgs'⟩ := forall_mem_cons.mp hgs
    cases n with
    | zero => cases hlen
    | succ n =>
      rw [flatMap_cons, append_assoc, cons_append, groupsAhead_cons hg (head_of_groups haft)]
      exact cons_prefix_cons.mpr ⟨rfl, ih hgs' (Nat.le_of_succ_le_succ hlen)⟩

lemma first_ibanTail (n pos) (hprev : pos.prev.any isWord)
    (hnext : pos.rest.head?.any isWord = false) :
    ∃ q, first (ibanTail n) pos = some q ∧
      Consumes pos ((groupsAhead n pos.rest).flatMap (32 :: ·)) q := by
  induction n generalizing pos with
  | zero =>
    refine ⟨pos, ?_, by simpa [groupsAhead] using Regex.consumes_refl pos⟩
    rw [first, ibanTail, Regex.ends_upTo_zero, ends_boundary_behind hprev hnext]
    rfl
  | succ n ih =>
    have hunr : ends (ibanTail (n + 1)) pos =
        ends (.seq ibanGroup (ibanTail n)) pos ++ [pos] := by
      rw [ibanTail, Regex.ends_upTo_succ ibanGroup_consumes, ends_boundary_behind hprev hnext]
      rfl
    by_cases hahead : ∃ g after, GroupAhead pos.rest g after
    · obtain ⟨g, after, hrest, hgroup, haft⟩ := hahead
      have hstep : Consumes pos (32 :: g) ⟨(32 :: g).getLast?.or pos.prev, after⟩ := ⟨hrest, rfl⟩
      have hmid := mem_ends_ibanGroup.mpr ⟨g, hgroup, hstep⟩
      obtain ⟨q, hq, hcons⟩ := ih ⟨_, after⟩ (last_of_blank_group hgroup pos.prev) haft
      refine ⟨q, ?_, ?_⟩
      · have hfst : first (.seq ibanGroup (ibanTail n)) pos = some q := by
          refine Regex.first_seq_of_unique hmid hq ?_
          intro other hoth hgoes
          obtain ⟨g', hgroup', hcons', haft'⟩ := group_is_word hoth hgoes
          have hsame : g' ++ other.rest = g ++ after :=
            (List.cons.inj (hcons'.rest.symm.trans hrest)).2
          obtain ⟨rfl, hrest'⟩ := word_unique (isGroup_alnum hgroup') (isGroup_alnum hgroup)
            (any_isAlnum_of_isWord haft') (any_isAlnum_of_isWord haft) hsame
          exact Pos.ext hcons'.prev hrest'
        rw [first] at hfst ⊢
        rw [hunr, head?_append, hfst]
        rfl
      · rw [hrest, groupsAhead_cons hgroup haft]
        exact Regex.consumes_trans hstep hcons
    · have hnone : ends (.seq ibanGroup (ibanTail n)) pos = [] := by
        refine eq_nil_iff_forall_not_mem.mpr ?_
        intro q hq
        obtain ⟨mid, hmid, hq⟩ := Regex.mem_ends_seq.mp hq
        obtain ⟨g, hgroup, hcons, haft⟩ := group_is_word hmid (ne_nil_of_mem hq)
        exact hahead ⟨g, mid.rest, hcons.rest, hgroup, haft⟩
      refine ⟨pos, ?_, ?_⟩
      · rw [first, hunr, hnone]
        rfl
      · rw [groupsAhead_nil (fun g after h => hahead ⟨g, after, h⟩)]
        exact Regex.consumes_refl pos

/-! ### Matches -/

lemma first_unit {p} (hu : p u) (prev) (rest : JsString) :
    first (.unit p) ⟨prev, u :: rest⟩ = some ⟨some u, rest⟩ := by simp [first, ends, hu]

/-- From inside a word the pattern takes the rest of the word, and the groups ahead of it. -/
lemma first_word {last} {t : JsString} (hprev : pos.prev.any isWord)
    (ht : ∀ u ∈ t, isAlnum u) (hlen : t.length ≤ n) (hlast : Consumes pos t last)
    (hpost : last.rest.head?.any isWord = false) (hq : first (ibanTail 8) last = some q) :
    first (.seq (.upTo n (.unit isAlnum)) (ibanTail 8)) pos = some q := by
  refine Regex.first_seq_of_unique (Regex.mem_ends_upTo_unit.mpr ⟨t, hlast, hlen, ht⟩) hq ?_
  intro other hoth hgoes
  obtain ⟨m, hm, -, hall⟩ := Regex.mem_ends_upTo_unit.mp hoth
  have hbeh : other.prev.any isWord := by
    rw [hm.prev]
    by_cases hne : m = []
    · rw [hne]
      exact hprev
    · rw [getLast_or hne]
      exact any_isWord_of_isAlnum (last_of_isAlnums ⟨hall, hne⟩)
  have haft : other.rest.head?.any isWord = false := by
    cases hnext : other.rest.head?.any isWord with
    | false => rfl
    | true => exact absurd (ends_ibanTail_inside hbeh hnext 8) hgoes
  obtain ⟨rfl, hrest⟩ := word_unique hall ht (any_isAlnum_of_isWord haft)
    (any_isAlnum_of_isWord hpost) (hm.rest.symm.trans hlast.rest)
  exact Pos.ext (hm.prev.trans hlast.prev.symm) hrest

variable {post : JsString} {prev : Option UInt16}

lemma first_iban (hw : isHead w) (hpost : post.head?.any isWord = false)
    (hprev : prev.any isWord = false) :
    ∃ q, first iban ⟨prev, w ++ post⟩ = some q ∧
      Consumes ⟨prev, w ++ post⟩ (run w (groupsAhead 8 post)) q := by
  have hlast := any_isWord_of_isAlnum (last_of_isAlnums (isAlnums_of_isHead hw))
  obtain ⟨q, hq, hcons⟩ := first_ibanTail 8 ⟨w.getLast?, post⟩ hlast hpost
  have hwhole : Consumes ⟨prev, w ++ post⟩ w ⟨w.getLast?, post⟩ :=
    ⟨rfl, (getLast_or ((isAlnums_of_isHead hw).ne_nil) prev).symm⟩
  refine ⟨q, ?_, Regex.consumes_trans hwhole hcons⟩
  obtain ⟨a, b, c, d, t, rfl, ha, hb, hc, hd, hlen, ht⟩ := isHead_cases hw
  have hboun : first (.boundary isWord) ⟨prev, a :: b :: c :: d :: t ++ post⟩ =
      some ⟨prev, a :: b :: c :: d :: t ++ post⟩ := by
    have haw : isWord a := isWord_of_isAlnum (isAlnum_of_isUpper ha)
    simp [first, ends, Pos.atBoundary, hprev, haw]
  refine Regex.first_seq_of hboun (Regex.first_seq_of (first_unit ha _ _) ?_)
  refine Regex.first_seq_of (first_unit hb _ _) (Regex.first_seq_of (first_unit hc _ _) ?_)
  refine Regex.first_seq_of (first_unit hd _ _) ?_
  refine first_word (isWord_of_isDigit hd) ht hlen ⟨rfl, ?_⟩ hpost hq
  rw [getLast?_cons_cons, getLast?_cons_cons, getLast?_cons_cons, ← Regex.getLast?_cons_or d t none,
    Option.or_none]

/-- A match is a first word and groups, from a boundary to a boundary. -/
structure IsMatch (pos : Pos UInt16) (w : JsString) (gs : List JsString) (q : Pos UInt16) :
    Prop where
  head : isHead w = true
  groups : ∀ g ∈ gs, isGroup g = true
  length : gs.length ≤ 8
  consumes : Consumes pos (run w gs) q
  prev : pos.prev.any isWord = false
  next : q.rest.head?.any isWord = false

lemma iban_stops : Regex.Leads (fun _ => True) (Regex.Stopped isWord) iban := by
  have hdigit {A} : Regex.Leads A (Regex.Behind isWord) (.unit isDigit) :=
    Regex.leads_unit (fun _ => isWord_of_isDigit)
  have halnum {A} : Regex.Leads A (Regex.Behind isWord) (.unit isAlnum) :=
    Regex.leads_unit (fun _ => isWord_of_isAlnum)
  have hgroup : Regex.Leads (Regex.Behind isWord) (Regex.Behind isWord)
      (.seq (.unit (· == 32)) (.seq (.unit isAlnum) (.upTo 3 (.unit isAlnum)))) :=
    Regex.leads_last (Regex.leads_seq halnum (Regex.leads_upTo halnum 3))
  iterate 4 apply Regex.leads_last
  refine Regex.leads_seq hdigit (Regex.leads_seq (Regex.leads_upTo halnum 30) ?_)
  exact Regex.leads_seq (Regex.leads_upTo hgroup 8) (Regex.leads_boundary isWord)

lemma isMatch_of_ends (hmatch : q ∈ ends iban pos) : ∃ w gs, IsMatch pos w gs q := by
  have hnext : q.rest.head?.any isWord = false := iban_stops pos q trivial hmatch
  obtain ⟨start, hstart, h⟩ := Regex.mem_ends_seq.mp hmatch
  obtain ⟨hboun, rfl⟩ := Regex.mem_ends_boundary.mp hstart
  obtain ⟨p₁, h₁, h⟩ := Regex.mem_ends_seq.mp h
  obtain ⟨p₂, h₂, h⟩ := Regex.mem_ends_seq.mp h
  obtain ⟨p₃, h₃, h⟩ := Regex.mem_ends_seq.mp h
  obtain ⟨p₄, h₄, h⟩ := Regex.mem_ends_seq.mp h
  obtain ⟨a, r₁, hr₁, ha, rfl⟩ := Regex.mem_ends_unit.mp h₁
  obtain ⟨b, r₂, hr₂, hb, rfl⟩ := Regex.mem_ends_unit.mp h₂
  obtain ⟨c, r₃, hr₃, hc, rfl⟩ := Regex.mem_ends_unit.mp h₃
  obtain ⟨d, r₄, hr₄, hd, rfl⟩ := Regex.mem_ends_unit.mp h₄
  obtain ⟨p₅, h₅, h⟩ := Regex.mem_ends_seq.mp h
  obtain ⟨p₆, h₆, h⟩ := Regex.mem_ends_seq.mp h
  obtain ⟨-, rfl⟩ := Regex.mem_ends_boundary.mp h
  obtain ⟨t, ht, hlen, hall⟩ := Regex.mem_ends_upTo_unit.mp h₅
  obtain ⟨gs, htail, hcnt, hgs⟩ :=
    Regex.greedy_consumes (fun _ _ hq => mem_ends_ibanGroup.mp hq) h₆
  have hfour : Consumes start [a, b, c, d] ⟨some d, r₄⟩ := by
    refine ⟨?_, rfl⟩
    rw [hr₁]
    exact congrArg (a :: ·) (hr₂.trans (congrArg (b :: ·) (hr₃.trans (congrArg (c :: ·) hr₄))))
  refine ⟨a :: b :: c :: d :: t, gs, ?_, hgs, hcnt, ?_, ?_, hnext⟩
  · simp only [isHead, ha, hb, hc, hd, Bool.true_and, Bool.and_eq_true, decide_eq_true_eq,
      all_eq_true]
    exact ⟨hlen, hall⟩
  · exact Regex.consumes_trans (Regex.consumes_trans hfour ht) htail
  · have haw : isWord a := isWord_of_isAlnum (isAlnum_of_isUpper ha)
    simpa [Pos.atBoundary, hr₁, haw] using hboun

/-! ### The scan -/

/-- What stands before is a first word, perhaps up to seven groups, and a blank: a match from
there takes a group behind it along. -/
def Headed (pre : JsString) : Prop :=
  ∃ before w gs, pre = before ++ (run w gs ++ [32]) ∧ isHead w = true ∧
    (∀ g ∈ gs, isGroup g = true) ∧ gs.length ≤ 7 ∧ before.getLast?.any isWord = false

/-- A match that reaches behind `pre` starts there, and takes the word behind it as a group. -/
lemma headed_of_reaching {rest w₀ mid before} (hmatch : IsMatch ⟨before.getLast?, rest⟩ w₀ gs q)
    (hw : IsAlnums w)
    (hpost : post.head?.any isWord = false) (hrun : run w₀ gs = pre ++ mid)
    (hmid : w ++ post = mid ++ q.rest) (hne : pre ≠ []) (hword : pre.getLast?.any isWord = false) :
    isGroup w ∧ Headed (before ++ pre) := by
  obtain ⟨gs₁, g, gs₂, rfl, rfl, rfl⟩ := cut_run (isAlnums_of_isHead hmatch.head) hmatch.groups hrun
    hne (any_isAlnum_of_isWord hword)
  have hg : isGroup g := hmatch.groups g (by simp)
  rw [run, append_assoc] at hmid
  obtain ⟨rfl, -⟩ := word_unique (isGroup_alnum hg) hw.all
    (any_isAlnum_of_isWord (head_of_groups hmatch.next)) (any_isAlnum_of_isWord hpost) hmid.symm
  have hlen : gs₁.length ≤ 7 := by
    have hcnt := hmatch.length
    simp only [length_append, length_cons] at hcnt
    omega
  refine ⟨hg, before, w₀, gs₁, rfl, hmatch.head, ?_, hlen, hmatch.prev⟩
  exact fun g' hg' => hmatch.groups g' (mem_append_left _ hg')

lemma run_ne_nil (hw : isHead w) (gs) : run w gs ≠ [] :=
  fun hnil => (isAlnums_of_isHead hw).ne_nil (append_eq_nil_iff.mp hnil).1

lemma iban_consumes (pos q : Pos UInt16) (h : q ∈ ends iban pos) :
    q.rest.length < pos.rest.length := by
  obtain ⟨w, gs, hmatch⟩ := isMatch_of_ends h
  rw [hmatch.consumes.rest, length_append]
  have hpos := length_pos_iff.mpr (run_ne_nil hmatch.head gs)
  omega

section Head

variable {pre : JsString} (hw : isHead w) (hpre : pre.getLast?.any isWord = false)
  (hpost : post.head?.any isWord = false)
include hw hpre hpost

lemma iban_meets : ∃ m, Meets iban (pre ++ w ++ post) pre w m := by
  refine Regex.meets_of_ends (isAlnums_of_isHead hw).ne_nil iban_consumes ?_
  obtain ⟨q, hfst, -⟩ := first_iban hw hpost hpre
  exact ne_nil_of_mem (Regex.first_mem hfst)

/-- The scan starts a match at a first word that no earlier match takes along. -/
theorem hit_of_head (hfree : isGroup w → ¬ Headed pre) :
    ∃ ps ps', Regex.scan iban (pre ++ w ++ post) =
        ps ++ .hit (run w (groupsAhead 8 post)) :: ps' ∧ ps.flatMap Piece.text = pre := by
  obtain ⟨q, hfst, hcons⟩ := first_iban hw hpost hpre
  rw [append_assoc]
  refine Regex.scan_hits hfst hcons (run_ne_nil hw _) ?_
  rintro before b mid q' rfl hb hq' hmid
  obtain ⟨w₀, gs, hmatch⟩ := isMatch_of_ends hq'
  have hrun : run w₀ gs = b ++ mid := by
    have hall := hmatch.consumes.rest
    rw [hmid, ← append_assoc] at hall
    exact (append_cancel_right hall).symm
  rw [getLast?_append, getLast_or hb] at hpre
  obtain ⟨hgroup, hhead⟩ :=
    headed_of_reaching hmatch (isAlnums_of_isHead hw) hpost hrun hmid hb hpre
  exact hfree hgroup hhead

end Head

end BoilerplateExpress.Logging

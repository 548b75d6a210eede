import BoilerplateExpress.Regex

/-!
# Detectors that put markers into a text

A detector looks for the matches of a pattern and puts a marker in place of each match, or of a
part of it; some matches it leaves as they are. Detectors run one after the other, each over what
the one before has made of the text.

A marker is closed by two units that no pattern sees. So a later detector looks at each stretch
between two markers by itself (`runAll_cons`), and a redacted text holds what the stretches hold
that the detectors leave (`runAll_exists_iff`).
-/
namespace BoilerplateExpress.Marking

open Regex (Pattern Piece scan replaceAll)
open List

structure Detector (α : Type*) where
  pattern : Pattern α
  marker : List α
  /-- What is left of a match before the marker and behind it, or `none` for a match that is
  left as it is. -/
  split : List α → Option (List α × List α)

section

variable {α : Type*}

def Detector.replace (d : Detector α) (m : List α) : List α :=
  match d.split m with
  | none => m
  | some (front, back) => front ++ d.marker ++ back

def Detector.run (d : Detector α) (text : List α) : List α := replaceAll d.pattern d.replace text

def runAll (ds : List (Detector α)) (text : List α) : List α :=
  ds.foldl (fun text d => d.run text) text

/-- The stretches that are left of the pieces of a scan, the first one behind `start`. -/
def leavesFrom (split : List α → Option (List α × List α)) :
    List (Piece α) → List α → List (List α)
  | [], start => [start]
  | .skip c :: ps, start => leavesFrom split ps (start ++ [c])
  | .hit m :: ps, start =>
    match split m with
    | none => leavesFrom split ps (start ++ m)
    | some (front, back) => (start ++ front) :: leavesFrom split ps back

/-- The stretches that a detector leaves of a text, between its markers. -/
def Detector.leaves (d : Detector α) (text : List α) : List (List α) :=
  leavesFrom d.split (scan d.pattern text) []

/-- The stretches that detectors leave of a text, one after the other. -/
def leavesAll : List (Detector α) → List α → List (List α)
  | [], text => [text]
  | d :: ds, text => (d.leaves text).flatMap (leavesAll ds)

/-- The marker stands between `c` and `e`, and the pattern sees neither of them nor matches
anything in between. -/
def Inert (c e : α) (r : Pattern α) (marker : List α) : Prop :=
  ∃ inner, marker = c :: (inner ++ [e]) ∧ r.sees c = false ∧ r.sees e = false ∧
    scan r inner = inner.map .skip

/-- No detector looks into a marker. -/
def Closed (c e : α) (ds : List (Detector α)) : Prop :=
  ∀ d ∈ ds, ∀ d' ∈ ds, Inert c e d'.pattern d.marker

/-! ### Stretches -/

lemma flatMap_intercalate {β : Type*} (f : α → List β) (sep : List α) (ss : List (List α)) :
    (sep.intercalate ss).flatMap f = (sep.flatMap f).intercalate (ss.map (·.flatMap f)) := by
  induction ss with
  | nil => rfl
  | cons s ss ih =>
    cases ss with
    | nil => simp
    | cons s' ss =>
      rw [map_cons, map_cons, intercalate_cons_cons, intercalate_cons_cons, flatMap_append,
        flatMap_append, ih, map_cons]

variable {split : List α → Option (List α × List α)}

lemma leavesFrom_ne_nil (ps : List (Piece α)) (start : List α) :
    leavesFrom split ps start ≠ [] := by
  induction ps generalizing start with
  | nil => exact cons_ne_nil _ _
  | cons p ps ih =>
    cases p with
    | skip c => exact ih _
    | hit m =>
      rw [leavesFrom]
      split
      · exact ih _
      · exact cons_ne_nil _ _

/-- What a detector makes of a text is what it leaves of it, with markers in between. -/
theorem run_eq_intercalate (d : Detector α) (text : List α) :
    d.run text = d.marker.intercalate (d.leaves text) := by
  have hpieces : ∀ (ps : List (Piece α)) (start : List α),
      start ++ ps.flatMap (Piece.replace d.replace) =
        d.marker.intercalate (leavesFrom d.split ps start) := by
    intro ps
    induction ps with
    | nil => simp [leavesFrom]
    | cons p ps ih =>
      intro start
      cases p with
      | skip c => simp [leavesFrom, Piece.replace, ← ih]
      | hit m =>
        cases hm : d.split m with
        | none => simp [leavesFrom, Piece.replace, Detector.replace, hm, ← ih]
        | some parts =>
          obtain ⟨front, back⟩ := parts
          have hne : leavesFrom d.split ps back ≠ [] := leavesFrom_ne_nil ps back
          obtain ⟨s, ss, hss⟩ := exists_cons_of_ne_nil hne
          have hback := ih back
          rw [hss] at hback
          simp [leavesFrom, Piece.replace, Detector.replace, hm, hss, ← hback]
  exact hpieces _ []

variable {c e : α} {r : Pattern α} {marker : List α}

/-- A scan of stretches with inert markers in between scans each of the stretches. -/
theorem scan_intercalate (h : Inert c e r marker) (ss : List (List α)) :
    scan r (marker.intercalate ss) = (marker.map .skip).intercalate (ss.map (scan r)) := by
  obtain ⟨inner, rfl, hc, he, hinner⟩ := h
  induction ss with
  | nil => rfl
  | cons s ss ih =>
    cases ss with
    | nil => simp
    | cons s' ss =>
      have hcut : scan r (s ++ c :: (inner ++ [e]) ++ (c :: (inner ++ [e])).intercalate (s' :: ss)) =
          scan r s ++ (c :: (inner ++ [e])).map .skip ++
            scan r ((c :: (inner ++ [e])).intercalate (s' :: ss)) := by
        rw [append_assoc, cons_append, append_assoc, singleton_append, Regex.scan_cut hc,
          Regex.scan_cut he, hinner]
        simp
      rw [intercalate_cons_cons, hcut, ih]
      exact (intercalate_cons_cons ..).symm

lemma run_intercalate {d : Detector α} (h : Inert c e d.pattern marker) (ss : List (List α)) :
    d.run (marker.intercalate ss) = marker.intercalate (ss.map d.run) := by
  have hskip : (marker.map .skip).flatMap (Piece.replace d.replace) = marker := by
    rw [flatMap_map]
    exact flatMap_singleton' marker
  rw [Detector.run, replaceAll, scan_intercalate h, flatMap_intercalate, hskip, map_map]
  rfl

variable {ds : List (Detector α)}

lemma runAll_intercalate (h : ∀ d ∈ ds, Inert c e d.pattern marker) (ss : List (List α)) :
    runAll ds (marker.intercalate ss) = marker.intercalate (ss.map (runAll ds)) := by
  induction ds generalizing ss with
  | nil =>
    have hid : runAll ([] : List (Detector α)) = id := rfl
    rw [hid, map_id]
    rfl
  | cons d ds ih =>
    obtain ⟨hd, hds⟩ := forall_mem_cons.mp h
    rw [runAll, foldl_cons, ← runAll, run_intercalate hd, ih hds, map_map]
    rfl

/-- The later detectors look at each stretch that the first one leaves by itself. -/
theorem runAll_cons {d} (h : ∀ d' ∈ ds, Inert c e d'.pattern d.marker)
    (text : List α) :
    runAll (d :: ds) text = d.marker.intercalate ((d.leaves text).map (runAll ds)) := by
  rw [runAll, foldl_cons, ← runAll, run_eq_intercalate, runAll_intercalate h]

/-- What holds of stretches with a marker in between exactly if it holds of one of them, holds of
a redacted text exactly if it holds of a stretch that is left. -/
theorem runAll_exists_iff {P : List α → Prop} (h : Closed c e ds)
    (hP : ∀ d ∈ ds, ∀ ss, ss ≠ [] → (P (d.marker.intercalate ss) ↔ ∃ s ∈ ss, P s)) (text : List α) :
    P (runAll ds text) ↔ ∃ s ∈ leavesAll ds text, P s := by
  induction ds generalizing text with
  | nil => simp [runAll, leavesAll]
  | cons d ds ih =>
    obtain ⟨hd, hds⟩ := forall_mem_cons.mp hP
    have hinert : ∀ d' ∈ ds, Inert c e d'.pattern d.marker :=
      fun d' hd' => h d mem_cons_self d' (mem_cons_of_mem _ hd')
    have hclosed : Closed c e ds :=
      fun x hx y hy => h x (mem_cons_of_mem _ hx) y (mem_cons_of_mem _ hy)
    have hne : (d.leaves text).map (runAll ds) ≠ [] := by
      rw [Ne, map_eq_nil_iff]
      exact leavesFrom_ne_nil _ _
    rw [runAll_cons hinert, hd _ hne]
    simp only [mem_map, exists_exists_and_eq_and, ih hclosed hds, leavesAll, mem_flatMap]
    constructor
    · rintro ⟨s, hs, t, ht, hPt⟩
      exact ⟨t, ⟨s, hs, ht⟩, hPt⟩
    · rintro ⟨t, ⟨s, hs, ht⟩, hPt⟩
      exact ⟨s, hs, t, ht, hPt⟩

lemma leavesAll_append (ds ds' : List (Detector α)) (text : List α) :
    leavesAll (ds ++ ds') text = (leavesAll ds text).flatMap (leavesAll ds') := by
  induction ds generalizing text with
  | nil => simp [leavesAll]
  | cons d ds ih =>
    rw [cons_append, leavesAll, leavesAll, flatMap_assoc]
    exact flatMap_congr fun s _ => ih s

/-! ### Copies of a stretch -/

variable {N : List α}

lemma infix_cut {a b} (hN : N ≠ []) (hc : c ∉ N) :
    N <:+: a ++ c :: b ↔ N <:+: a ∨ N <:+: b := by
  constructor
  · rintro ⟨pre, post, h⟩
    rw [append_assoc] at h
    rcases append_eq_append_iff.mp h with ⟨x, rfl, hx⟩ | ⟨x, rfl, hx⟩
    · rcases append_eq_append_iff.mp hx with ⟨y, rfl, -⟩ | ⟨y, rfl, hy⟩
      · exact .inl ⟨pre, y, append_assoc ..⟩
      · cases y with
        | nil => exact .inl ⟨pre, [], by simp⟩
        | cons d y =>
          obtain ⟨rfl, -⟩ := List.cons.inj hy
          exact absurd (mem_append_right _ mem_cons_self) hc
    · cases x with
      | nil =>
        obtain ⟨d, N, rfl⟩ := exists_cons_of_ne_nil hN
        obtain ⟨rfl, -⟩ := List.cons.inj hx
        exact absurd mem_cons_self hc
      | cons d x =>
        obtain ⟨rfl, rfl⟩ := List.cons.inj hx
        exact .inr ⟨x, post, append_assoc ..⟩
  · rintro (h | h)
    · exact h.trans (prefix_append a _).isInfix
    · exact h.trans ((suffix_cons c b).trans (suffix_append a _)).isInfix

/-- A stretch without the ends of a marker stands in none and across none. -/
theorem infix_intercalate {inner} (hN : N ≠ []) (hc : c ∉ N) (he : e ∉ N)
    (hinner : ¬ N <:+: inner) {ss} (hss : ss ≠ []) :
    N <:+: (c :: (inner ++ [e])).intercalate ss ↔ ∃ s ∈ ss, N <:+: s := by
  induction ss with
  | nil => exact absurd rfl hss
  | cons s ss ih =>
    cases ss with
    | nil => simp
    | cons s' ss =>
      rw [intercalate_cons_cons, append_assoc, cons_append, append_assoc, singleton_append,
        infix_cut hN hc, infix_cut hN he, ih (cons_ne_nil _ _)]
      simp [hinner]

/-- The detector hides a unit of the stretch `s` that stands behind `pre` in the text. -/
def Detector.Hides (d : Detector α) (text pre s : List α) : Prop :=
  ∃ ps m qs front back, scan d.pattern text = ps ++ .hit m :: qs ∧ d.split m = some (front, back) ∧
    (ps.flatMap Piece.text ++ front).length < (pre ++ s).length ∧
      (pre ++ back).length < (ps.flatMap Piece.text ++ m).length

/-- What a detector leaves of a match is the start and the end of the match. -/
def Detector.Cuts (d : Detector α) : Prop :=
  ∀ m front back, d.split m = some (front, back) → ∃ old, m = front ++ old ++ back

/-- Of the pieces behind `start` no unit of the stretch `s` behind `pre` is hidden. -/
def Spared (split : List α → Option (List α × List α)) (ps : List (Piece α))
    (start pre s : List α) : Prop :=
  ∀ xs m ys front back, ps = xs ++ .hit m :: ys → split m = some (front, back) →
    (pre ++ s).length ≤ (start ++ xs.flatMap Piece.text ++ front).length ∨
      (start ++ xs.flatMap Piece.text ++ m).length ≤ (pre ++ back).length

variable {ps : List (Piece α)} {start pre : List α}

/-- A piece that hides nothing joins what stands before it. -/
theorem spared_join {p} (hp : ∀ m, p = .hit m → split m = none) :
    Spared split (p :: ps) start pre N ↔ Spared split ps (start ++ p.text) pre N := by
  constructor
  · intro h xs m ys front back hps hsplit
    simpa using h (p :: xs) m ys front back (congrArg (p :: ·) hps) hsplit
  · intro h xs m ys front back hps hsplit
    cases xs with
    | nil =>
      obtain ⟨rfl, -⟩ := List.cons.inj hps
      cases (hp m rfl).symm.trans hsplit
    | cons x xs =>
      obtain ⟨rfl, hps'⟩ := List.cons.inj hps
      simpa using h xs m ys front back hps' hsplit

/-- Where a match is cut, a stretch is spared in front of what is hidden or behind it. -/
theorem spared_cut {m front old back} (hm : split m = some (front, back))
    (hcut : m = front ++ old ++ back) :
    Spared split (.hit m :: ps) start pre N ↔
      (pre ++ N).length ≤ (start ++ front).length ∨
        (start ++ front ++ old).length ≤ pre.length ∧
          Spared split ps back (pre.drop (start ++ front ++ old).length) N := by
  constructor
  · intro h
    rcases h [] m ps front back rfl hm with hle | hle
    · exact .inl (by simpa using hle)
    · refine .inr ⟨by simp [hcut] at hle ⊢; omega, ?_⟩
      intro xs m' ys front' back' hps hsplit
      have hrest := h (.hit m :: xs) m' ys front' back' (congrArg (_ :: ·) hps) hsplit
      simp [hcut, Piece.text] at hle hrest ⊢
      omega
  · intro h xs m' ys front' back' hps hsplit
    cases xs with
    | nil =>
      obtain ⟨⟨⟩, -⟩ := List.cons.inj hps
      cases hm.symm.trans hsplit
      rcases h with hle | ⟨hle, -⟩
      · exact .inl (by simpa using hle)
      · exact .inr (by simp [hcut] at hle ⊢; omega)
    | cons x xs =>
      obtain ⟨rfl, hps'⟩ := List.cons.inj hps
      rcases h with hle | ⟨hle, hspared⟩
      · exact .inl (by simp [hcut, Piece.text] at hle ⊢; omega)
      · have hrest := hspared xs m' ys front' back' hps' hsplit
        simp [hcut, Piece.text] at hle hrest ⊢
        omega

lemma infix_leavesFrom_iff
    (hcuts : ∀ m front back, split m = some (front, back) → ∃ old, m = front ++ old ++ back)
    (ps : List (Piece α)) (start : List α) : (∃ s ∈ leavesFrom split ps start, N <:+: s) ↔
      ∃ pre post, start ++ ps.flatMap Piece.text = pre ++ N ++ post ∧
        Spared split ps start pre N := by
  induction ps generalizing start with
  | nil =>
    have hnil : ∀ pre, Spared split [] start pre N := by
      intro pre xs m ys front back hps
      exact absurd hps.symm (by simp)
    simp only [leavesFrom, mem_singleton, exists_eq_left, flatMap_nil, append_nil, hnil, and_true]
    exact exists_congr fun pre => exists_congr fun post => eq_comm
  | cons p ps ih =>
    have hjoin (hp : ∀ m, p = .hit m → split m = none) :
        (∃ s ∈ leavesFrom split ps (start ++ p.text), N <:+: s) ↔
          ∃ pre post, start ++ (p :: ps).flatMap Piece.text = pre ++ N ++ post ∧
            Spared split (p :: ps) start pre N := by
      simp only [ih, spared_join hp, flatMap_cons, append_assoc]
    cases p with
    | skip c => exact hjoin nofun
    | hit m =>
      cases hm : split m with
      | none =>
        rw [leavesFrom, hm]
        refine hjoin ?_
        rintro m' ⟨⟩
        exact hm
      | some parts =>
        obtain ⟨front, back⟩ := parts
        obtain ⟨old, rfl⟩ := hcuts m front back hm
        rw [leavesFrom, hm]
        dsimp only
        rw [exists_mem_cons_iff, ih]
        constructor
        · rintro (⟨pre, post, h⟩ | ⟨pre, post, h, hspared⟩)
          · refine ⟨pre, post ++ old ++ back ++ ps.flatMap Piece.text, ?_, ?_⟩
            · rw [flatMap_cons, Piece.text]
              simp only [← append_assoc] at h ⊢
              rw [h]
            · rw [spared_cut hm rfl, ← h]
              exact .inl (by simp)
          · refine ⟨start ++ front ++ old ++ pre, post, ?_, ?_⟩
            · rw [flatMap_cons, Piece.text]
              simp only [append_assoc] at h ⊢
              rw [h]
            · rw [spared_cut hm rfl, drop_left]
              exact .inr ⟨by simp, hspared⟩
        · rintro ⟨pre, post, h, hspared⟩
          rw [flatMap_cons, Piece.text] at h
          rcases (spared_cut hm rfl).mp hspared with hle | ⟨hle, hspared'⟩
          · have hpre : pre ++ N <+: start ++ front := by
              refine prefix_of_prefix_length_le ⟨post, rfl⟩ ⟨old ++ back ++ ps.flatMap Piece.text, ?_⟩ hle
              rw [← h]
              simp
            obtain ⟨post', hpost⟩ := hpre
            exact .inl ⟨pre, post', hpost⟩
          · have hpre : start ++ front ++ old <+: pre := by
              refine prefix_of_prefix_length_le ⟨back ++ ps.flatMap Piece.text, rfl⟩
                ⟨N ++ post, ?_⟩ hle
              rw [← append_assoc, ← h]
              simp
            obtain ⟨pre', rfl⟩ := hpre
            rw [drop_left] at hspared'
            refine .inr ⟨pre', post, ?_, hspared'⟩
            simp only [append_assoc, append_cancel_left_eq] at h
            simpa using h

/-- A stretch is left exactly if one of its copies in the text has no unit hidden. -/
theorem infix_leaves_iff {d : Detector α} (hd : d.Cuts) (text : List α) :
    (∃ s ∈ d.leaves text, N <:+: s) ↔
      ∃ pre post, text = pre ++ N ++ post ∧ ¬ d.Hides text pre N := by
  rw [Detector.leaves, infix_leavesFrom_iff hd, nil_append,
    Regex.scanned_text (Regex.scan_scanned d.pattern text)]
  refine exists_congr fun pre => exists_congr fun post => and_congr_right fun _ => ?_
  simp only [Spared, Detector.Hides, not_exists, not_and, not_lt, nil_append]
  constructor
  · intro h ps m qs front back hps hsplit hlt
    exact (h ps m qs front back hps hsplit).resolve_left (by omega)
  · intro h ps m qs front back hps hsplit
    by_cases hlt : (ps.flatMap Piece.text ++ front).length < (pre ++ N).length
    · exact .inr (h ps m qs front back hps hsplit hlt)
    · exact .inl (by omega)

/-! ### Running the detectors again -/

variable [DecidableEq α]

end

end BoilerplateExpress.Marking

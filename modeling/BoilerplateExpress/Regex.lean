import Mathlib.Tactic

/-!
# Regular expressions that backtrack

The matcher of ECMAScript over any alphabet. A pattern at a position yields the positions
at which a match may end, in the order in which backtracking tries them; the first of
them is the match. Quantifiers are greedy, and an optional repetition has to consume.

`scan` looks for matches from left to right and goes on behind each of them, as a replace
with the global flag does. `Scanned` is its run as a relation, for induction; a match of
no unit counts as none, so a pattern that may match nothing is outside this library.
-/
namespace BoilerplateExpress.Regex

open List

/-- A position in a text: the unit before it and the units after it. -/
@[ext]
structure Pos (α : Type*) where
  prev : Option α
  rest : List α
  deriving DecidableEq

inductive Pattern (α : Type*) where
  | empty
  | unit (p : α → Bool)
  | boundary (word : α → Bool)
  | seq (r s : Pattern α)
  | alt (r s : Pattern α)
  | upTo (n : ℕ) (r : Pattern α)
  | star (r : Pattern α)

section

variable {α : Type*}

/-- A word boundary: of the units on both sides exactly one is of a word. -/
def Pos.atBoundary (word : α → Bool) (pos : Pos α) : Bool :=
  pos.prev.any word != pos.rest.head?.any word

/-- Up to `n` repetitions of a step, more of them first. -/
def greedy (step : Pos α → List (Pos α)) : ℕ → Pos α → List (Pos α)
  | 0, pos => [pos]
  | n + 1, pos =>
    ((step pos).filter (fun q => q.rest.length < pos.rest.length)).flatMap (greedy step n) ++
      [pos]

def ends : Pattern α → Pos α → List (Pos α)
  | .empty, pos => [pos]
  | .unit p, pos =>
    match pos.rest with
    | [] => []
    | c :: rest => if p c then [⟨some c, rest⟩] else []
  | .boundary word, pos => if pos.atBoundary word then [pos] else []
  | .seq r s, pos => (ends r pos).flatMap (ends s)
  | .alt r s, pos => ends r pos ++ ends s pos
  | .upTo n r, pos => greedy (ends r) n pos
  | .star r, pos => greedy (ends r) pos.rest.length pos

/-- `r{n}`. -/
def Pattern.copies (r : Pattern α) : ℕ → Pattern α
  | 0 => .empty
  | n + 1 => .seq r (r.copies n)

/-- `r+`. -/
def Pattern.plus (r : Pattern α) : Pattern α := .seq r (.star r)

/-- One unit after another. -/
def Pattern.each : List (α → Bool) → Pattern α
  | [] => .empty
  | p :: ps => .seq (.unit p) (each ps)

/-- The unit is of one of the classes of the pattern, those of its boundaries included. -/
def Pattern.sees : Pattern α → α → Bool
  | .empty, _ => false
  | .unit p, c => p c
  | .boundary word, c => word c
  | .seq r s, c => r.sees c || s.sees c
  | .alt r s, c => r.sees c || s.sees c
  | .upTo _ r, c => r.sees c
  | .star r, c => r.sees c

/-- The match at a position. -/
def first (r : Pattern α) (pos : Pos α) : Option (Pos α) := (ends r pos).head?

variable {p : α → Bool} {pos q : Pos α}

lemma mem_ends_unit :
    q ∈ ends (.unit p) pos ↔ ∃ c rest, pos.rest = c :: rest ∧ p c ∧ q = ⟨some c, rest⟩ := by
  obtain ⟨prev, rest⟩ := pos
  cases rest <;> simp [ends]

lemma mem_ends_boundary {word} : q ∈ ends (.boundary word) pos ↔ pos.atBoundary word ∧ q = pos := by
  simp [ends]

variable {r s : Pattern α}

lemma mem_ends_seq : q ∈ ends (.seq r s) pos ↔ ∃ mid, mid ∈ ends r pos ∧ q ∈ ends s mid := by
  simp [ends]

variable {n : ℕ}

lemma greedy_invariant {step} (I : Pos α → Prop) (hstep : ∀ pos q, I pos → q ∈ step pos → I q)
    (hpos : I pos) (h : q ∈ greedy step n pos) : I q := by
  induction n generalizing pos with
  | zero =>
    rw [greedy, mem_singleton] at h
    exact h ▸ hpos
  | succ n ih =>
    rw [greedy, mem_append, mem_flatMap, mem_singleton] at h
    rcases h with ⟨mid, hmid, hq⟩ | rfl
    · exact ih (hstep pos mid hpos (mem_filter.mp hmid).1) hq
    · exact hpos

/-- `q` is reached from `pos` over the units `m`. -/
structure Consumes (pos : Pos α) (m : List α) (q : Pos α) : Prop where
  rest : pos.rest = m ++ q.rest
  prev : q.prev = m.getLast?.or pos.prev

lemma consumes_refl (pos : Pos α) : Consumes pos [] pos := ⟨rfl, rfl⟩

variable {mid : Pos α}

lemma consumes_trans {m m'} (h : Consumes pos m mid) (h' : Consumes mid m' q) :
    Consumes pos (m ++ m') q := by
  refine ⟨by rw [h.rest, h'.rest, append_assoc], ?_⟩
  rw [h'.prev, h.prev, getLast?_append, Option.or_assoc]

lemma getLast?_cons_or (c : α) (a prev) :
    (c :: a).getLast?.or prev = a.getLast?.or (some c) := by
  rw [getLast?_cons]
  cases a.getLast? <;> rfl

/-- Repetitions consume what one step after another does. -/
theorem greedy_consumes {step} {β : Type*} {f : β → List α} {P : β → Prop}
    (hstep : ∀ pos q, q ∈ step pos → ∃ b, P b ∧ Consumes pos (f b) q) (h : q ∈ greedy step n pos) :
    ∃ bs : List β, Consumes pos (bs.flatMap f) q ∧ bs.length ≤ n ∧ ∀ b ∈ bs, P b := by
  induction n generalizing pos with
  | zero =>
    rw [greedy, mem_singleton] at h
    exact ⟨[], h ▸ consumes_refl pos, le_rfl, nofun⟩
  | succ n ih =>
    rw [greedy, mem_append, mem_flatMap, mem_singleton] at h
    rcases h with ⟨mid, hmid, hq⟩ | rfl
    · obtain ⟨b, hb, hcons⟩ := hstep pos mid (mem_filter.mp hmid).1
      obtain ⟨bs, hrest, hlen, hbs⟩ := ih hq
      refine ⟨b :: bs, consumes_trans hcons hrest, Nat.succ_le_succ hlen, ?_⟩
      exact forall_mem_cons.mpr ⟨hb, hbs⟩
    · exact ⟨[], consumes_refl q, Nat.zero_le _, nofun⟩

lemma greedy_units {step} {P : α → Prop}
    (hstep : ∀ pos q, q ∈ step pos → ∃ m, Consumes pos m q ∧ ∀ c ∈ m, P c)
    (h : q ∈ greedy step n pos) : ∃ m, Consumes pos m q ∧ ∀ c ∈ m, P c := by
  obtain ⟨ms, hms, -, hall⟩ :=
    greedy_consumes (f := id) (fun pos q hq => (hstep pos q hq).imp fun _ => And.symm) h
  exact ⟨_, hms, forall_mem_flatMap.mpr hall⟩

/-- A match is a run of units of the pattern's classes from the position it starts at. -/
theorem ends_consumes (h : q ∈ ends r pos) : ∃ m, Consumes pos m q ∧ ∀ c ∈ m, r.sees c := by
  induction r generalizing pos q with
  | empty =>
    rw [ends, mem_singleton] at h
    exact ⟨[], h ▸ consumes_refl pos, nofun⟩
  | unit p =>
    obtain ⟨c, rest, hrest, hc, rfl⟩ := mem_ends_unit.mp h
    exact ⟨[c], ⟨hrest, rfl⟩, by simpa [Pattern.sees] using hc⟩
  | boundary word =>
    obtain ⟨_, rfl⟩ := mem_ends_boundary.mp h
    exact ⟨[], consumes_refl q, nofun⟩
  | seq r s ihr ihs =>
    obtain ⟨mid, hmid, hq⟩ := mem_ends_seq.mp h
    obtain ⟨m, hm, hall⟩ := ihr hmid
    obtain ⟨m', hm', hall'⟩ := ihs hq
    refine ⟨m ++ m', consumes_trans hm hm', forall_mem_append.mpr ⟨?_, ?_⟩⟩
    · exact fun c hc => Bool.or_eq_true_iff.mpr (.inl (hall c hc))
    · exact fun c hc => Bool.or_eq_true_iff.mpr (.inr (hall' c hc))
  | alt r s ihr ihs =>
    rcases mem_append.mp h with hr | hs
    · obtain ⟨m, hm, hall⟩ := ihr hr
      exact ⟨m, hm, fun c hc => Bool.or_eq_true_iff.mpr (.inl (hall c hc))⟩
    · obtain ⟨m, hm, hall⟩ := ihs hs
      exact ⟨m, hm, fun c hc => Bool.or_eq_true_iff.mpr (.inr (hall c hc))⟩
  | upTo n r ih => exact greedy_units (fun _ _ hq => ih hq) h
  | star r ih => exact greedy_units (fun _ _ hq => ih hq) h

/-- Repetitions of a class consume units of the class, and may consume as many as there are. -/
theorem mem_ends_upTo_unit :
    q ∈ ends (.upTo n (.unit p)) pos ↔ ∃ m, Consumes pos m q ∧ m.length ≤ n ∧ ∀ c ∈ m, p c := by
  constructor
  · intro h
    have hunit : ∀ pos q, q ∈ ends (.unit p) pos → ∃ c, p c ∧ Consumes pos [c] q := by
      intro pos q hq
      obtain ⟨c, rest, hrest, hc, rfl⟩ := mem_ends_unit.mp hq
      exact ⟨c, hc, hrest, rfl⟩
    obtain ⟨m, hcons, hlen, hm⟩ := greedy_consumes hunit h
    rw [flatMap_singleton'] at hcons
    exact ⟨m, hcons, hlen, hm⟩
  · rintro ⟨m, hcons, hlen, hm⟩
    rw [ends]
    induction m generalizing n pos with
    | nil =>
      have hsame : q = pos := Pos.ext hcons.prev hcons.rest.symm
      cases n <;> simp [greedy, hsame]
    | cons c m ih =>
      obtain ⟨n, rfl⟩ : ∃ k, n = k + 1 := ⟨n - 1, by simp at hlen; omega⟩
      obtain ⟨hc, htail⟩ := forall_mem_cons.mp hm
      have hrest : pos.rest = c :: (m ++ q.rest) := hcons.rest
      have hstep : (⟨some c, m ++ q.rest⟩ : Pos α) ∈ ends (.unit p) pos :=
        mem_ends_unit.mpr ⟨c, _, hrest, hc, rfl⟩
      have hcons' : Consumes ⟨some c, m ++ q.rest⟩ m q :=
        ⟨rfl, hcons.prev.trans (getLast?_cons_or ..)⟩
      rw [greedy, mem_append, mem_flatMap]
      have hcon : (⟨some c, m ++ q.rest⟩ : Pos α).rest.length < pos.rest.length := by
        simp [hrest]
      exact .inl ⟨_, mem_filter.mpr ⟨hstep, decide_eq_true hcon⟩,
        ih hcons' (by simpa using hlen) htail⟩

/-! ### Unrolling repetitions -/

lemma ends_copies_succ (r s n) (pos : Pos α) :
    ends (.seq (r.copies (n + 1)) s) pos = (ends r pos).flatMap (ends (.seq (r.copies n) s)) := by
  simp [Pattern.copies, ends, flatMap_assoc]

/-- The repetitions of a pattern that always consumes. -/
theorem ends_upTo_succ (hr : ∀ pos q, q ∈ ends r pos → q.rest.length < pos.rest.length) (s n pos) :
    ends (.seq (.upTo (n + 1) r) s) pos =
      (ends r pos).flatMap (ends (.seq (.upTo n r) s)) ++ ends s pos := by
  have hfilt : (ends r pos).filter (fun q => q.rest.length < pos.rest.length) = ends r pos :=
    filter_eq_self.mpr (fun q hq => decide_eq_true (hr pos q hq))
  simp [ends, greedy, hfilt, flatMap_assoc]

lemma ends_copies_zero (r s : Pattern α) (pos) : ends (.seq (r.copies 0) s) pos = ends s pos := by
  simp [Pattern.copies, ends]

lemma ends_upTo_zero (r s) (pos : Pos α) : ends (.seq (.upTo 0 r) s) pos = ends s pos := by
  simp [ends, greedy]

/-! ### Where a match ends -/

/-- From a position of `A` every match of the pattern ends at one of `B`. -/
def Leads (A B : Pos α → Prop) (r : Pattern α) : Prop := ∀ pos q, A pos → q ∈ ends r pos → B q

/-- Just behind a unit of the class. -/
def Behind (p : α → Bool) (pos : Pos α) : Prop := pos.prev.any p = true

/-- In front of no unit of the class. -/
def Stopped (p : α → Bool) (pos : Pos α) : Prop := pos.rest.head?.any p = false

variable {A B C : Pos α → Prop}

lemma leads_seq (hr : Leads A B r) (hs : Leads B C s) : Leads A C (.seq r s) := by
  intro pos q hpos hq
  obtain ⟨mid, hmid, hq⟩ := mem_ends_seq.mp hq
  exact hs mid q (hr pos mid hpos hmid) hq

lemma leads_last (hs : Leads (fun _ => True) B s) : Leads A B (.seq r s) :=
  leads_seq (fun _ _ _ _ => trivial) hs

lemma leads_upTo (hr : Leads A A r) (n) : Leads A A (.upTo n r) :=
  fun _ _ hpos hq => greedy_invariant A hr hpos hq

lemma leads_unit {q} (h : ∀ c, p c → q c) : Leads A (Behind q) (.unit p) := by
  intro pos x _ hx
  obtain ⟨c, rest, _, hc, rfl⟩ := mem_ends_unit.mp hx
  exact h c hc

/-- Behind a word a boundary is the end of the word. -/
theorem leads_boundary (word : α → Bool) : Leads (Behind word) (Stopped word) (.boundary word) := by
  intro pos q hprev hq
  obtain ⟨hb, rfl⟩ := mem_ends_boundary.mp hq
  rw [Pos.atBoundary, hprev] at hb
  simpa [Stopped] using hb

lemma first_mem (h : first r pos = some q) : q ∈ ends r pos := mem_of_mem_head? h

/-- The first end of the first part decides where the sequence can go on from it. -/
theorem first_seq_of (hr : first r pos = some mid) (hs : first s mid = some q) :
    first (.seq r s) pos = some q := by
  obtain ⟨tail, htail⟩ := head?_eq_some_iff.mp hr
  rw [first, ends, htail, flatMap_cons, head?_append]
  rw [first] at hs
  rw [hs]
  rfl

/-- A sequence that can go on from one end of its first part only goes on from there. -/
theorem first_seq_of_unique (hmid : mid ∈ ends r pos) (hs : first s mid = some q)
    (honly : ∀ other ∈ ends r pos, ends s other ≠ [] → other = mid) :
    first (.seq r s) pos = some q := by
  have hfind : ∀ l : List (Pos α), mid ∈ l → (∀ other ∈ l, ends s other ≠ [] → other = mid) →
      l.findSome? (fun x => (ends s x).head?) = some q := by
    intro l hmem hall
    induction l with
    | nil => cases hmem
    | cons x l ih =>
      by_cases hx : x = mid
      · rw [hx, findSome?_cons_of_isSome]
        · exact hs
        · rw [first] at hs
          rw [hs]
          rfl
      · have hnil : ends s x = [] := by
          by_contra hne
          exact hx (hall x mem_cons_self hne)
        rw [findSome?_cons_of_isNone (by rw [hnil]; rfl)]
        refine ih ((mem_cons.mp hmem).resolve_left (Ne.symm hx)) ?_
        exact fun other hoth => hall other (mem_cons_of_mem _ hoth)
  rw [first, ends, head?_flatMap]
  exact hfind _ hmid honly

/-! ### Replacing every match -/

/-- What a scan makes of a text: units it passes over and matches. -/
inductive Piece (α : Type*) where
  | skip (c : α)
  | hit (m : List α)
  deriving DecidableEq

def Piece.text : Piece α → List α
  | .skip c => [c]
  | .hit m => m

def scanFrom (r : Pattern α) : ℕ → Pos α → List (Piece α)
  | 0, _ => []
  | fuel + 1, pos =>
    match pos.rest with
    | [] => []
    | c :: rest =>
      match (first r pos).filter (fun q => q.rest.length < pos.rest.length) with
      | some q =>
        .hit (pos.rest.take (pos.rest.length - q.rest.length)) :: scanFrom r fuel q
      | none => .skip c :: scanFrom r fuel ⟨some c, rest⟩

/-- Every step of a scan consumes, so the length of the text is fuel enough. -/
def scan (r : Pattern α) (text : List α) : List (Piece α) := scanFrom r text.length ⟨none, text⟩

def Piece.replace (f : List α → List α) : Piece α → List α
  | .skip c => [c]
  | .hit m => f m

/-- `text.replace(r, f)` with the global flag. -/
def replaceAll (r : Pattern α) (f : List α → List α) (text : List α) : List α :=
  (scan r text).flatMap (Piece.replace f)

/-- The runs of a scan. -/
inductive Scanned (r : Pattern α) : Pos α → List (Piece α) → Prop
  | done (prev : Option α) : Scanned r ⟨prev, []⟩ []
  | skip {prev : Option α} {c : α} {rest : List α} {ps : List (Piece α)}
      (hnone : ∀ q, first r ⟨prev, c :: rest⟩ = some q → ¬ q.rest.length < (c :: rest).length)
      (htail : Scanned r ⟨some c, rest⟩ ps) : Scanned r ⟨prev, c :: rest⟩ (.skip c :: ps)
  | hit {pos q : Pos α} {m : List α} {ps : List (Piece α)} (hfirst : first r pos = some q)
      (hm : Consumes pos m q) (hne : m ≠ []) (htail : Scanned r q ps) :
      Scanned r pos (.hit m :: ps)

lemma scanFrom_scanned {fuel} (r) (h : pos.rest.length ≤ fuel) :
    Scanned r pos (scanFrom r fuel pos) := by
  induction fuel generalizing pos with
  | zero =>
    obtain ⟨prev, rest⟩ := pos
    obtain rfl := length_eq_zero_iff.mp (Nat.le_zero.mp h)
    exact .done prev
  | succ fuel ih =>
    obtain ⟨prev, rest⟩ := pos
    cases rest with
    | nil => exact .done prev
    | cons c rest =>
      cases hfirst : (first r ⟨prev, c :: rest⟩).filter
          (fun q => q.rest.length < (c :: rest).length) with
      | none =>
        simp only [scanFrom, hfirst]
        refine .skip ?_ (ih (by simpa using h))
        intro q hq
        rw [hq] at hfirst
        simpa using hfirst
      | some q =>
        simp only [scanFrom, hfirst]
        obtain ⟨hq, hlt⟩ := Option.filter_eq_some_iff.mp hfirst
        have hlt' : q.rest.length < (c :: rest).length := of_decide_eq_true hlt
        obtain ⟨m, hm, -⟩ := ends_consumes (first_mem hq)
        have htake : (c :: rest).take ((c :: rest).length - q.rest.length) = m := by
          have hrest : c :: rest = m ++ q.rest := hm.rest
          rw [hrest]
          simp
        rw [htake]
        refine .hit hq hm ?_ (ih (by simp only [length_cons] at h hlt'; omega))
        rintro rfl
        have hrest : c :: rest = q.rest := hm.rest
        rw [hrest] at hlt'
        exact lt_irrefl _ hlt'

lemma scan_scanned (r) (text : List α) : Scanned r ⟨none, text⟩ (scan r text) :=
  scanFrom_scanned r le_rfl

variable {ps : List (Piece α)}

lemma scanned_text (h : Scanned r pos ps) : ps.flatMap Piece.text = pos.rest := by
  induction h with
  | done prev => rfl
  | skip hnone htail ih => simpa [Piece.text] using ih
  | hit hfst hm hne htail ih => rw [flatMap_cons, ih, hm.rest, Piece.text]

/-- Where a pattern matches behind a stretch, the scan has a match there: it starts there, or in
the stretch and takes along the end of it. -/
theorem scanned_covers {s rest} (h : Scanned r pos ps) (hrest : pos.rest = s ++ rest)
    (hfst : first r ⟨s.getLast?.or pos.prev, rest⟩ = some q) (hlt : q.rest.length < rest.length) :
    ∃ ps₁ m ps₂ b q', ps = ps₁ ++ .hit m :: ps₂ ∧ s = ps₁.flatMap Piece.text ++ b ∧
      b.length < m.length ∧
      first r ⟨(ps₁.flatMap Piece.text).getLast?.or pos.prev, b ++ rest⟩ = some q' ∧
      Consumes ⟨(ps₁.flatMap Piece.text).getLast?.or pos.prev, b ++ rest⟩ m q' := by
  induction h generalizing s with
  | done prev =>
    obtain ⟨rfl, rfl⟩ := append_eq_nil_iff.mp hrest.symm
    exact absurd hlt (Nat.not_lt_zero _)
  | @skip prev c rest' ps hnone htail ih =>
    cases s with
    | nil =>
      obtain rfl : c :: rest' = rest := hrest
      exact absurd hlt (hnone q hfst)
    | cons d s =>
      obtain ⟨rfl, hrest'⟩ := List.cons.inj hrest
      rw [getLast?_cons_or] at hfst
      obtain ⟨ps₁, m, ps₂, b, q', rfl, rfl, hb, hq', hm⟩ := ih hrest' hfst
      refine ⟨.skip c :: ps₁, m, ps₂, b, q', rfl, rfl, hb, ?_⟩
      rw [flatMap_cons, Piece.text, singleton_append, getLast?_cons_or]
      exact ⟨hq', hm⟩
  | @hit pos q' m' ps hfst' hm' hne' htail ih =>
    obtain ⟨prev, _⟩ := pos
    obtain rfl := hrest
    by_cases hlen : s.length < m'.length
    · exact ⟨[], m', ps, s, q', rfl, rfl, hlen, hfst', hm'⟩
    · obtain ⟨s, rfl⟩ : m' <+: s :=
        prefix_of_prefix_length_le ⟨q'.rest, hm'.rest.symm⟩ ⟨rest, rfl⟩ (by omega)
      have hq : q'.rest = s ++ rest := by
        have hall := hm'.rest
        rw [append_assoc] at hall
        exact (append_cancel_left hall).symm
      have hstep (a : List α) : (m' ++ a).getLast?.or prev = a.getLast?.or q'.prev := by
        rw [getLast?_append, Option.or_assoc, hm'.prev]
      rw [hstep] at hfst
      obtain ⟨ps₁, m, ps₂, b, x, rfl, rfl, hb, hx, hm⟩ := ih hq hfst
      refine ⟨.hit m' :: ps₁, m, ps₂, b, x, rfl, by simp [Piece.text], hb, ?_⟩
      rw [flatMap_cons, Piece.text, hstep]
      exact ⟨hx, hm⟩

/-- A match is found by the scan if none reaches to it from the left. -/
theorem scan_hits {pre rest m} (hfst : first r ⟨pre.getLast?, rest⟩ = some q)
    (hm : Consumes ⟨pre.getLast?, rest⟩ m q) (hne : m ≠ [])
    (hfree : ∀ a b m' q', pre = a ++ b → b ≠ [] → q' ∈ ends r ⟨a.getLast?, b ++ rest⟩ →
      rest ≠ m' ++ q'.rest) :
    ∃ ps qs, scan r (pre ++ rest) = ps ++ .hit m :: qs ∧ ps.flatMap Piece.text = pre := by
  have hrest : rest = m ++ q.rest := hm.rest
  have hlt : q.rest.length < rest.length := by
    have hpos := length_pos_iff.mpr hne
    rw [hrest, length_append]
    omega
  have hfst' : first r ⟨pre.getLast?.or none, rest⟩ = some q := by rwa [Option.or_none]
  obtain ⟨ps, m', qs, b, q', hps, rfl, hb, hq', hm'⟩ :=
    scanned_covers (scan_scanned r (pre ++ rest)) rfl hfst' hlt
  simp only [Option.or_none] at hq' hm'
  obtain rfl : b = [] := by
    by_contra hb'
    obtain ⟨tail, rfl⟩ : b <+: m' :=
      prefix_of_prefix_length_le ⟨rest, rfl⟩ ⟨q'.rest, hm'.rest.symm⟩ hb.le
    have hall : b ++ rest = b ++ (tail ++ q'.rest) := hm'.rest.trans (append_assoc ..)
    exact hfree _ b tail q' rfl hb' (first_mem hq') (append_cancel_left hall)
  rw [append_nil, nil_append] at *
  obtain rfl : q' = q := Option.some.inj (hq'.symm.trans hfst)
  obtain rfl : m' = m := append_cancel_right (hm'.rest.symm.trans hrest)
  exact ⟨ps, qs, hps, rfl⟩

/-- A match that the scan finds shares a unit with the stretch `s` behind `pre`. -/
def Meets (r : Pattern α) (text pre s m : List α) : Prop :=
  ∃ ps qs, scan r text = ps ++ .hit m :: qs ∧
    (ps.flatMap Piece.text).length < (pre ++ s).length ∧
    pre.length < (ps.flatMap Piece.text ++ m).length

/-- Where a pattern that consumes can match, a match shares a unit with what stands there. -/
theorem meets_of_ends {pre s post} (hs : s ≠ [])
    (hr : ∀ pos q, q ∈ ends r pos → q.rest.length < pos.rest.length)
    (hne : ends r ⟨pre.getLast?, s ++ post⟩ ≠ []) : ∃ m, Meets r (pre ++ s ++ post) pre s m := by
  obtain ⟨q, qs, hqs⟩ := exists_cons_of_ne_nil hne
  have hlt := hr _ q (by rw [hqs]; exact mem_cons_self)
  have hfst : first r ⟨pre.getLast?.or none, s ++ post⟩ = some q := by
    rw [Option.or_none, first, hqs]
    rfl
  obtain ⟨ps₁, m, ps₂, b, -, hps, rfl, hb, -⟩ :=
    scanned_covers (scan_scanned r (pre ++ (s ++ post))) rfl hfst hlt
  have hpos := length_pos_iff.mpr hs
  refine ⟨m, ps₁, ps₂, by rw [append_assoc, hps], ?_, ?_⟩
  · simp only [length_append]
    omega
  · simp only [length_append]
    omega

variable {pos' : Pos α} {qs : List (Piece α)}

/-! ### Cutting a text -/

lemma greedy_fuel {step} {n k} (hn : pos.rest.length ≤ n)
    (hk : pos.rest.length ≤ k) : greedy step n pos = greedy step k pos := by
  induction n generalizing k pos with
  | zero =>
    cases k with
    | zero => rfl
    | succ k => simp [greedy, Nat.le_zero.mp hn]
  | succ n ih =>
    cases k with
    | zero => simp [greedy, Nat.le_zero.mp hk]
    | succ k =>
      rw [greedy, greedy]
      congr 1
      refine flatMap_congr fun q hq => ?_
      have hlt : q.rest.length < pos.rest.length := of_decide_eq_true (mem_filter.mp hq).2
      exact ih (by omega) (by omega)

/-- Positions between which a pattern that does not see `c` makes no difference: `tail`, which
starts with `c`, follows behind the one only, and `c` stands before it where the other starts its
text. -/
structure Alike (c : α) (tail : List α) (pos pos' : Pos α) : Prop where
  rest : pos.rest = pos'.rest ++ tail
  prev : pos.prev = pos'.prev ∨ pos.prev = some c ∧ pos'.prev = none

variable {c : α} {tail : List α}

lemma alike_any {word} (h : Alike c tail pos pos') (hc : word c = false) :
    pos.prev.any word = pos'.prev.any word := by
  rcases h.prev with heq | ⟨hpos, hpos'⟩
  · rw [heq]
  · simp [hpos, hpos', hc]

lemma greedy_alike {step} (hstep : ∀ pos pos', Alike c tail pos pos' →
    Forall₂ (Alike c tail) (step pos) (step pos')) (n : ℕ) (h : Alike c tail pos pos') :
    Forall₂ (Alike c tail) (greedy step n pos) (greedy step n pos') := by
  induction n generalizing pos pos' with
  | zero => exact .cons h .nil
  | succ n ih =>
    refine rel_append (rel_flatMap (rel_filter ?_ (hstep _ _ h)) fun _ _ => ih) (.cons h .nil)
    intro x y hxy
    simp [hxy.rest, h.rest]

/-- A pattern has the same ends where only what it does not see is different. -/
theorem ends_alike (htail : ∀ d ∈ tail.head?, d = c) (hr : r.sees c = false)
    (h : Alike c tail pos pos') : Forall₂ (Alike c tail) (ends r pos) (ends r pos') := by
  induction r generalizing pos pos' with
  | empty => exact .cons h .nil
  | unit p =>
    have hc : p c = false := hr
    cases hrest : pos'.rest with
    | nil =>
      cases tail with
      | nil => simp [ends, h.rest, hrest]
      | cons d tail =>
        obtain rfl := htail d rfl
        simp [ends, h.rest, hrest, hc]
    | cons d rest =>
      by_cases hd : p d
      · simp only [ends, h.rest, hrest, cons_append, hd, if_true]
        exact .cons ⟨rfl, .inl rfl⟩ .nil
      · simp [ends, h.rest, hrest, hd]
  | boundary word =>
    have hc : word c = false := hr
    have hnext : pos.rest.head?.any word = pos'.rest.head?.any word := by
      cases hrest : pos'.rest with
      | nil =>
        cases tail with
        | nil => simp [h.rest, hrest]
        | cons d tail =>
          obtain rfl := htail d rfl
          simp [h.rest, hrest, hc]
      | cons d rest => simp [h.rest, hrest]
    rw [ends, ends, Pos.atBoundary, Pos.atBoundary, alike_any h hc, hnext]
    split_ifs
    · exact .cons h .nil
    · exact .nil
  | seq r s ihr ihs =>
    obtain ⟨hr, hs⟩ := Bool.or_eq_false_iff.mp hr
    exact rel_flatMap (ihr hr h) fun _ _ => ihs hs
  | alt r s ihr ihs =>
    obtain ⟨hr, hs⟩ := Bool.or_eq_false_iff.mp hr
    exact rel_append (ihr hr h) (ihs hs h)
  | upTo n r ih => exact greedy_alike (fun _ _ => ih hr) n h
  | star r ih =>
    have hlen : pos'.rest.length ≤ pos.rest.length := by simp [h.rest]
    have hfuel : greedy (ends r) pos'.rest.length pos' = greedy (ends r) pos.rest.length pos' :=
      greedy_fuel le_rfl hlen
    rw [ends, ends, hfuel]
    exact greedy_alike (fun _ _ => ih hr) _ h

lemma first_alike (htail : ∀ d ∈ tail.head?, d = c) (hr : r.sees c = false)
    (h : Alike c tail pos pos') :
    (∃ q q', first r pos = some q ∧ first r pos' = some q' ∧ Alike c tail q q') ∨
      first r pos = none ∧ first r pos' = none := by
  have hends := ends_alike htail hr h
  unfold first
  generalize ends r pos = l, ends r pos' = l' at hends
  cases hends with
  | nil => exact .inr ⟨rfl, rfl⟩
  | cons hq _ => exact .inl ⟨_, _, rfl, rfl, hq⟩

lemma scanFrom_of_scanned {fuel} (h : Scanned r pos ps) (hfuel : pos.rest.length ≤ fuel) :
    scanFrom r fuel pos = ps := by
  induction h generalizing fuel with
  | done prev => cases fuel <;> rfl
  | @skip prev c rest ps hnone htail ih =>
    obtain ⟨fuel, rfl⟩ : ∃ k, fuel = k + 1 := ⟨fuel - 1, by simp at hfuel; omega⟩
    have hnot : (first r ⟨prev, c :: rest⟩).filter
        (fun q => q.rest.length < (c :: rest).length) = none :=
      Option.filter_eq_none_iff.mpr fun q hq => by simpa using hnone q hq
    simp only [scanFrom, hnot]
    rw [ih (by simpa using hfuel)]
  | @hit pos q m ps hfst hm hne htail ih =>
    obtain ⟨prev, rest⟩ := pos
    obtain rfl : rest = m ++ q.rest := hm.rest
    obtain ⟨c, m, rfl⟩ := exists_cons_of_ne_nil hne
    simp only [cons_append, length_cons, length_append] at hfuel
    obtain ⟨fuel, rfl⟩ : ∃ k, fuel = k + 1 := ⟨fuel - 1, by omega⟩
    have hlen : m.length + q.rest.length + 1 - q.rest.length = (c :: m).length := by
      rw [length_cons]
      omega
    have hlt : q.rest.length < m.length + q.rest.length + 1 := by omega
    rw [cons_append] at hfst
    simp only [scanFrom, cons_append, hfst, length_cons, length_append, Option.filter_some, hlt,
      decide_true, if_true]
    rw [ih (by omega), hlen, ← cons_append, take_left]

/-- The scan of a text is the one of its start and the one of what follows it. -/
theorem scanned_append (htail : ∀ d ∈ tail.head?, d = c) (hr : r.sees c = false)
    (h : Scanned r pos' ps) (hal : Alike c tail pos pos')
    (hqs : Scanned r ⟨pos'.rest.getLast?.or pos.prev, tail⟩ qs) : Scanned r pos (ps ++ qs) := by
  induction h generalizing pos with
  | done prev =>
    obtain ⟨prev, _⟩ := pos
    obtain rfl := hal.rest
    exact hqs
  | @skip prev' d rest ps hnone _ ih =>
    obtain ⟨prev, _⟩ := pos
    obtain rfl := hal.rest
    refine .skip ?_ (ih ⟨rfl, .inl rfl⟩ ?_)
    · intro q hq
      rcases first_alike htail hr hal with ⟨x, q', hx, hq', hxq⟩ | ⟨hnot, -⟩
      · obtain rfl : x = q := Option.some.inj (hx.symm.trans hq)
        have hlen := hnone q' hq'
        rw [hxq.rest]
        simp only [length_append, length_cons, append_eq] at hlen ⊢
        omega
      · cases hnot.symm.trans hq
    · rwa [← getLast?_cons_or]
  | @hit pos' q' m ps hfst hm hne _ ih =>
    rcases first_alike htail hr hal with ⟨q, x, hq, hx, hxq⟩ | ⟨-, hnot⟩
    · obtain rfl : x = q' := Option.some.inj (hx.symm.trans hfst)
      obtain ⟨m', hm', -⟩ := ends_consumes (first_mem hq)
      obtain rfl : m' = m := by
        have hrest : m' ++ (x.rest ++ tail) = m ++ (x.rest ++ tail) := by
          rw [← hxq.rest, ← hm'.rest, hal.rest, hm.rest, hxq.rest]
          simp
        exact append_cancel_right hrest
      refine .hit hq hm' hne (ih hxq ?_)
      rwa [hm'.prev, ← Option.or_assoc, ← getLast?_append, ← hm.rest]
    · cases hnot.symm.trans hfst

lemma scan_cut (hr : r.sees c = false) (a b : List α) :
    scan r (a ++ c :: b) = scan r a ++ .skip c :: scan r b := by
  have hbehind : Scanned r ⟨some c, b⟩ (scan r b) := by
    have hal : Alike c [] ⟨some c, b⟩ ⟨none, b⟩ := ⟨(append_nil b).symm, .inr ⟨rfl, rfl⟩⟩
    simpa using scanned_append (by simp) hr (scan_scanned r b) hal (.done _)
  have hskip (prev : Option α) : Scanned r ⟨prev, c :: b⟩ (.skip c :: scan r b) := by
    refine .skip ?_ hbehind
    intro q hq
    have hal : Alike c (c :: b) ⟨prev, c :: b⟩ ⟨prev, []⟩ := ⟨rfl, .inl rfl⟩
    rcases first_alike (by simp) hr hal with ⟨x, q', hx, -, hxq⟩ | ⟨hnot, -⟩
    · obtain rfl : x = q := Option.some.inj (hx.symm.trans hq)
      rw [hxq.rest, length_append]
      omega
    · cases hnot.symm.trans hq
  have hal : Alike c (c :: b) ⟨none, a ++ c :: b⟩ ⟨none, a⟩ := ⟨rfl, .inl rfl⟩
  exact scanFrom_of_scanned (scanned_append (by simp) hr (scan_scanned r a) hal (hskip _)) le_rfl

end

end BoilerplateExpress.Regex

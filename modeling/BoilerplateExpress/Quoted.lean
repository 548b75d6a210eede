import Mathlib.Data.List.Basic
import Mathlib.Tactic

/-!
# Texts with quoted parts

A quoted part begins and ends with `quote`; inside it `escape` takes the next element
literally. `split` cuts a text at the delimiters outside quoted parts and `unquote` reads a
quoted part. Both are compared with a grammar: `Body` is the inside of a quoted part and
`Piece` is a text that closes its quoted parts and has no delimiter outside them.
-/
namespace BoilerplateExpress.Quoted

open List

variable {α : Type*}

/-- The inside of a quoted part, with the text it stands for. -/
inductive Body (quote escape : α) : List α → List α → Prop
  | nil : Body quote escape [] []
  | plain {c : α} {body text : List α} : c ≠ quote → c ≠ escape → Body quote escape body text →
      Body quote escape (c :: body) (c :: text)
  | pair (c : α) {body text : List α} : Body quote escape body text →
      Body quote escape (escape :: c :: body) (c :: text)

/-- A text that has the delimiter inside quoted parts only. -/
inductive Piece (quote escape delimiter : α) : List α → Prop
  | nil : Piece quote escape delimiter []
  | plain {c : α} {rest : List α} : c ≠ quote → c ≠ delimiter → Piece quote escape delimiter rest →
      Piece quote escape delimiter (c :: rest)
  | quoted {body text rest : List α} : Body quote escape body text →
      Piece quote escape delimiter rest →
      Piece quote escape delimiter (quote :: body ++ quote :: rest)

/-- A text that these pieces make up, with the delimiter between them. -/
structure Parts (quote escape delimiter : α) (text : List α) (parts : List (List α)) : Prop where
  nonempty : parts ≠ []
  text_eq : text = [delimiter].intercalate parts
  pieces : ∀ part ∈ parts, Piece quote escape delimiter part

/-- The same pieces in another order, or with more pieces among them. -/
theorem Parts.of_pieces {quote escape delimiter : α} {parts} (hne : parts ≠ [])
    (hpiec : ∀ part ∈ parts, Piece quote escape delimiter part) :
    Parts quote escape delimiter ([delimiter].intercalate parts) parts := ⟨hne, rfl, hpiec⟩

/-- Puts a text in front of the first part. -/
def extend (text : List α) (parts : List α × List (List α)) : List α × List (List α) :=
  (text ++ parts.1, parts.2)

/-- Pieces with a delimiter between them. -/
def join (delimiter : α) (parts : List α × List (List α)) : List α :=
  parts.1 ++ parts.2.flatMap (fun part => delimiter :: part)

@[simp] lemma join_extend (delimiter text) (parts : List α × List (List α)) :
    join delimiter (extend text parts) = text ++ join delimiter parts := by simp [join, extend]

@[simp] lemma extend_extend (s t) (parts : List α × List (List α)) :
    extend s (extend t parts) = extend (s ++ t) parts := by simp [extend]

lemma intercalate_eq_join (delimiter first) (others : List (List α)) :
    [delimiter].intercalate (first :: others) = join delimiter (first, others) := by
  induction others generalizing first with
  | nil => simp [join]
  | cons part others ih =>
    have hrest := ih part
    simp only [intercalate, intersperse_cons_cons, flatten_cons, join] at hrest ⊢
    rw [hrest]
    simp

variable [DecidableEq α]

/-- Where a scan stands: outside quoted parts, inside one, or after an `escape` inside one. -/
inductive Place where
  | outside
  | inside
  | escaped
  deriving DecidableEq

/-- The place after an element inside a quoted part. -/
def Place.next (quote escape c : α) : Place :=
  if c = escape then .escaped else if c = quote then .outside else .inside

/-- The first part of a text and the other ones, or nothing if a quoted part is not closed. -/
def splitFrom (quote escape delimiter : α) : Place → List α → Option (List α × List (List α))
  | .outside, [] => some ([], [])
  | .inside, [] => none
  | .escaped, [] => none
  | .outside, c :: rest =>
    if c = quote then (splitFrom quote escape delimiter .inside rest).map (extend [c])
    else if c = delimiter then
      (splitFrom quote escape delimiter .outside rest).map (fun parts => ([], parts.1 :: parts.2))
    else (splitFrom quote escape delimiter .outside rest).map (extend [c])
  | .inside, c :: rest =>
    (splitFrom quote escape delimiter (Place.next quote escape c) rest).map (extend [c])
  | .escaped, c :: rest => (splitFrom quote escape delimiter .inside rest).map (extend [c])

def split (quote escape delimiter : α) (text : List α) : Option (List (List α)) :=
  (splitFrom quote escape delimiter .outside text).map (fun parts => parts.1 :: parts.2)

/-- The text of a quoted part whose opening quote was read; the flag says that an `escape`
was read last. Nothing may follow the closing quote. -/
def unquote (quote escape : α) : Bool → List α → Option (List α)
  | _, [] => none
  | true, c :: rest => (unquote quote escape false rest).map (c :: ·)
  | false, c :: rest =>
    if c = escape then unquote quote escape true rest
    else if c = quote then if rest.isEmpty then some [] else none
    else (unquote quote escape false rest).map (c :: ·)

section Grammar

variable {quote escape delimiter : α}

/-- A whole quoted part is passed over. -/
lemma splitFrom_body {body text} (he : escape ≠ quote) (h : Body quote escape body text) (rest) :
    splitFrom quote escape delimiter .inside (body ++ quote :: rest) =
      (splitFrom quote escape delimiter .outside rest).map (extend (body ++ [quote])) := by
  induction h with
  | nil => simp [splitFrom, Place.next, Ne.symm he]
  | plain hquote hesc _ ih =>
    simp [splitFrom, Place.next, hquote, hesc, ih, Function.comp_def]
  | pair c _ ih => simp [splitFrom, Place.next, ih, Function.comp_def]

lemma splitFrom_piece (he : escape ≠ quote) {piece}
    (h : Piece quote escape delimiter piece) (rest : List α) :
    splitFrom quote escape delimiter .outside (piece ++ rest) =
      (splitFrom quote escape delimiter .outside rest).map (extend piece) := by
  induction h with
  | nil =>
    have hid : (extend [] : List α × List (List α) → _) = id := rfl
    simp [hid]
  | plain hquote hdelim _ ih => simp [splitFrom, hquote, hdelim, ih, Function.comp_def]
  | quoted hbody _ ih =>
    rw [cons_append, cons_append, append_assoc, cons_append, splitFrom,
      if_pos rfl, splitFrom_body he hbody, ih]
    simp [Function.comp_def]

/-- What a scan from each place has read. -/
def Scanned (quote escape delimiter : α) (place : Place) (text : List α)
    (parts : List α × List (List α)) : Prop :=
  text = join delimiter parts ∧ (∀ part ∈ parts.2, Piece quote escape delimiter part) ∧
    match place with
    | .outside => Piece quote escape delimiter parts.1
    | .inside => ∃ body text rest, parts.1 = body ++ quote :: rest ∧ Body quote escape body text ∧
        Piece quote escape delimiter rest
    | .escaped => ∃ c body text rest, parts.1 = c :: body ++ quote :: rest ∧
        Body quote escape body text ∧ Piece quote escape delimiter rest

lemma splitFrom_scanned {place text parts}
    (h : splitFrom quote escape delimiter place text = some parts) :
    Scanned quote escape delimiter place text parts := by
  induction text generalizing place parts with
  | nil =>
    cases place with
    | outside =>
      rw [← Option.some.inj h]
      exact ⟨rfl, by simp, Piece.nil⟩
    | inside => cases h
    | escaped => cases h
  | cons c rest ih =>
    cases place with
    | outside =>
      rw [splitFrom] at h
      split_ifs at h with hquote hdelimiter
      · obtain ⟨tail, htail, rfl⟩ := Option.map_eq_some_iff.mp h
        obtain ⟨hjoin, hothers, body, text, piece, hfirst, hbody, hpiece⟩ := ih htail
        refine ⟨by rw [join_extend, ← hjoin]; rfl, hothers, ?_⟩
        have hquoted := Piece.quoted hbody hpiece
        simpa [extend, hfirst, hquote] using hquoted
      · obtain ⟨tail, htail, rfl⟩ := Option.map_eq_some_iff.mp h
        obtain ⟨hjoin, hothers, hfirst⟩ := ih htail
        refine ⟨by rw [hjoin, hdelimiter]; simp [join], ?_, Piece.nil⟩
        intro part hpart
        rcases mem_cons.mp hpart with rfl | hpart
        · exact hfirst
        · exact hothers part hpart
      · obtain ⟨tail, htail, rfl⟩ := Option.map_eq_some_iff.mp h
        obtain ⟨hjoin, hothers, hfirst⟩ := ih htail
        exact ⟨by rw [join_extend, ← hjoin]; rfl, hothers, Piece.plain hquote hdelimiter hfirst⟩
    | inside =>
      obtain ⟨tail, htail, rfl⟩ := Option.map_eq_some_iff.mp h
      unfold Place.next at htail
      split_ifs at htail with hescape hquote
      · obtain ⟨hjoin, hothers, e, body, text, piece, hfirst, hbody, hpiece⟩ := ih htail
        refine ⟨by rw [join_extend, ← hjoin]; rfl, hothers, escape :: e :: body, e :: text,
          piece, ?_, Body.pair e hbody, hpiece⟩
        simp [extend, hfirst, hescape]
      · obtain ⟨hjoin, hothers, hfirst⟩ := ih htail
        refine ⟨by rw [join_extend, ← hjoin]; rfl, hothers, [], [], tail.1, ?_, Body.nil, hfirst⟩
        simp [extend, hquote]
      · obtain ⟨hjoin, hothers, body, text, piece, hfirst, hbody, hpiece⟩ := ih htail
        refine ⟨by rw [join_extend, ← hjoin]; rfl, hothers, c :: body, c :: text, piece, ?_,
          Body.plain hquote hescape hbody, hpiece⟩
        simp [extend, hfirst]
    | escaped =>
      obtain ⟨tail, htail, rfl⟩ := Option.map_eq_some_iff.mp h
      obtain ⟨hjoin, hothers, body, text, piece, hfirst, hbody, hpiece⟩ := ih htail
      refine ⟨by rw [join_extend, ← hjoin]; rfl, hothers, c, body, text, piece, ?_, hbody, hpiece⟩
      simp [extend, hfirst]

lemma splitFrom_join {first others} (he : escape ≠ quote) (hd : delimiter ≠ quote)
    (hfst : Piece quote escape delimiter first)
    (hoth : ∀ part ∈ others, Piece quote escape delimiter part) :
    splitFrom quote escape delimiter .outside (join delimiter (first, others)) =
      some (first, others) := by
  induction others generalizing first with
  | nil =>
    have hsplit := splitFrom_piece he hfst ([] : List α)
    simpa [join, splitFrom, extend] using hsplit
  | cons part others ih =>
    have hrest := ih (hoth part (by simp)) (fun other h => hoth other (by simp [h]))
    have hjoin : join delimiter (first, part :: others) =
        first ++ delimiter :: join delimiter (part, others) := by simp [join]
    rw [hjoin, splitFrom_piece he hfst, splitFrom, if_neg hd, if_pos rfl, hrest]
    simp [extend]

/-- The parts of a text are the only pieces that join to it. -/
theorem split_eq_some_iff (he : escape ≠ quote) (hd : delimiter ≠ quote) (text parts) :
    split quote escape delimiter text = some parts ↔ Parts quote escape delimiter text parts := by
  constructor
  · intro h
    obtain ⟨⟨first, others⟩, hparts, rfl⟩ := Option.map_eq_some_iff.mp h
    obtain ⟨hjoin, hoth, hfst⟩ := splitFrom_scanned hparts
    refine ⟨by simp, by rw [intercalate_eq_join, hjoin], fun part hpart => ?_⟩
    rcases mem_cons.mp hpart with rfl | hpart
    · exact hfst
    · exact hoth part hpart
  · rintro ⟨hne, rfl, hpiec⟩
    cases parts with
    | nil => exact absurd rfl hne
    | cons first others =>
      rw [intercalate_eq_join, split, splitFrom_join he hd (hpiec first (by simp))
        (fun part h => hpiec part (by simp [h]))]
      rfl

lemma unquote_body {body text} (he : escape ≠ quote) (h : Body quote escape body text) :
    unquote quote escape false (body ++ [quote]) = some text := by
  induction h with
  | nil => simp [unquote, Ne.symm he]
  | plain hquote hesc _ ih => simp [unquote, hquote, hesc, ih]
  | pair c _ ih => simp [unquote, ih]

lemma body_of_unquote {escaped raw text} (h : unquote quote escape escaped raw = some text) :
    ∃ body, (if escaped then escape :: raw else raw) = body ++ [quote] ∧
      Body quote escape body text := by
  induction raw generalizing escaped text with
  | nil => cases escaped <;> cases h
  | cons c rest ih =>
    cases escaped with
    | true =>
      obtain ⟨tail, htail, rfl⟩ := Option.map_eq_some_iff.mp h
      obtain ⟨body, hrest, hbody⟩ := ih htail
      refine ⟨escape :: c :: body, ?_, Body.pair c hbody⟩
      simpa using hrest
    | false =>
      rw [unquote] at h
      split_ifs at h with hesc hquote hend
      · obtain ⟨body, hrest, hbody⟩ := ih h
        exact ⟨body, by simpa [hesc] using hrest, hbody⟩
      · rw [← Option.some.inj h]
        exact ⟨[], by simpa [hquote] using hend, Body.nil⟩
      · obtain ⟨tail, htail, rfl⟩ := Option.map_eq_some_iff.mp h
        obtain ⟨body, hrest, hbody⟩ := ih htail
        exact ⟨c :: body, by simpa using hrest, Body.plain hquote hesc hbody⟩

/-- A quoted part is read as the text it stands for, and nothing else is read. -/
theorem unquote_eq_some_iff (he : escape ≠ quote) (raw text) :
    unquote quote escape false raw = some text ↔
      ∃ body, raw = body ++ [quote] ∧ Body quote escape body text := by
  constructor
  · intro h
    exact body_of_unquote h
  · rintro ⟨body, rfl, hbody⟩
    exact unquote_body he hbody

end Grammar

end BoilerplateExpress.Quoted

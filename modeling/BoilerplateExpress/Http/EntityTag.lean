import BoilerplateExpress.EventStream

/-!
# Entity-tags

`http/entity-tag.ts`: the two comparisons, the reader of one entity-tag and the reader of a
list of them. A reader that stands at a position of the field is given the rest of the field
from there and returns what it has left.
-/
namespace BoilerplateExpress.Http

open EventStream (units)
open List

structure EntityTag where
  weak : Bool
  /-- What stands between the quotes. -/
  value : JsString
  deriving DecidableEq, Repr

def strongMatch (a b : EntityTag) : Bool := !a.weak && !b.weak && a.value = b.value

def weakMatch (a b : EntityTag) : Bool := a.value = b.value

def formatEntityTag (tag : EntityTag) : JsString :=
  (if tag.weak then units "W/" else []) ++ 34 :: tag.value ++ [34]

def isEtagChar (u : UInt16) : Bool :=
  u = 0x21 || (0x23 ≤ u && u ≤ 0x7E) || (0x80 ≤ u && u ≤ 0xFF)

/-- The quoted part. -/
def readOpaque (weak : Bool) (text : JsString) : Option (EntityTag × JsString) :=
  if text.head? = some 34 then
    match Text.cut 34 text.tail with
    | none => none
    | some (value, rest) => if value.all isEtagChar then some (⟨weak, value⟩, rest) else none
  else none

def readEntityTag (text : JsString) : Option (EntityTag × JsString) :=
  if text.take 2 = units "W/" then readOpaque true (text.drop 2) else readOpaque false text

/-- One entity-tag and nothing after it. -/
def parseEntityTag (header : JsString) : Option EntityTag :=
  match readEntityTag (JsString.trim header) with
  | some (tag, []) => some tag
  | _ => none

def isOws (u : UInt16) : Bool := u = 32 || u = 9

def skipOws (text : JsString) : JsString := text.dropWhile isOws

/-- Commas are skipped together with the white space around them. -/
def skipSeparators (text : JsString) : JsString := text.dropWhile (fun u => isOws u || u = 44)

/-- The loop over the members. A turn reads two quotes at least, so the length of the field
bounds the turns. -/
def readTags : ℕ → JsString → Option (List EntityTag)
  | 0, _ => none
  | turns + 1, text =>
    if text = [] then some []
    else
      match readEntityTag text with
      | none => none
      | some (tag, rest) =>
        if skipOws rest = [] then some [tag]
        else if (skipOws rest).head? ≠ some 44 then none
        else (readTags turns (skipSeparators (skipOws rest))).map (tag :: ·)

def parseEntityTagList (header : JsString) : Option (List EntityTag) :=
  match readTags (header.length + 1) (skipSeparators header) with
  | some (tag :: tags) => some (tag :: tags)
  | _ => none

/-- A value can be written between quotes. -/
def EntityTag.WellFormed (tag : EntityTag) : Prop := ∀ u ∈ tag.value, isEtagChar u = true

variable {text rest : JsString} {tag : EntityTag}

lemma readOpaque_eq_some_iff {weak} :
    readOpaque weak text = some (tag, rest) ↔
      tag.weak = weak ∧ tag.WellFormed ∧ text = 34 :: tag.value ++ 34 :: rest := by
  constructor
  · intro h
    unfold readOpaque at h
    split_ifs at h with hhead
    cases hcut : Text.cut 34 text.tail with
    | none => simp [hcut] at h
    | some cut =>
      simp only [hcut] at h
      split_ifs at h with hvalue
      cases h
      refine ⟨rfl, all_eq_true.mp hvalue, ?_⟩
      rw [cons_append, ← (Text.cut_eq_some_iff.mp hcut).1, cons_head?_tail hhead]
  · obtain ⟨weak', value⟩ := tag
    rintro ⟨rfl, hvalue, rfl⟩
    have hquote : 34 ∉ value := fun hmem => absurd (hvalue 34 hmem) (by decide)
    have hcut : Text.cut 34 (value ++ 34 :: rest) = some (value, rest) :=
      Text.cut_eq_some_iff.mpr ⟨rfl, hquote⟩
    have hall : value.all isEtagChar := all_eq_true.mpr hvalue
    simp [readOpaque, hcut, hall]

lemma formatEntityTag_weak (value) :
    formatEntityTag ⟨true, value⟩ = 87 :: 47 :: 34 :: value ++ [34] := by
  have hweak : units "W/" = [87, 47] := by decide
  simp [formatEntityTag, hweak]

lemma readEntityTag_eq_some_iff :
    readEntityTag text = some (tag, rest) ↔
      tag.WellFormed ∧ text = formatEntityTag tag ++ rest := by
  obtain ⟨weak, value⟩ := tag
  have hweak : units "W/" = [87, 47] := by decide
  unfold readEntityTag
  split_ifs with hmark
  · obtain ⟨tail, rfl⟩ : ∃ tail, text = 87 :: 47 :: tail :=
      ⟨text.drop 2, by rw [← take_append_drop 2 text, hmark, hweak]; simp⟩
    cases weak <;> simp [readOpaque_eq_some_iff, formatEntityTag, hweak]
  · cases weak with
    | false => simp [readOpaque_eq_some_iff, formatEntityTag]
    | true =>
      refine iff_of_false (by simp [readOpaque_eq_some_iff]) ?_
      rintro ⟨-, rfl⟩
      exact hmark (by simp [formatEntityTag, hweak])

lemma parseEntityTag_format (h : tag.WellFormed) :
    parseEntityTag (formatEntityTag tag) = some tag := by
  have hhead : ∀ u ∈ (formatEntityTag tag).head?, JsString.isSpace u = false := by
    obtain ⟨weak, value⟩ := tag
    cases weak with
    | _ =>
      rintro u ⟨⟩
      decide
  have hlast : ∀ u ∈ (formatEntityTag tag).getLast?, JsString.isSpace u = false := by
    rw [formatEntityTag, getLast?_append, getLast?_singleton]
    rintro u ⟨⟩
    decide
  have hread := readEntityTag_eq_some_iff.mpr ⟨h, (append_nil (formatEntityTag tag)).symm⟩
  simp [parseEntityTag, JsString.trim_eq_self hhead hlast, hread]

def isSeparator (u : UInt16) : Bool := isOws u || u = 44

/-- Spaces, tabs and commas. -/
def Separators (text : JsString) : Prop := ∀ u ∈ text, isSeparator u = true

/-- Entity-tags with a comma between any two of them, and more separators around it or behind
them all. -/
inductive Members : List EntityTag → JsString → Prop
  | last {tag : EntityTag} {trail : JsString} : tag.WellFormed → Separators trail →
      Members [tag] (formatEntityTag tag ++ trail)
  | more {tag : EntityTag} {tags : List EntityTag} {gap rest : JsString} : tag.WellFormed →
      Separators gap → 44 ∈ gap → Members tags rest →
      Members (tag :: tags) (formatEntityTag tag ++ (gap ++ rest))

lemma skipSeparators_append {gap} (h : Separators gap) :
    skipSeparators (gap ++ rest) = skipSeparators rest := dropWhile_append_of_pos h

lemma Members.skipSeparators_eq {tags} (h : Members tags text) : skipSeparators text = text := by
  have hfor : ∀ (tag : EntityTag) rest,
      skipSeparators (formatEntityTag tag ++ rest) = formatEntityTag tag ++ rest := by
    rintro ⟨weak, value⟩ rest
    cases weak with
    | true => rw [formatEntityTag_weak]; rfl
    | false => rfl
  cases h with
  | last => exact hfor _ _
  | more => exact hfor _ _

/-- After a tag the separators are skipped up to the next tag, if they have a comma. -/
lemma readTags_format {gap} (hgap : Separators gap) (hcomma : 44 ∈ gap) (htag : tag.WellFormed)
    (turns) :
    readTags (turns + 1) (formatEntityTag tag ++ (gap ++ rest)) =
      (readTags turns (skipSeparators rest)).map (tag :: ·) := by
  obtain ⟨ows, after, rfl, hows⟩ := eq_append_cons_of_mem hcomma
  have hskip : skipOws (ows ++ 44 :: after ++ rest) = 44 :: (after ++ rest) := by
    rw [append_assoc, skipOws, dropWhile_append_of_pos]
    · rfl
    · intro u hu
      have hsep := hgap u (mem_append_left _ hu)
      have hne : u ≠ 44 := fun heq => hows (heq ▸ hu)
      simpa [isSeparator, hne] using hsep
  have hrest : skipSeparators (44 :: after ++ rest) = skipSeparators rest :=
    skipSeparators_append fun u hu => hgap u (mem_append_right ows hu)
  rw [cons_append] at hrest
  have hread : readEntityTag (formatEntityTag tag ++ (ows ++ 44 :: after ++ rest)) =
      some (tag, ows ++ 44 :: after ++ rest) := readEntityTag_eq_some_iff.mpr ⟨htag, rfl⟩
  rw [readTags, if_neg (by simp), hread]
  simp only [hskip, hrest, reduceCtorEq, if_false, head?_cons, ne_eq, not_true_eq_false]

variable {tags : List EntityTag}

/-- The bound on the turns is never what ends the loop. -/
lemma readTags_of_members {turns} (h : Members tags text) (hturns : text.length < turns) :
    readTags turns text = some tags := by
  induction h generalizing turns with
  | @last tag trail htag htrail =>
    obtain ⟨turns, rfl⟩ : ∃ n, turns = n + 2 := ⟨turns - 2, by simp [formatEntityTag] at hturns; omega⟩
    by_cases hcomma : 44 ∈ trail
    · rw [← append_nil trail, readTags_format htrail hcomma htag]
      rfl
    · have hskip : skipOws trail = [] := by
        refine dropWhile_eq_nil_iff.mpr fun u hu => ?_
        have hne : u ≠ 44 := fun heq => hcomma (heq ▸ hu)
        simpa [isSeparator, hne] using htrail u hu
      have hread : readEntityTag (formatEntityTag tag ++ trail) = some (tag, trail) :=
        readEntityTag_eq_some_iff.mpr ⟨htag, rfl⟩
      rw [readTags, if_neg (by simp [formatEntityTag]), hread]
      simp [hskip]
  | @more tag tags gap rest htag hgap hcomma hmems ih =>
    obtain ⟨turns, rfl⟩ : ∃ n, turns = n + 1 := ⟨turns - 1, by omega⟩
    rw [readTags_format hgap hcomma htag, hmems.skipSeparators_eq, ih]
    · rfl
    · simp [formatEntityTag] at hturns
      omega

lemma members_of_readTags {turns} (h : readTags turns text = some tags) :
    (text = [] ∧ tags = []) ∨ Members tags text := by
  induction turns generalizing text tags with
  | zero => cases h
  | succ turns ih =>
    rw [readTags] at h
    split_ifs at h with hemp
    · exact .inl ⟨hemp, (Option.some.inj h).symm⟩
    · cases hread : readEntityTag text with
      | none => simp [hread] at h
      | some read =>
        obtain ⟨tag, rest⟩ := read
        obtain ⟨htag, rfl⟩ := readEntityTag_eq_some_iff.mp hread
        simp only [hread] at h
        split_ifs at h with hend hcomma
        · cases h
          exact .inr (.last htag fun u hu => by
            simp [isSeparator, dropWhile_eq_nil_iff.mp hend u hu])
        · obtain ⟨tags, htags, rfl⟩ := Option.map_eq_some_iff.mp h
          -- what lies before the next tag: white space, then separators from the first comma on
          obtain ⟨after, haft⟩ : ∃ after, skipOws rest = 44 :: after :=
            ⟨_, (cons_head?_tail (not_not.mp hcomma)).symm⟩
          obtain ⟨gap, hrest, hgap, hmem⟩ : ∃ gap, rest = gap ++ skipSeparators (skipOws rest) ∧
              Separators gap ∧ 44 ∈ gap := by
            have hows : rest.takeWhile isOws ++ skipOws rest = rest := takeWhile_append_dropWhile
            have hnext : (skipOws rest).takeWhile isSeparator ++ skipSeparators (skipOws rest) =
                skipOws rest := takeWhile_append_dropWhile
            refine ⟨rest.takeWhile isOws ++ (skipOws rest).takeWhile isSeparator,
              by rw [append_assoc, hnext, hows], ?_, by simp [haft, isSeparator]⟩
            intro u hu
            rcases mem_append.mp hu with hu | hu
            · simp [isSeparator, mem_takeWhile_imp hu]
            · exact mem_takeWhile_imp hu
          rw [hrest]
          rcases ih htags with ⟨hnil, rfl⟩ | hmems
          · rw [hnil, append_nil]
            exact .inr (.last htag hgap)
          · exact .inr (.more htag hgap hmem hmems)

/-- A list of entity-tags: members of which the empty ones count for nothing. -/
def TagList (tags : List EntityTag) (header : JsString) : Prop :=
  ∃ lead rest, header = lead ++ rest ∧ Separators lead ∧ Members tags rest

/-- The fields that are read are the lists of one or more entity-tags, and their tags are the
members in order. -/
theorem parseEntityTagList_eq_some_iff (header : JsString) (tags : List EntityTag) :
    parseEntityTagList header = some tags ↔ TagList tags header := by
  constructor
  · intro h
    have hread : readTags (header.length + 1) (skipSeparators header) = some tags ∧ tags ≠ [] := by
      unfold parseEntityTagList at h
      split at h
      · rename_i hread
        cases h
        exact ⟨hread, by simp⟩
      · cases h
    have hmems := (members_of_readTags hread.1).resolve_left fun hnil => hread.2 hnil.2
    exact ⟨header.takeWhile isSeparator, skipSeparators header,
      takeWhile_append_dropWhile.symm, fun u hu => mem_takeWhile_imp hu, hmems⟩
  · rintro ⟨lead, rest, rfl, hlead, hmems⟩
    have hread : readTags ((lead ++ rest).length + 1) (skipSeparators (lead ++ rest)) = some tags := by
      rw [skipSeparators_append hlead, hmems.skipSeparators_eq]
      exact readTags_of_members hmems (by simp only [length_append]; omega)
    rw [parseEntityTagList, hread]
    cases hmems <;> rfl

end BoilerplateExpress.Http

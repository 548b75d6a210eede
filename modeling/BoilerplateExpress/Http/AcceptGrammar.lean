import BoilerplateExpress.Http.Accept

/-!
# The grammar of the `Accept` field

What the module documents as well formed, stated as relations between texts and what they
denote: a media range is `type/subtype`, then parameters with different names, then at most
one weight, then extensions that count for nothing; white space around each part and the case
of names do not matter. The parser reads exactly that.
-/
namespace BoilerplateExpress.Http

open EventStream (units)
open List

/-- A token, or a quoted string with the text it stands for. -/
inductive Value : JsString → JsString → Prop
  | token {raw : JsString} : isToken raw = true → Value raw raw
  | quoted {body text : JsString} : Quoted.Body 34 92 body text → Value (34 :: body ++ [34]) text

/-- A weight: `0` to `1` with at most three decimals. -/
inductive Weight : JsString → ℚ → Prop
  | zero : Weight (units "0") 0
  | one : Weight (units "1") 1
  | decimals {digits : JsString} : 1 ≤ digits.length → digits.length ≤ 3 →
      (∀ u ∈ digits, isDigitUnit u = true) →
      Weight (units "0." ++ digits) (Text.digitsToNat (JsString.toText digits) / 10 ^ digits.length)
  | zeros {n : ℕ} : 1 ≤ n → n ≤ 3 → Weight (units "1." ++ List.replicate n 48) 1

section Texts

variable (toLowerCase : JsString → JsString)

/-- `name=value`, the name in any case, with white space around both. -/
structure Assigns (segment name raw : JsString) : Prop where
  token : isToken name = true
  parts : ∃ left right, segment = left ++ 61 :: right ∧ 61 ∉ left ∧
    name = toLowerCase (JsString.trim left) ∧ raw = JsString.trim right

/-- The segments after the media type, with the parameters, the weight and whether it was
written out. -/
inductive SegmentsDenote : List JsString → List (JsString × JsString) → ℚ → Bool → Prop
  | bare : SegmentsDenote [] [] 1 false
  | weight {segment raw : JsString} {quality : ℚ} {extensions : List JsString} :
      Assigns toLowerCase segment (units "q") raw → Weight raw quality →
      (∀ extension ∈ extensions, ∃ name raw, Assigns toLowerCase extension name raw ∧
        name ≠ units "q") →
      SegmentsDenote (segment :: extensions) [] quality true
  | parameter {segment name raw value : JsString} {segments : List JsString}
      {parameters : List (JsString × JsString)} {quality : ℚ} {weighted : Bool} :
      Assigns toLowerCase segment name raw → name ≠ units "q" → Value raw value →
      name ∉ parameters.map Prod.fst → SegmentsDenote segments parameters quality weighted →
      SegmentsDenote (segment :: segments) ((name, value) :: parameters) quality weighted

/-- `type/subtype`. -/
structure TypeDenotes (mediaType type subtype : JsString) : Prop where
  parts : ∃ left right, mediaType = left ++ 47 :: right ∧ 47 ∉ left ∧
    type = toLowerCase (JsString.trim left) ∧ subtype = toLowerCase (JsString.trim right)
  type_ok : type = wildcard ∨ isToken type = true
  subtype_ok : subtype = wildcard ∨ isToken subtype = true
  wildcards : type = wildcard → subtype = wildcard

/-- A member of the field, as the range it stands for. -/
def RangeDenotes (member : JsString) (range : MediaRange) : Prop :=
  ∃ mediaType segments, Quoted.Parts 34 92 59 member (mediaType :: segments) ∧
    TypeDenotes toLowerCase mediaType range.type range.subtype ∧
    SegmentsDenote toLowerCase segments range.parameters.entries range.quality range.weighted

/-- An offer is a concrete media type without a weight. -/
def OfferDenotes (offer : JsString) (mediaType : MediaType) : Prop :=
  ∃ range, RangeDenotes toLowerCase offer range ∧ range.type ≠ wildcard ∧
    range.subtype ≠ wildcard ∧ range.weighted = false ∧ range.toMediaType = mediaType

/-- A field is a list of members, of which the blank ones count for nothing. -/
def FieldDenotes (field : JsString) (ranges : List MediaRange) : Prop :=
  ∃ members, Quoted.Parts 34 92 44 field members ∧
    List.Forall₂ (RangeDenotes toLowerCase)
      ((members.map JsString.trim).filter (fun member => member ≠ [])) ranges

end Texts

lemma splitUnquoted_eq_some_iff {delimiter} (hd : delimiter ≠ 34) (field parts) :
    splitUnquoted field delimiter = some parts ↔ Quoted.Parts 34 92 delimiter field parts :=
  Quoted.split_eq_some_iff (by decide) hd field parts

lemma head_of_isToken {raw} (h : isToken raw) : raw.head? ≠ some 34 := by
  intro hhead
  simp only [isToken, Bool.and_eq_true, all_eq_true] at h
  have hquote := h.2 34 (mem_of_head? hhead)
  cases hquote

lemma parseParameterValue_eq_some_iff (raw value) :
    parseParameterValue raw = some value ↔ Value raw value := by
  constructor
  · intro h
    unfold parseParameterValue at h
    split_ifs at h with hhead htoken
    · obtain ⟨body, htail, hbody⟩ := (Quoted.unquote_eq_some_iff (by decide) raw.tail value).mp h
      have hraw : raw = 34 :: body ++ [34] := by
        rw [← cons_head?_tail hhead, htail]
        rfl
      rw [hraw]
      exact Value.quoted hbody
    · rw [← Option.some.inj h]
      exact Value.token htoken
  · intro h
    cases h with
    | token htoken => rw [parseParameterValue, if_neg (head_of_isToken htoken), if_pos htoken]
    | quoted hbody =>
      have hread := (Quoted.unquote_eq_some_iff (by decide) _ _).mpr ⟨_, rfl, hbody⟩
      simpa [parseParameterValue] using hread

lemma units_zeroPoint : units "0." = [48, 46] := by decide

lemma units_onePoint : units "1." = [49, 46] := by decide

lemma decimal_zero : decimal (units "0") = 0 := by decide +kernel

lemma decimal_one : decimal (units "1") = 1 := by decide +kernel

lemma decimal_zeroPoint (digits) :
    decimal (units "0." ++ digits) =
      Text.digitsToNat (JsString.toText digits) / 10 ^ digits.length := by
  have hzero : Text.digitsToNat (JsString.toText [48]) = 0 := by decide
  simp [decimal, units_zeroPoint, hzero]

lemma decimal_onePoint {n} (h : n ≤ 3) : decimal (units "1." ++ replicate n 48) = 1 := by
  interval_cases n <;> decide +kernel

lemma parseQuality_eq_some_iff (raw quality) :
    parseQuality raw = some quality ↔ Weight raw quality := by
  constructor
  · intro h
    unfold parseQuality at h
    split_ifs at h with hshape
    rw [← Option.some.inj h]
    simp only [isQuality, Bool.or_eq_true, Bool.and_eq_true, decide_eq_true_eq,
      all_eq_true] at hshape
    obtain (rfl | rfl) | ⟨⟨hlow, hhigh⟩, ⟨hpoint, hdig⟩ | ⟨hpoint, hzeros⟩⟩ := hshape
    · rw [decimal_zero]
      exact Weight.zero
    · rw [decimal_one]
      exact Weight.one
    · rw [← take_append_drop 2 raw, hpoint, decimal_zeroPoint]
      exact Weight.decimals hlow hhigh hdig
    · have hrep := eq_replicate_of_mem hzeros
      rw [← take_append_drop 2 raw, hpoint, hrep, decimal_onePoint hhigh]
      exact Weight.zeros hlow hhigh
  · intro h
    unfold parseQuality
    cases h with
    | zero => decide +kernel
    | one => decide +kernel
    | decimals hlow hhigh hdig =>
      rw [if_pos, decimal_zeroPoint]
      simp only [isQuality, units_zeroPoint, cons_append, take_succ_cons, take_zero,
        Bool.or_eq_true, Bool.and_eq_true, decide_eq_true_eq, all_eq_true]
      exact .inr ⟨⟨hlow, hhigh⟩, .inl ⟨trivial, hdig⟩⟩
    | zeros hlow hhigh =>
      rw [if_pos, decimal_onePoint hhigh]
      simp only [isQuality, units_onePoint, cons_append, nil_append, drop_succ_cons,
        drop_zero, take_succ_cons, take_zero, Bool.or_eq_true, Bool.and_eq_true,
        decide_eq_true_eq, all_eq_true, length_replicate]
      exact .inr ⟨⟨hlow, hhigh⟩, .inr ⟨trivial, fun u hu => eq_of_mem_replicate hu⟩⟩

section Parser

variable (toLowerCase : JsString → JsString)

lemma readMediaType_eq_some_iff (mediaType type subtype) :
    readMediaType toLowerCase mediaType = some (type, subtype) ↔
      TypeDenotes toLowerCase mediaType type subtype := by
  constructor
  · intro h
    unfold readMediaType at h
    cases hcut : Text.cut 47 mediaType with
    | none =>
      rw [hcut] at h
      cases h
    | some parts =>
      obtain ⟨left, right⟩ := parts
      obtain ⟨hmt, hleft⟩ := Text.cut_eq_some_iff.mp hcut
      simp only [hcut] at h
      split_ifs at h with htype hsub hwil
      obtain ⟨rfl, rfl⟩ := Prod.mk.inj (Option.some.inj h)
      refine ⟨⟨left, right, hmt, hleft, rfl, rfl⟩, by simpa [or_iff_not_imp_left] using htype,
        by simpa [or_iff_not_imp_left] using hsub, ?_⟩
      intro hwild
      by_contra hne
      exact hwil ⟨hwild, hne⟩
  · rintro ⟨⟨left, right, hmt, hleft, rfl, rfl⟩, htype, hsub, hwil⟩
    have hcut := Text.cut_eq_some_iff.mpr ⟨hmt, hleft⟩
    simp only [readMediaType, hcut]
    rw [if_neg (by simpa [or_iff_not_imp_left] using htype),
      if_neg (by simpa [or_iff_not_imp_left] using hsub),
      if_neg (fun hboth => hboth.2 (hwil hboth.1))]

lemma assigns_iff {name raw} {segment} :
    Assigns toLowerCase segment name raw ↔ ∃ left right, Text.cut 61 segment = some (left, right) ∧
        name = toLowerCase (JsString.trim left) ∧ raw = JsString.trim right ∧ isToken name := by
  constructor
  · rintro ⟨htoken, left, right, hseg, hleft, hname, hraw⟩
    exact ⟨left, right, Text.cut_eq_some_iff.mpr ⟨hseg, hleft⟩, hname, hraw, htoken⟩
  · rintro ⟨left, right, hcut, hname, hraw, htoken⟩
    obtain ⟨hseg, hleft⟩ := Text.cut_eq_some_iff.mp hcut
    exact ⟨htoken, left, right, hseg, hleft, hname, hraw⟩

lemma assigns_of_readSegment {read next segment}
    (h : readSegment toLowerCase read segment = some next) :
    ∃ name raw, Assigns toLowerCase segment name raw := by
  unfold readSegment at h
  cases hcut : Text.cut 61 segment with
  | none =>
    rw [hcut] at h
    cases h
  | some parts =>
    by_cases htoken : isToken (toLowerCase (JsString.trim parts.1))
    · exact ⟨_, _, (assigns_iff toLowerCase).mpr ⟨parts.1, parts.2, hcut, rfl, rfl, htoken⟩⟩
    · simp [hcut, htoken] at h

/-- What a segment does: give the weight, stand after it, or give a parameter. -/
lemma readSegment_eq_some_iff {name raw} {segment} (h : Assigns toLowerCase segment name raw)
    (read next) :
    readSegment toLowerCase read segment = some next ↔ if name = units "q" then
        ∃ quality, Weight raw quality ∧ read.weightSeen = false ∧
          { read with quality, weightSeen := true } = next
      else if read.weightSeen then read = next
      else ∃ value, Value raw value ∧ read.parameters.get name = none ∧
        { read with parameters := read.parameters.set name value } = next := by
  obtain ⟨left, right, hcut, rfl, rfl, htoken⟩ := (assigns_iff toLowerCase).mp h
  simp only [readSegment, hcut, htoken, ← parseQuality_eq_some_iff,
    ← parseParameterValue_eq_some_iff]
  by_cases hname : toLowerCase (JsString.trim left) = units "q"
  · simp only [if_pos hname]
    cases parseQuality (JsString.trim right) <;> simp
  · simp only [if_neg hname]
    by_cases hseen : read.weightSeen
    · simp [hseen]
    · simp only [if_neg hseen]
      cases parseParameterValue (JsString.trim right) <;>
        cases hget : read.parameters.get (toLowerCase (JsString.trim left)) <;>
          simp [OrderedMap.has, hget]

lemma readExtensions_iff (quality m) (segments : List JsString) (read) :
    segments.foldlM (readSegment toLowerCase) ⟨quality, true, m⟩ = some read ↔
      (∀ segment ∈ segments, ∃ name raw, Assigns toLowerCase segment name raw ∧ name ≠ units "q") ∧
        read = ⟨quality, true, m⟩ := by
  induction segments with
  | nil => simp [eq_comm]
  | cons segment segments ih =>
    rw [foldlM_cons, Option.bind_eq_bind, Option.bind_eq_some_iff]
    constructor
    · rintro ⟨next, hnext, hrest⟩
      obtain ⟨name, raw, hasg⟩ := assigns_of_readSegment toLowerCase hnext
      rw [readSegment_eq_some_iff toLowerCase hasg] at hnext
      by_cases hname : name = units "q"
      · rw [if_pos hname] at hnext
        obtain ⟨_, -, hseen, -⟩ := hnext
        cases hseen
      · rw [if_neg hname, if_pos rfl] at hnext
        subst hnext
        obtain ⟨hsegs, hread⟩ := ih.mp hrest
        exact ⟨forall_mem_cons.mpr ⟨⟨name, raw, hasg, hname⟩, hsegs⟩, hread⟩
    · rintro ⟨hall, hread⟩
      obtain ⟨⟨name, raw, hasg, hname⟩, hsegs⟩ := forall_mem_cons.mp hall
      refine ⟨_, (readSegment_eq_some_iff toLowerCase hasg _ _).mpr ?_,
        ih.mpr ⟨hsegs, hread⟩⟩
      simp [hname]

lemma readSegments_iff (m segments read) :
    segments.foldlM (readSegment toLowerCase) ⟨1, false, m⟩ = some read ↔
      ∃ parameters, SegmentsDenote toLowerCase segments parameters read.quality read.weightSeen ∧
        read.parameters.entries = m.entries ++ parameters := by
  induction segments generalizing m with
  | nil =>
    constructor
    · intro h
      rw [← Option.some.inj h]
      exact ⟨[], SegmentsDenote.bare, by simp⟩
    · rintro ⟨parameters, hden, hents⟩
      obtain ⟨quality, weightSeen, n⟩ := read
      cases hden
      rw [append_nil] at hents
      obtain rfl : n = m := OrderedMap.eq_of_entries hents
      rfl
  | cons segment segments ih =>
    rw [foldlM_cons, Option.bind_eq_bind, Option.bind_eq_some_iff]
    constructor
    · rintro ⟨next, hnext, hrest⟩
      obtain ⟨name, raw, hasg⟩ := assigns_of_readSegment toLowerCase hnext
      rw [readSegment_eq_some_iff toLowerCase hasg] at hnext
      by_cases hname : name = units "q"
      · rw [if_pos hname] at hnext
        obtain ⟨quality, hwt, -, rfl⟩ := hnext
        obtain ⟨hext, rfl⟩ := (readExtensions_iff toLowerCase _ _ _ _).mp hrest
        exact ⟨[], SegmentsDenote.weight (hname ▸ hasg) hwt hext, by simp⟩
      · rw [if_neg hname] at hnext
        obtain ⟨value, hvalue, hfresh, rfl⟩ := hnext
        obtain ⟨parameters, hden, hents⟩ := (ih _).mp hrest
        rw [OrderedMap.entries_set_of_none hfresh, append_assoc] at hents
        have hnd := read.parameters.nodup
        rw [hents, map_append, nodup_append] at hnd
        exact ⟨(name, value) :: parameters, SegmentsDenote.parameter hasg hname hvalue
          (nodup_cons.mp hnd.2.1).1 hden, hents⟩
    · rintro ⟨parameters, hden, hents⟩
      obtain ⟨quality, weightSeen, n⟩ := read
      cases hden with
      | weight hasg hwt hext =>
        rw [append_nil] at hents
        obtain rfl : m = n := (OrderedMap.eq_of_entries hents).symm
        refine ⟨⟨quality, true, m⟩, (readSegment_eq_some_iff toLowerCase hasg _ _).mpr ?_,
          (readExtensions_iff toLowerCase _ _ _ _).mpr ⟨hext, rfl⟩⟩
        exact ⟨quality, hwt, rfl, rfl⟩
      | @parameter _ name _ value _ _ _ _ hasg hname hvalue _ hrest =>
        have hnd := n.nodup
        rw [hents, map_append, nodup_append] at hnd
        have hget := m.get_eq_none_of_not_mem_keys
          (fun hmem => hnd.2.2 _ hmem _ mem_cons_self rfl)
        refine ⟨⟨1, false, m.set name value⟩,
          (readSegment_eq_some_iff toLowerCase hasg _ _).mpr ?_, (ih _).mpr ⟨_, hrest, ?_⟩⟩
        · rw [if_neg hname]
          exact ⟨_, hvalue, hget, rfl⟩
        · rw [OrderedMap.entries_set_of_none hget, append_assoc]
          exact hents

lemma parseMediaRange_eq_some_iff (member range) :
    parseMediaRange toLowerCase member = some range ↔ RangeDenotes toLowerCase member range := by
  constructor
  · intro h
    unfold parseMediaRange at h
    split at h
    · rename_i mediaType rest hparts
      obtain ⟨⟨type, subtype⟩, htype, hmore⟩ := Option.bind_eq_some_iff.mp h
      obtain ⟨read, hread, hrange⟩ := Option.bind_eq_some_iff.mp hmore
      obtain ⟨parameters, hden, hents⟩ := (readSegments_iff toLowerCase _ _ _).mp hread
      rw [← Option.some.inj hrange]
      refine ⟨mediaType, rest, (splitUnquoted_eq_some_iff (by decide) _ _).mp hparts,
        (readMediaType_eq_some_iff toLowerCase _ _ _).mp htype, ?_⟩
      have hsame : read.parameters.entries = parameters := hents
      rw [hsame]
      exact hden
    · cases h
  · rintro ⟨mediaType, segments, hparts, htype, hsegs⟩
    have hread := (readSegments_iff toLowerCase OrderedMap.empty segments
      ⟨range.quality, range.weighted, range.parameters⟩).mpr ⟨_, hsegs, rfl⟩
    have hcut := (splitUnquoted_eq_some_iff (by decide) _ _).mpr hparts
    have hmedia := (readMediaType_eq_some_iff toLowerCase _ _ _).mpr htype
    simp [parseMediaRange, hcut, hmedia, hread]

lemma parseOffer_eq_some_iff (offer mediaType) :
    parseOffer toLowerCase offer = some mediaType ↔ OfferDenotes toLowerCase offer mediaType := by
  constructor
  · intro h
    unfold parseOffer at h
    cases hpar : parseMediaRange toLowerCase offer with
    | none =>
      rw [hpar] at h
      cases h
    | some range =>
      simp only [hpar] at h
      split_ifs at h with hwil hweig
      rw [not_or] at hwil
      exact ⟨range, (parseMediaRange_eq_some_iff toLowerCase _ _).mp hpar, hwil.1,
        hwil.2, Bool.eq_false_of_not_eq_true hweig, Option.some.inj h⟩
  · rintro ⟨range, hden, htype, hsub, hweig, rfl⟩
    have hpar := (parseMediaRange_eq_some_iff toLowerCase _ _).mpr hden
    simp [parseOffer, hpar, htype, hsub, hweig]

/-- The members of a field that are not blank. -/
lemma readMembers_eq (members) :
    readMembers toLowerCase members = ((members.map JsString.trim).filter
      (fun member => member ≠ [])).mapM (parseMediaRange toLowerCase) := by
  induction members with
  | nil => rfl
  | cons member members ih =>
    by_cases hblank : JsString.trim member = []
    · simp [readMembers, hblank, ih]
    · cases hpar : parseMediaRange toLowerCase (JsString.trim member) <;>
        simp [readMembers, hblank, hpar, ih, Option.map_eq_bind]

lemma parseAccept_eq_some_iff (field ranges) :
    parseAccept toLowerCase field = some ranges ↔ FieldDenotes toLowerCase field ranges := by
  simp only [parseAccept, Option.bind_eq_some_iff, FieldDenotes, readMembers_eq,
    Text.mapM_eq_some_iff, parseMediaRange_eq_some_iff,
    splitUnquoted_eq_some_iff (show (44 : UInt16) ≠ 34 by decide)]

end Parser

end BoilerplateExpress.Http

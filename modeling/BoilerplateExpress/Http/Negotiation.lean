import BoilerplateExpress.Http.AcceptGrammar
import Mathlib.Data.List.MinMax
import Mathlib.Data.Prod.Lex

/-!
# The choice among the offers

The weight of an offer is the weight of the most specific range that covers it, where ranges
are compared by the concreteness of the type, then by the number of parameters, then by the
lower weight. Equally specific ranges therefore have one weight, and neither the order of the
ranges nor ranges that cover nothing have an influence on the choice.
-/
namespace BoilerplateExpress.Http

open EventStream (units)
open List

section Precedence

/-- The range speaks about the offer. -/
structure Covers (range : MediaRange) (offer : MediaType) : Prop where
  type : range.type = wildcard ∨
    range.type = offer.type ∧ (range.subtype = wildcard ∨ range.subtype = offer.subtype)
  parameters : ∀ name value, range.parameters.get name = some value →
    offer.parameters.get name = some value

lemma rangeMatches_iff (range offer) : rangeMatches range offer ↔ Covers range offer := by
  simp only [rangeMatches, Bool.and_eq_true, Bool.or_eq_true, decide_eq_true_eq, all_eq_true]
  constructor
  · rintro ⟨htype, hparameters⟩
    refine ⟨htype, fun name value hget => ?_⟩
    exact hparameters (name, value) ((range.parameters.get_eq_some name value).mp hget)
  · rintro ⟨htype, hparameters⟩
    refine ⟨htype, fun parameter hmem => ?_⟩
    exact hparameters _ _ ((range.parameters.get_eq_some parameter.1 parameter.2).mpr hmem)

instance (range : MediaRange) (offer : MediaType) : Decidable (Covers range offer) :=
  decidable_of_iff _ (rangeMatches_iff range offer)

/-- How specific a range is. -/
def specificity (range : MediaRange) : ℕ ×ₗ ℕ ×ₗ ℚᵒᵈ :=
  toLex (breadth range, toLex (range.parameters.size, OrderDual.toDual range.quality))

lemma moreSpecific_iff (candidate incumbent) :
    moreSpecific candidate incumbent ↔ specificity incumbent < specificity candidate := by
  simp only [specificity, Prod.Lex.toLex_lt_toLex]
  unfold moreSpecific
  split_ifs with hbreadth hparameters
  · simp [Ne.symm hbreadth]
  · rw [not_not] at hbreadth
    simp [hbreadth, Ne.symm hparameters]
  · rw [not_not] at hbreadth hparameters
    simp [hbreadth, hparameters]

/-- The weight of an offer: that of the most specific range that covers it. -/
def weight (ranges : List MediaRange) (offer : MediaType) : ℚ :=
  (((ranges.filter (fun range => Covers range offer)).argmax specificity).map
    MediaRange.quality).getD 0

lemma qualityFor_eq_weight (ranges offer) : qualityFor ranges offer = weight ranges offer := by
  have hstep : keepMoreSpecific offer = fun best range =>
      if decide (Covers range offer) then
        argAux (fun b c => specificity c < specificity b) best range
      else best := by
    funext best range
    cases best with
    | none => simp [keepMoreSpecific, argAux, rangeMatches_iff]
    | some incumbent => simp [keepMoreSpecific, argAux, rangeMatches_iff, moreSpecific_iff]
  rw [qualityFor, weight, argmax, foldl_filter, hstep]

lemma quality_eq_of_specificity_eq {a b} (h : specificity a = specificity b) : a.quality =
    b.quality := by
  have hpair := congrArg (fun s => (ofLex (ofLex s).2).2) h
  exact hpair

lemma weight_congr {offer ranges'} {ranges}
    (h : ∀ range, Covers range offer → (range ∈ ranges ↔ range ∈ ranges')) :
    weight ranges offer = weight ranges' offer := by
  have hmem : ∀ range, range ∈ ranges.filter (fun range => Covers range offer) ↔
      range ∈ ranges'.filter (fun range => Covers range offer) := by
    intro range
    simp only [mem_filter, decide_eq_true_eq]
    exact and_congr_left (h range)
  unfold weight
  cases hbest : (ranges.filter (fun range => Covers range offer)).argmax specificity with
  | none =>
    have hnone : (ranges'.filter (fun range => Covers range offer)) = [] := by
      rw [argmax_eq_none] at hbest
      rw [eq_nil_iff_forall_not_mem]
      intro range hrange
      rw [← hmem, hbest] at hrange
      cases hrange
    rw [hnone]
    rfl
  | some best =>
    cases hbest' : (ranges'.filter (fun range => Covers range offer)).argmax specificity with
    | none =>
      have hin := (hmem best).mp (argmax_mem hbest)
      rw [argmax_eq_none.mp hbest'] at hin
      cases hin
    | some best' =>
      have hle := le_of_mem_argmax ((hmem best').mpr (argmax_mem hbest')) hbest
      have hge := le_of_mem_argmax ((hmem best).mp (argmax_mem hbest)) hbest'
      simp [quality_eq_of_specificity_eq (le_antisymm hge hle)]

end Precedence

section Choice

variable (toLowerCase : JsString → JsString)

/-- A valid offer with its weight. -/
def OfferWeight (ranges : List MediaRange) (offer : JsString) (w : ℚ) : Prop :=
  ∃ mediaType, OfferDenotes toLowerCase offer mediaType ∧ w = weight ranges mediaType

/-- The first of the valid offers that have the greatest weight above zero. -/
def Selected (ranges : List MediaRange) (offers : List JsString) : Option JsString → Prop
  | none => ∀ offer ∈ offers, ∀ w, OfferWeight toLowerCase ranges offer w → ¬ 0 < w
  | some offer => ∃ before after w, offers = before ++ offer :: after ∧
      OfferWeight toLowerCase ranges offer w ∧ 0 < w ∧
      (∀ other ∈ before, ∀ v, OfferWeight toLowerCase ranges other v → v < w) ∧
      ∀ other ∈ after, ∀ v, OfferWeight toLowerCase ranges other v → v ≤ w

lemma offerWeight_iff (ranges offer w) :
    OfferWeight toLowerCase ranges offer w ↔
      ∃ mediaType, parseOffer toLowerCase offer = some mediaType ∧ qualityFor ranges mediaType = w := by
  simp only [OfferWeight, ← parseOffer_eq_some_iff, qualityFor_eq_weight, eq_comm]

/-- What the loop has found in some offers, with the weight it compares the next one with. -/
structure Leads (ranges : List MediaRange) (offers : List JsString)
    (chosen : Option JsString × ℚ) : Prop where
  nonneg : 0 ≤ chosen.2
  bound : ∀ other ∈ offers, ∀ v, OfferWeight toLowerCase ranges other v → v ≤ chosen.2
  none_eq : chosen.1 = none → chosen.2 = 0
  some_eq : ∀ offer, chosen.1 = some offer → 0 < chosen.2 ∧
    OfferWeight toLowerCase ranges offer chosen.2 ∧
    ∃ before after, offers = before ++ offer :: after ∧
      ∀ other ∈ before, ∀ v, OfferWeight toLowerCase ranges other v → v < chosen.2

variable {toLowerCase} {ranges : List MediaRange} {offers : List JsString}

variable {chosen : Option JsString × ℚ}

lemma Leads.selected (h : Leads toLowerCase ranges offers chosen) :
    Selected toLowerCase ranges offers chosen.1 := by
  obtain ⟨offer, w⟩ := chosen
  cases offer with
  | none =>
    intro other hother v hv
    have hle := h.bound other hother v hv
    rw [h.none_eq rfl] at hle
    exact not_lt.mpr hle
  | some offer =>
    obtain ⟨hpos, hweight, before, after, hoffers, hbefore⟩ := h.some_eq offer rfl
    refine ⟨before, after, w, hoffers, hweight, hpos, hbefore, fun other hother v hv => ?_⟩
    exact h.bound other (by simp [hoffers, hother]) v hv

lemma Leads.keep (h : Leads toLowerCase ranges offers chosen) {offer}
    (hoffer : ∀ v, OfferWeight toLowerCase ranges offer v → v ≤ chosen.2) :
    Leads toLowerCase ranges (offers ++ [offer]) chosen where
  nonneg := h.nonneg
  bound := by
    intro other hoth
    rcases mem_append.mp hoth with hoth | hoth
    · exact h.bound other hoth
    · rw [mem_singleton.mp hoth]
      exact hoffer
  none_eq := h.none_eq
  some_eq := by
    intro best hbest
    obtain ⟨hpos, hwt, before, after, hoff, hpre⟩ := h.some_eq best hbest
    exact ⟨hpos, hwt, before, after ++ [offer], by simp [hoff], hpre⟩

lemma Leads.replace (h : Leads toLowerCase ranges offers chosen) {offer} {w}
    (hoffer : ∀ v, OfferWeight toLowerCase ranges offer v ↔ v = w) (hlt : chosen.2 < w) :
    Leads toLowerCase ranges (offers ++ [offer]) (some offer, w) where
  nonneg := h.nonneg.trans hlt.le
  bound := by
    intro other hoth v hv
    rcases mem_append.mp hoth with hoth | hoth
    · exact (h.bound other hoth v hv).trans hlt.le
    · rw [mem_singleton.mp hoth] at hv
      exact ((hoffer v).mp hv).le
  none_eq := fun hnone => by cases hnone
  some_eq := by
    intro best hbest
    cases hbest
    refine ⟨h.nonneg.trans_lt hlt, (hoffer w).mpr rfl, offers, [], rfl, fun other hoth v hv => ?_⟩
    exact (h.bound other hoth v hv).trans_lt hlt

lemma considerOffer_leads (h : Leads toLowerCase ranges offers chosen) (offer) :
    Leads toLowerCase ranges (offers ++ [offer]) (considerOffer toLowerCase ranges chosen offer) := by
  have hwt := offerWeight_iff toLowerCase ranges offer
  unfold considerOffer
  cases hpar : parseOffer toLowerCase offer with
  | none =>
    simp only [hpar] at hwt
    refine h.keep fun v hv => ?_
    obtain ⟨mediaType, hmt, -⟩ := (hwt v).mp hv
    cases hmt
  | some parsed =>
    simp only [hpar, Option.some.injEq, exists_eq_left'] at hwt
    show Leads toLowerCase ranges (offers ++ [offer])
      (if chosen.2 < qualityFor ranges parsed then (some offer, qualityFor ranges parsed) else chosen)
    split_ifs with hlt
    · exact h.replace (fun v => (hwt v).trans eq_comm) hlt
    · refine h.keep fun v hv => ?_
      rw [← (hwt v).mp hv]
      exact not_lt.mp hlt

lemma foldl_considerOffer_leads (ranges offers) :
    Leads toLowerCase ranges offers (offers.foldl (considerOffer toLowerCase ranges) (none, 0)) := by
  induction offers using reverseRecOn with
  | nil =>
    exact ⟨le_rfl, fun other hoth => (by cases hoth), fun _ => rfl,
      fun offer hoffer => (by cases hoffer)⟩
  | append_singleton offers offer ih =>
    rw [foldl_append]
    exact considerOffer_leads ih offer

lemma selectMediaType_selected {field} (h : FieldDenotes toLowerCase field ranges) (offers) :
    Selected toLowerCase ranges offers (selectMediaType toLowerCase (some field) offers) := by
  have hpar := (parseAccept_eq_some_iff toLowerCase field ranges).mpr h
  have hleads : Leads toLowerCase ranges offers _ := foldl_considerOffer_leads ranges offers
  simp only [selectMediaType, hpar]
  exact hleads.selected

lemma selectMediaType_malformed {field} (h : ∀ ranges, ¬ FieldDenotes toLowerCase field ranges)
    (offers) : selectMediaType toLowerCase (some field) offers = offers.head? := by
  have hpar : parseAccept toLowerCase field = none := by
    rw [Option.eq_none_iff_forall_ne_some]
    intro ranges hran
    exact h ranges ((parseAccept_eq_some_iff toLowerCase field ranges).mp hran)
  simp [selectMediaType, hpar]

end Choice

section Members

variable {toLowerCase : JsString → JsString}

/-- A member that is not blank and cannot be read. -/
def Unreadable (toLowerCase : JsString → JsString) (member : JsString) : Prop :=
  JsString.trim member ≠ [] ∧ parseMediaRange toLowerCase (JsString.trim member) = none

lemma readMembers_eq_none_iff (members) :
    readMembers toLowerCase members = none ↔ ∃ member ∈ members, Unreadable toLowerCase member := by
  simp [readMembers_eq, Text.mapM_eq_none_iff, Unreadable, and_assoc]

variable {members : List JsString}

lemma mem_readMembers {ranges} (h : readMembers toLowerCase members = some ranges) (range) :
    range ∈ ranges ↔ ∃ member ∈ members, JsString.trim member ≠ [] ∧
      parseMediaRange toLowerCase (JsString.trim member) = some range := by
  rw [readMembers_eq] at h
  simp [Text.mem_of_mapM h, and_assoc]

/-- Fields whose members differ in ranges that cover no offer only are answered alike. -/
lemma selectMediaType_congr {offers} {field field'} {members'}
    (hfield : Quoted.Parts 34 92 44 field members) (hfield' : Quoted.Parts 34 92 44 field' members')
    (hunr : (∃ member ∈ members, Unreadable toLowerCase member) ↔
      ∃ member ∈ members', Unreadable toLowerCase member)
    (hran : ∀ range, (∃ offer ∈ offers, ∃ mediaType, OfferDenotes toLowerCase offer mediaType ∧
        Covers range mediaType) → ((∃ member ∈ members, JsString.trim member ≠ [] ∧
          parseMediaRange toLowerCase (JsString.trim member) = some range) ↔
        ∃ member ∈ members', JsString.trim member ≠ [] ∧
          parseMediaRange toLowerCase (JsString.trim member) = some range)) :
    selectMediaType toLowerCase (some field') offers = selectMediaType toLowerCase (some field) offers := by
  have hsplit := (splitUnquoted_eq_some_iff (by decide) _ _).mpr hfield
  have hsplit' := (splitUnquoted_eq_some_iff (by decide) _ _).mpr hfield'
  have hpar : parseAccept toLowerCase field = readMembers toLowerCase members := by
    rw [parseAccept, hsplit, Option.bind_some]
  have hpar' : parseAccept toLowerCase field' = readMembers toLowerCase members' := by
    rw [parseAccept, hsplit', Option.bind_some]
  cases hread : readMembers toLowerCase members with
  | none =>
    have hread' : readMembers toLowerCase members' = none := by
      rw [readMembers_eq_none_iff, ← hunr, ← readMembers_eq_none_iff, hread]
    simp [selectMediaType, hpar, hpar', hread, hread']
  | some ranges =>
    cases hread' : readMembers toLowerCase members' with
    | none =>
      rw [readMembers_eq_none_iff, ← hunr, ← readMembers_eq_none_iff, hread] at hread'
      cases hread'
    | some ranges' =>
      simp only [selectMediaType, hpar, hpar', hread, hread']
      congr 1
      refine foldl_ext _ _ _ fun chosen offer hoffer => ?_
      unfold considerOffer
      cases hoff : parseOffer toLowerCase offer with
      | none => rfl
      | some parsed =>
        have hden := (parseOffer_eq_some_iff toLowerCase _ _).mp hoff
        have hwt : qualityFor ranges' parsed = qualityFor ranges parsed := by
          rw [qualityFor_eq_weight, qualityFor_eq_weight]
          refine weight_congr fun range hcov => ?_
          rw [mem_readMembers hread, mem_readMembers hread']
          exact (hran range ⟨offer, hoffer, parsed, hden, hcov⟩).symm
        simp [hwt]

lemma readable_of_denotes {field} {ranges} (h : FieldDenotes toLowerCase field ranges)
    (hfield : Quoted.Parts 34 92 44 field members) :
    ¬ ∃ member ∈ members, Unreadable toLowerCase member := by
  have hpar := (parseAccept_eq_some_iff toLowerCase field ranges).mpr h
  rw [parseAccept, (splitUnquoted_eq_some_iff (by decide) _ _).mpr hfield, Option.bind_some] at hpar
  rw [← readMembers_eq_none_iff, hpar]
  simp

/-- A well-formed range that covers no offer. -/
def Irrelevant (toLowerCase : JsString → JsString) (offers : List JsString)
    (member : JsString) : Prop :=
  Quoted.Piece 34 92 44 member ∧ ∃ range, RangeDenotes toLowerCase (JsString.trim member) range ∧
    ∀ offer ∈ offers, ∀ mediaType, OfferDenotes toLowerCase offer mediaType →
      ¬ Covers range mediaType

/-- Without a field, and for a malformed one, the first offer is chosen. For a well-formed
field it is the first valid offer of the greatest weight above zero. Ranges that cover no offer
may stand anywhere among the others without changing the choice. -/
theorem negotiation_follows_precedence (toLowerCase : JsString → JsString) (offers : List JsString) :
    selectMediaType toLowerCase none offers = offers.head? ∧
    (∀ field, (∀ ranges, ¬ FieldDenotes toLowerCase field ranges) →
      selectMediaType toLowerCase (some field) offers = offers.head?) ∧
    (∀ field ranges, FieldDenotes toLowerCase field ranges →
      Selected toLowerCase ranges offers (selectMediaType toLowerCase (some field) offers)) ∧
    ∀ field ranges members added members', FieldDenotes toLowerCase field ranges →
      Quoted.Parts 34 92 44 field members →
      (∀ member ∈ added, Irrelevant toLowerCase offers member) →
      members'.Perm (members ++ added) →
      selectMediaType toLowerCase (some ([44].intercalate members')) offers =
        selectMediaType toLowerCase (some field) offers := by
  refine ⟨rfl, fun field h => selectMediaType_malformed h offers,
    fun field ranges h => selectMediaType_selected h offers, ?_⟩
  intro field ranges members added members' hden hfield hadded hperm
  have hfield' : Quoted.Parts 34 92 44 ([44].intercalate members') members' := by
    refine Quoted.Parts.of_pieces ?_ fun part hpart => ?_
    · rintro rfl
      have hnil := append_eq_nil_iff.mp hperm.symm.eq_nil
      exact hfield.nonempty hnil.1
    · rcases mem_append.mp (hperm.mem_iff.mp hpart) with hpart | hpart
      · exact hfield.pieces part hpart
      · exact (hadded part hpart).1
  have hread : ∀ member ∈ added, ∃ range,
      parseMediaRange toLowerCase (JsString.trim member) = some range ∧
        ∀ offer ∈ offers, ∀ mediaType, OfferDenotes toLowerCase offer mediaType →
          ¬ Covers range mediaType := by
    intro member hmem
    obtain ⟨-, range, hrange, hcov⟩ := hadded member hmem
    exact ⟨range, (parseMediaRange_eq_some_iff toLowerCase _ _).mpr hrange, hcov⟩
  refine selectMediaType_congr hfield hfield' ?_ ?_
  · refine iff_of_false (readable_of_denotes hden hfield) ?_
    rintro ⟨member, hmem, hunr⟩
    rcases mem_append.mp (hperm.mem_iff.mp hmem) with hmem | hmem
    · exact readable_of_denotes hden hfield ⟨member, hmem, hunr⟩
    · obtain ⟨range, hrange, -⟩ := hread member hmem
      rw [hunr.2] at hrange
      cases hrange
  · rintro range ⟨offer, hoffer, mediaType, hmt, hcov⟩
    simp only [hperm.mem_iff, mem_append, or_and_right, exists_or]
    refine ⟨.inl, fun h => h.resolve_right ?_⟩
    rintro ⟨member, hmem, -, hpar⟩
    obtain ⟨range', hrange', hnot⟩ := hread member hmem
    cases hpar.symm.trans hrange'
    exact hnot offer hoffer mediaType hmt hcov

/-- Anything but HTML, with a range for an image in front of it. -/
theorem negotiation_narrow_refusal :
    (∃ ranges, FieldDenotes id (units "*/*,text/html;q=0") ranges ∧
      Selected id ranges [units "text/html", units "a/json"] (some (units "a/json"))) ∧
    selectMediaType id (some (units "image/*,*/*,text/html;q=0")) [units "text/html", units "a/json"] =
      some (units "a/json") ∧
    selectMediaType id (some (units "*/json;q=0")) [units "text/html", units "a/json"] =
      some (units "text/html") := by
  obtain ⟨-, hmal, hsel, hadded⟩ :=
    negotiation_follows_precedence id [units "text/html", units "a/json"]
  have hans : selectMediaType id (some (units "*/*,text/html;q=0"))
      [units "text/html", units "a/json"] = some (units "a/json") := by decide +kernel
  have hsome : (parseAccept id (units "*/*,text/html;q=0")).isSome := by decide +kernel
  obtain ⟨ranges, hran⟩ := Option.isSome_iff_exists.mp hsome
  have hden := (parseAccept_eq_some_iff id _ _).mp hran
  refine ⟨⟨ranges, hden, hans ▸ hsel _ ranges hden⟩, ?_, ?_⟩
  · have hparts : splitUnquoted (units "*/*,text/html;q=0") 44 =
        some [units "*/*", units "text/html;q=0"] := by decide +kernel
    have hpiece : splitUnquoted (units "image/*") 44 = some [units "image/*"] := by decide +kernel
    have himage : (parseMediaRange id (JsString.trim (units "image/*"))).isSome := by decide +kernel
    obtain ⟨range, hrange⟩ := Option.isSome_iff_exists.mp himage
    have hcov : [units "text/html", units "a/json"].all (fun offer =>
        (parseOffer id offer).all fun mediaType =>
          (parseMediaRange id (JsString.trim (units "image/*"))).all fun range =>
            !rangeMatches range mediaType) := by decide +kernel
    rw [hrange] at hcov
    have hirr : Irrelevant id [units "text/html", units "a/json"] (units "image/*") := by
      refine ⟨((splitUnquoted_eq_some_iff (by decide) _ _).mp hpiece).pieces _ (by simp), range,
        (parseMediaRange_eq_some_iff id _ _).mp hrange, fun offer hoffer mediaType hmt => ?_⟩
      have hoff := all_eq_true.mp hcov offer hoffer
      rw [(parseOffer_eq_some_iff id _ _).mpr hmt] at hoff
      rw [← rangeMatches_iff]
      simpa using hoff
    have hjoin : [44].intercalate [units "image/*", units "*/*", units "text/html;q=0"] =
        units "image/*,*/*,text/html;q=0" := by decide +kernel
    rw [← hjoin, ← hans]
    exact hadded _ ranges _ [units "image/*"] _ hden
      ((splitUnquoted_eq_some_iff (by decide) _ _).mp hparts) (by simpa using hirr)
      (perm_append_singleton _ _).symm
  · refine hmal _ fun ranges' h => ?_
    have hnone : (parseAccept id (units "*/json;q=0")).isSome = false := by decide +kernel
    rw [(parseAccept_eq_some_iff id _ _).mpr h] at hnone
    cases hnone

/-- The members of a field may stand in any order. -/
theorem negotiation_ignores_member_order (toLowerCase : JsString → JsString) {field : JsString}
    {members members' : List JsString} (hfield : Quoted.Parts 34 92 44 field members)
    (hperm : members'.Perm members) (offers : List JsString) :
    selectMediaType toLowerCase (some ([44].intercalate members')) offers =
      selectMediaType toLowerCase (some field) offers := by
  have hfield' : Quoted.Parts 34 92 44 ([44].intercalate members') members' := by
    refine Quoted.Parts.of_pieces ?_ fun part hpart => hfield.pieces part (hperm.mem_iff.mp hpart)
    rintro rfl
    exact hfield.nonempty hperm.symm.eq_nil
  refine selectMediaType_congr hfield hfield' ?_ ?_
  · simp [hperm.mem_iff]
  · intro range _
    simp [hperm.mem_iff]

/-- A range repeated with two weights, beside a quoted comma. -/
theorem negotiation_of_repeated_range :
    selectMediaType id (some (units "text/plain;q=0,a/b;n=\"x,y\",text/plain"))
        [units "text/plain", units "a/b;n=\"x,y\""] =
      selectMediaType id (some (units "text/plain,text/plain;q=0,a/b;n=\"x,y\""))
        [units "text/plain", units "a/b;n=\"x,y\""] ∧
    selectMediaType id (some (units "text/plain,text/plain;q=0,a/b;n=\"x,y\""))
        [units "text/plain", units "a/b;n=\"x,y\""] = some (units "a/b;n=\"x,y\"") := by
  have hparts : splitUnquoted (units "text/plain,text/plain;q=0,a/b;n=\"x,y\"") 44 =
      some [units "text/plain", units "text/plain;q=0", units "a/b;n=\"x,y\""] := by decide +kernel
  have hperm : [units "text/plain;q=0", units "a/b;n=\"x,y\"", units "text/plain"].Perm
      [units "text/plain", units "text/plain;q=0", units "a/b;n=\"x,y\""] :=
    perm_append_singleton (units "text/plain") [units "text/plain;q=0", units "a/b;n=\"x,y\""]
  have horder := negotiation_ignores_member_order id
    ((splitUnquoted_eq_some_iff (by decide) _ _).mp hparts) hperm
    [units "text/plain", units "a/b;n=\"x,y\""]
  have hjoin : [44].intercalate [units "text/plain;q=0", units "a/b;n=\"x,y\"", units "text/plain"] =
      units "text/plain;q=0,a/b;n=\"x,y\",text/plain" := by decide +kernel
  rw [hjoin] at horder
  exact ⟨horder, by decide +kernel⟩

end Members

end BoilerplateExpress.Http

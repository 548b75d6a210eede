import BoilerplateExpress.Http.Range
import Mathlib.Order.Interval.Set.Basic

/-!
# Exactness of ranges

The byte-range rules over unbounded natural numbers: a member is written with numerals of any
length, a member with its last position below its first is malformed, and a single well-formed
member selects a set of bytes, which is refused if empty and served if not.

The parser reads positions of sixteen digits and more as one number. It does not tell two of
them apart, nor one of them from a larger size; where that decides the outcome, and only
there, the outcome is not the prescribed one.
-/
namespace BoilerplateExpress.Http

open EventStream (units isDigits)
open List

/-- Decimal digits, however many, and the number they stand for. -/
structure Numeral (text : JsString) (n : ℕ) : Prop where
  digits : isDigits text = true
  value : text.digitsToNat = n

/-- A member as it is written. -/
inductive Written : JsString → RangeSpec → Prop
  | suffix {digits : JsString} {length : ℕ} : Numeral digits length →
      Written (45 :: digits) (.suffix length)
  | rest {digits : JsString} {first : ℕ} : Numeral digits first →
      Written (digits ++ [45]) (.int first none)
  | closed {digits digits' : JsString} {first last : ℕ} : Numeral digits first →
      Numeral digits' last → Written (digits ++ 45 :: digits') (.int first (some last))

namespace RangeSpec

def Ordered : RangeSpec → Prop
  | .int first (some last) => first ≤ last
  | _ => True

/-- The bytes of a representation of `size` bytes that a member selects. -/
def bytes (size : ℕ) : RangeSpec → Set ℕ
  | .int first none => {i | first ≤ i ∧ i < size}
  | .int first (some last) => {i | first ≤ i ∧ i ≤ last ∧ i < size}
  | .suffix length => {i | size ≤ i + length ∧ i < size}

/-- The outcomes a well-formed member may have. -/
inductive Means (size : ℕ) (spec : RangeSpec) : RangeResolution → Prop
  | unsatisfiable : spec.bytes size = ∅ → Means size spec .unsatisfiable
  | range {start stop : ℕ} : start ≤ stop → spec.bytes size = Set.Icc start stop →
      Means size spec (.range ⟨start, stop⟩)

end RangeSpec

section Field

variable (toLowerCase : JsString → JsString)

/-- The field is in the unit `bytes` and lists these members. -/
def Lists (header : JsString) (parts : List JsString) : Prop :=
  ∃ unit list, header = unit ++ 61 :: list ∧ 61 ∉ unit ∧
    toLowerCase (JsString.trim unit) = units "bytes" ∧ parts = rangeParts list

/-- A well-formed field. -/
structure RangeSet (header : JsString) (specs : List RangeSpec) : Prop where
  nonempty : specs ≠ []
  members : ∃ parts, Lists toLowerCase header parts ∧
    List.Forall₂ (fun part spec => Written part spec ∧ spec.Ordered) parts specs

/-- What the rules prescribe for a field and a size. -/
inductive Prescribed (header : JsString) (size : ℕ) : RangeResolution → Prop
  | malformed : (∀ specs, ¬ RangeSet toLowerCase header specs) → Prescribed header size .ignore
  | several {specs : List RangeSpec} : RangeSet toLowerCase header specs → specs.length ≠ 1 →
      Prescribed header size .ignore
  | single {spec : RangeSpec} {outcome : RangeResolution} : RangeSet toLowerCase header [spec] →
      spec.Means size outcome → Prescribed header size outcome

/-- A parsed field is resolved, one that cannot be parsed is ignored. -/
def rangeOutcome (header : JsString) (size : ℚ) : Except RangeError RangeResolution :=
  match parseRangeHeader toLowerCase header with
  | none => .ok .ignore
  | some specs => resolveRange specs size

end Field

/-! ### Positions -/

/-- The number kept for the number written. -/
def clampPosition (n : ℕ) : ℕ := if 10 ^ 15 ≤ n then maxSafeInteger else n

lemma isDigits_iff (text) : isDigits text ↔ text ≠ [] ∧ ∀ u ∈ text, 48 ≤ u ∧ u ≤ 57 := by
  simp [isDigits]

lemma isDigits_tail {u v} {rest : JsString} (h : isDigits (u :: v :: rest)) : isDigits
    (v :: rest) := by
  rw [isDigits_iff] at h ⊢
  exact ⟨by simp, fun w hw => h.2 w (mem_cons_of_mem u hw)⟩

variable {text : JsString}

/-- What is left of a numeral without its leading zeros: the same number, and as many digits as
that number has. -/
lemma stripZeros_spec (h : isDigits text) :
    (stripZeros text).digitsToNat = text.digitsToNat ∧
      ∀ k, 1 ≤ k → (k < (stripZeros text).length ↔ 10 ^ k ≤ text.digitsToNat) := by
  induction text using stripZeros.induct with
  | case1 u v rest hzero ih =>
    have hu : u = 48 := by simp only [Bool.and_eq_true, decide_eq_true_eq] at hzero; exact hzero.1
    have hu' : u.toNat - 48 = 0 := by rw [hu]; rfl
    rw [stripZeros, if_pos hzero, JsString.digitsToNat_cons u, hu', Nat.zero_mul, Nat.zero_add]
    exact ih (isDigits_tail h)
  | case2 u v rest hzero =>
    rw [stripZeros, if_neg hzero]
    refine ⟨rfl, fun k _ => ?_⟩
    have hdig := ((isDigits_iff _).mp h).2
    have hlt : JsString.digitsToNat (u :: v :: rest) < 10 ^ (rest.length + 2) :=
      JsString.digitsToNat_lt (fun w hw => (hdig w hw).2)
    -- the first digit counts, or it would have been taken away
    have hu : 49 ≤ u.toNat := by
      have hle : 48 ≤ u.toNat := (hdig u mem_cons_self).1
      have hne : u ≠ 48 := by
        rintro rfl
        exact hzero (by simp [hdig v (mem_cons_of_mem _ mem_cons_self)])
      have hne' : u.toNat ≠ 48 := fun heq => hne (UInt16.toNat_inj.mp heq)
      omega
    have hge : 10 ^ (rest.length + 1) ≤ JsString.digitsToNat (u :: v :: rest) := by
      rw [JsString.digitsToNat_cons, length_cons]
      have hle : 1 * 10 ^ (rest.length + 1) ≤ (u.toNat - 48) * 10 ^ (rest.length + 1) :=
        Nat.mul_le_mul_right _ (by omega)
      omega
    constructor
    · intro hlong
      exact (Nat.pow_le_pow_right (by omega) (by simpa using hlong)).trans hge
    · intro hle
      exact (Nat.pow_lt_pow_iff_right (by omega)).mp (hle.trans_lt hlt)
  | case3 text hshort =>
    match text, hshort, h with
    | [u], _, h =>
      have hu : JsString.digitsToNat [u] < 10 ^ 1 :=
        JsString.digitsToNat_lt (fun w hw => (((isDigits_iff _).mp h).2 w hw).2)
      refine ⟨rfl, fun k hk => iff_of_false (by simp only [stripZeros, length_singleton]; omega) ?_⟩
      exact not_le.mpr (hu.trans_le (Nat.pow_le_pow_right (by omega) hk))
    | u :: v :: rest, hshort, _ => exact absurd rfl (hshort u v rest)

variable {n : ℕ}

lemma parsePosition_eq_some_iff :
    parsePosition text = some n ↔ ∃ m, Numeral text m ∧ n = clampPosition m := by
  by_cases hdig : isDigits text
  · obtain ⟨hvalue, hlen⟩ := stripZeros_spec hdig
    have hnum : ∀ m, Numeral text m ↔ text.digitsToNat = m :=
      fun m => ⟨Numeral.value, fun h => ⟨hdig, h⟩⟩
    simp only [parsePosition, hdig, Bool.true_eq_false, if_false, Option.some.injEq,
      maxPositionDigits, hlen 15 (by omega), hvalue, hnum, exists_eq_left']
    exact eq_comm
  · have hnone : ¬ ∃ m, Numeral text m ∧ n = clampPosition m := by
      rintro ⟨m, hm, -⟩
      exact hdig hm.digits
    simp [parsePosition, hdig, hnone]

/-! ### Members -/

namespace RangeSpec

/-- The positions kept for the positions written. -/
def clamp : RangeSpec → RangeSpec
  | .int first last => .int (clampPosition first) (last.map clampPosition)
  | .suffix length => .suffix (clampPosition length)

end RangeSpec

lemma Numeral.ne_nil (h : Numeral text n) : text ≠ [] := ((isDigits_iff text).mp h.digits).1

lemma Numeral.hyphen_not_mem (h : Numeral text n) : 45 ∉ text := by
  intro hmem
  exact absurd (((isDigits_iff text).mp h.digits).2 45 hmem).1 (by decide)

lemma cut_hyphen {before after : JsString} (h : 45 ∉ before) :
    Text.cut 45 (before ++ 45 :: after) = some (before, after) := Text.cut_eq_some_iff.mpr ⟨rfl, h⟩

lemma parseRangeSpec_suffix (digits : JsString) :
    parseRangeSpec (45 :: digits) = (parsePosition digits).map .suffix := by
  have hcut : Text.cut 45 (45 :: digits) = some ([], digits) :=
    Text.cut_eq_some_iff.mpr ⟨rfl, by simp⟩
  simp [parseRangeSpec, hcut]

variable {part : JsString} {spec : RangeSpec}

/-- The parser reads what is written, with its positions clamped, unless they are then out of
order. -/
theorem parseRangeSpec_eq_some_iff :
    parseRangeSpec part = some spec ↔
      ∃ written, Written part written ∧ spec = written.clamp ∧ spec.Ordered := by
  constructor
  · intro h
    unfold parseRangeSpec at h
    cases hcut : Text.cut 45 part with
    | none => simp [hcut] at h
    | some cut =>
      obtain ⟨before, after⟩ := cut
      obtain ⟨rfl, -⟩ := Text.cut_eq_some_iff.mp hcut
      simp only [hcut] at h
      by_cases hpre : before = []
      · subst hpre
        obtain ⟨length, hpar, rfl⟩ := Option.map_eq_some_iff.mp h
        obtain ⟨m, hm, rfl⟩ := parsePosition_eq_some_iff.mp hpar
        exact ⟨.suffix m, .suffix hm, rfl, trivial⟩
      · rw [if_neg hpre] at h
        cases hfst : parsePosition before with
        | none => simp [hfst] at h
        | some first =>
          obtain ⟨m, hm, rfl⟩ := parsePosition_eq_some_iff.mp hfst
          simp only [hfst] at h
          by_cases haft : after = []
          · rw [if_pos haft] at h
            cases h
            subst haft
            exact ⟨.int m none, .rest hm, rfl, trivial⟩
          · rw [if_neg haft] at h
            cases hlast : parsePosition after with
            | none => simp [hlast] at h
            | some last =>
              obtain ⟨k, hk, rfl⟩ := parsePosition_eq_some_iff.mp hlast
              simp only [hlast] at h
              split_ifs at h with hlt
              cases h
              exact ⟨.int m (some k), .closed hm hk, rfl, not_lt.mp hlt⟩
  · rintro ⟨written, hwr, rfl, hord⟩
    cases hwr with
    | suffix hlen =>
      rw [parseRangeSpec_suffix, parsePosition_eq_some_iff.mpr ⟨_, hlen, rfl⟩]
      rfl
    | rest hfst =>
      simp [parseRangeSpec, cut_hyphen hfst.hyphen_not_mem, hfst.ne_nil,
        parsePosition_eq_some_iff.mpr ⟨_, hfst, rfl⟩, RangeSpec.clamp]
    | closed hfst hlast =>
      have hle := not_lt.mpr hord
      simp [parseRangeSpec, cut_hyphen hfst.hyphen_not_mem, hfst.ne_nil, hlast.ne_nil,
        parsePosition_eq_some_iff.mpr ⟨_, hfst, rfl⟩,
        parsePosition_eq_some_iff.mpr ⟨_, hlast, rfl⟩, RangeSpec.clamp, hle]

/-- The numerals before and after the first hyphen decide what a member denotes. -/
lemma Written.denotes (h : Written part spec) :
    (Text.cut 45 part).map (fun cut =>
      if cut.1 = [] then RangeSpec.suffix (JsString.digitsToNat cut.2)
      else .int (JsString.digitsToNat cut.1)
        (if cut.2 = [] then none else some (JsString.digitsToNat cut.2))) = some spec := by
  cases h with
  | suffix hlen =>
    rw [← nil_append (45 :: _), cut_hyphen not_mem_nil]
    simp [hlen.value]
  | rest hfst =>
    rw [cut_hyphen hfst.hyphen_not_mem]
    simp [hfst.ne_nil, hfst.value]
  | closed hfst hlast =>
    rw [cut_hyphen hfst.hyphen_not_mem]
    simp [hfst.ne_nil, hfst.value, hlast.ne_nil, hlast.value]

lemma Written.unique {spec'} (h : Written part spec) (h' : Written part spec') : spec = spec' :=
  Option.some_injective _ (h.denotes.symm.trans h'.denotes)

/-! ### One member -/

namespace RangeSpec

variable {spec : RangeSpec}

lemma Means.unique {size outcome outcome'} (h : spec.Means size outcome)
    (h' : spec.Means size outcome') : outcome = outcome' := by
  cases h with
  | unsatisfiable hemp =>
    cases h' with
    | unsatisfiable => rfl
    | range hle hbytes =>
      rw [hemp] at hbytes
      exact absurd hbytes.symm (Set.nonempty_Icc.mpr hle).ne_empty
  | range hle hbytes =>
    cases h' with
    | unsatisfiable hemp =>
      rw [hemp] at hbytes
      exact absurd hbytes.symm (Set.nonempty_Icc.mpr hle).ne_empty
    | range hle' hbytes' =>
      rw [hbytes] at hbytes'
      have heq := Set.Icc_eq_Icc_iff hle |>.mp hbytes'
      rw [heq.1, heq.2]

lemma means_resolveSpec (size) (h : spec.Ordered) : spec.Means size (resolveSpec size spec) := by
  cases spec with
  | suffix length =>
    by_cases hemp : length = 0 ∨ size = 0
    · rw [resolveSpec, if_pos (by simpa using hemp)]
      apply Means.unsatisfiable
      ext i
      simp only [bytes, Set.mem_ofPred_eq, Set.mem_empty_iff_false, iff_false]
      omega
    · rw [resolveSpec, if_neg (by simpa using hemp)]
      apply Means.range (by omega)
      ext i
      simp only [bytes, Set.mem_ofPred_eq, Set.mem_Icc]
      omega
  | int first last =>
    by_cases hbeyond : size ≤ first
    · rw [resolveSpec, if_pos hbeyond]
      apply Means.unsatisfiable
      ext i
      cases last <;> simp [bytes] <;> omega
    · rw [resolveSpec, if_neg hbeyond]
      cases last with
      | none =>
        rw [Option.elim_none]
        apply Means.range (by omega)
        ext i
        simp only [bytes, Set.mem_ofPred_eq, Set.mem_Icc]
        omega
      | some last =>
        have hle : first ≤ last := h
        rw [Option.elim_some]
        apply Means.range (by omega)
        ext i
        simp only [bytes, Set.mem_ofPred_eq, Set.mem_Icc]
        omega

/-- The outcome of a single member, which is ignored if its positions are out of order. -/
def outcome (size : ℕ) (spec : RangeSpec) : RangeResolution :=
  match spec with
  | .int first (some last) =>
    if last < first then .ignore else resolveSpec size (.int first (some last))
  | spec => resolveSpec size spec

lemma outcome_of_ordered (h : spec.Ordered) (size) : spec.outcome size = resolveSpec size spec := by
  cases spec with
  | suffix length => rfl
  | int first last =>
    cases last with
    | none => rfl
    | some last => exact if_neg (not_lt.mpr h)

lemma outcome_of_not_ordered (h : ¬ spec.Ordered) (size) : spec.outcome size = .ignore := by
  cases spec with
  | suffix length => exact absurd trivial h
  | int first last =>
    cases last with
    | none => exact absurd trivial h
    | some last => exact if_pos (not_le.mp h)

/-- Positions out of the reach of fifteen digits decide the outcome. -/
def Blurred (size : ℕ) : RangeSpec → Prop
  | .suffix length => 10 ^ 15 ≤ length ∧ length < size
  | .int first none => 10 ^ 15 ≤ first ∧ first < size
  | .int first (some last) =>
    (first < 10 ^ 15 ∧ 10 ^ 15 ≤ last ∧ last + 1 < size) ∨
    (10 ^ 15 ≤ first ∧ 10 ^ 15 ≤ last ∧ (last < first ∨ first < size))

/-- A size is safe, so nothing else is lost by the clamping. -/
theorem outcome_clamp_iff {size} (hsize : size ≤ maxSafeInteger) (spec : RangeSpec) :
    spec.clamp.outcome size = spec.outcome size ↔ ¬ spec.Blurred size := by
  rw [maxSafeInteger] at hsize
  cases spec with
  | suffix length =>
    simp only [clamp, outcome, resolveSpec, Blurred, clampPosition, maxSafeInteger]
    split_ifs <;> simp_all
    omega
  | int first last =>
    cases last with
    | none =>
      simp only [clamp, outcome, resolveSpec, Blurred, clampPosition, maxSafeInteger]
      split_ifs <;> simp_all
    | some last =>
      simp only [clamp, outcome, resolveSpec, Blurred, clampPosition, maxSafeInteger,
        Option.map_some]
      split_ifs <;> simp_all <;> omega

end RangeSpec

/-! ### The field -/

section Field

variable {toLowerCase : JsString → JsString} {header : JsString}

lemma Lists.unique {parts parts'} (h : Lists toLowerCase header parts)
    (h' : Lists toLowerCase header parts') : parts = parts' := by
  obtain ⟨unit, list, hhdr, hunit, -, rfl⟩ := h
  obtain ⟨unit', list', hhdr', hunit', -, rfl⟩ := h'
  have hcut := Text.cut_eq_some_iff.mpr ⟨hhdr, hunit⟩
  rw [Text.cut_eq_some_iff.mpr ⟨hhdr', hunit'⟩] at hcut
  cases hcut
  rfl

lemma parseRangeHeader_eq_some_iff {specs} :
    parseRangeHeader toLowerCase header = some specs ↔
      specs ≠ [] ∧ ∃ parts, Lists toLowerCase header parts ∧
        List.Forall₂ (fun part spec => parseRangeSpec part = some spec) parts specs := by
  constructor
  · intro h
    unfold parseRangeHeader at h
    cases hcut : Text.cut 61 header with
    | none => simp [hcut] at h
    | some cut =>
      obtain ⟨unit, list⟩ := cut
      obtain ⟨hhdr, hunit⟩ := Text.cut_eq_some_iff.mp hcut
      simp only [hcut] at h
      by_cases hbytes : toLowerCase (JsString.trim unit) = units "bytes"
      · rw [if_neg (not_not.mpr hbytes)] at h
        split at h
        · rename_i spec specs' hmap
          cases h
          exact ⟨by simp, rangeParts list, ⟨unit, list, hhdr, hunit, hbytes, rfl⟩,
            Text.mapM_eq_some_iff.mp hmap⟩
        · cases h
      · rw [if_pos hbytes] at h
        cases h
  · rintro ⟨hne, parts, ⟨unit, list, hhdr, hunit, hbytes, rfl⟩, hparts⟩
    have hcut := Text.cut_eq_some_iff.mpr ⟨hhdr, hunit⟩
    cases specs with
    | nil => exact absurd rfl hne
    | cons spec specs =>
      simp only [parseRangeHeader, hcut, Text.mapM_eq_some_iff.mpr hparts]
      rw [if_neg (not_not.mpr hbytes)]

variable {size : ℕ}

lemma safe_natCast (hsize : size ≤ maxSafeInteger) :
    (size : ℚ).den = 1 ∧ (0 : ℚ) ≤ size ∧ (size : ℚ) ≤ maxSafeInteger :=
  ⟨Rat.den_natCast size, Nat.cast_nonneg size, Nat.cast_le.mpr hsize⟩

lemma resolveRange_single (hsize : size ≤ maxSafeInteger) (spec) :
    resolveRange [spec] size = .ok (resolveSpec size spec) := by exact if_pos (safe_natCast hsize)

lemma resolveRange_of_ne_single (hsize : size ≤ maxSafeInteger) {specs : List RangeSpec}
    (h : ∀ spec, specs ≠ [spec]) : resolveRange specs size = .ok .ignore := by
  unfold resolveRange
  rw [if_pos (safe_natCast hsize)]
  split
  · rename_i spec
    exact absurd rfl (h spec)
  · rfl

/-- A field with one member that is written as it should. -/
def Member (toLowerCase : JsString → JsString) (header : JsString) (spec : RangeSpec) : Prop :=
  ∃ part, Lists toLowerCase header [part] ∧ Written part spec

variable {spec : RangeSpec}

lemma Member.unique {spec'} (h : Member toLowerCase header spec)
    (h' : Member toLowerCase header spec') : spec = spec' := by
  obtain ⟨part, hpart, hwritten⟩ := h
  obtain ⟨part', hpart', hwritten'⟩ := h'
  obtain rfl : part = part' := by simpa using hpart.unique hpart'
  exact hwritten.unique hwritten'

lemma rangeSet_single_iff :
    RangeSet toLowerCase header [spec] ↔ Member toLowerCase header spec ∧ spec.Ordered := by
  constructor
  · rintro ⟨-, parts, hparts, hmems⟩
    obtain ⟨part, rest, ⟨hwr, hord⟩, hrest, rfl⟩ := forall₂_cons_right_iff.mp hmems
    obtain rfl := forall₂_nil_right_iff.mp hrest
    exact ⟨⟨part, hparts, hwr⟩, hord⟩
  · rintro ⟨⟨part, hparts, hwr⟩, hord⟩
    exact ⟨by simp, [part], hparts, .cons ⟨hwr, hord⟩ .nil⟩

lemma parseRangeHeader_single_iff :
    parseRangeHeader toLowerCase header = some [spec] ↔
      ∃ written, Member toLowerCase header written ∧ spec = written.clamp ∧ spec.Ordered := by
  rw [parseRangeHeader_eq_some_iff]
  constructor
  · rintro ⟨-, parts, hparts, hmems⟩
    obtain ⟨part, rest, hpar, hrest, rfl⟩ := forall₂_cons_right_iff.mp hmems
    obtain rfl := forall₂_nil_right_iff.mp hrest
    obtain ⟨written, hwr, hclamp, hord⟩ := parseRangeSpec_eq_some_iff.mp hpar
    exact ⟨written, ⟨part, hparts, hwr⟩, hclamp, hord⟩
  · rintro ⟨written, ⟨part, hparts, hwr⟩, hclamp, hord⟩
    have hpar := parseRangeSpec_eq_some_iff.mpr ⟨written, hwr, hclamp, hord⟩
    exact ⟨by simp, [part], hparts, .cons hpar .nil⟩

/-- A field with one member is prescribed what that member means. -/
lemma Member.prescribed_iff (h : Member toLowerCase header spec) (size outcome) :
    Prescribed toLowerCase header size outcome ↔ outcome = spec.outcome size := by
  have hset : ∀ specs, RangeSet toLowerCase header specs → specs = [spec] ∧ spec.Ordered := by
    rintro specs ⟨-, parts, hparts, hmems⟩
    obtain ⟨part, hpart, hwr⟩ := h
    obtain rfl := hparts.unique hpart
    obtain ⟨spec', rest, ⟨hwr', hord⟩, hrest, rfl⟩ := forall₂_cons_left_iff.mp hmems
    obtain rfl := forall₂_nil_left_iff.mp hrest
    obtain rfl := hwr.unique hwr'
    exact ⟨rfl, hord⟩
  constructor
  · intro hpres
    cases hpres with
    | malformed hnone =>
      have hord : ¬ spec.Ordered := fun ho => hnone [spec] (rangeSet_single_iff.mpr ⟨h, ho⟩)
      exact (RangeSpec.outcome_of_not_ordered hord size).symm
    | several hspecs hlen =>
      obtain ⟨rfl, -⟩ := hset _ hspecs
      exact absurd rfl hlen
    | single hspec hmeans =>
      obtain ⟨heq, hord⟩ := hset _ hspec
      cases heq
      rw [RangeSpec.outcome_of_ordered hord]
      exact hmeans.unique (RangeSpec.means_resolveSpec size hord)
  · rintro rfl
    by_cases hord : spec.Ordered
    · rw [RangeSpec.outcome_of_ordered hord]
      exact .single (rangeSet_single_iff.mpr ⟨h, hord⟩)
        (RangeSpec.means_resolveSpec size hord)
    · rw [RangeSpec.outcome_of_not_ordered hord]
      exact .malformed (fun specs hspecs => hord (hset specs hspecs).2)

lemma prescribed_iff_of_not_member (h : ∀ spec, ¬ Member toLowerCase header spec) (size outcome) :
    Prescribed toLowerCase header size outcome ↔ outcome = .ignore := by
  constructor
  · intro hpres
    cases hpres with
    | malformed => rfl
    | several => rfl
    | single hspec => exact absurd (rangeSet_single_iff.mp hspec).1 (h _)
  · rintro rfl
    by_cases hset : ∃ specs, RangeSet toLowerCase header specs
    · obtain ⟨specs, hspecs⟩ := hset
      refine .several hspecs (fun hlen => ?_)
      obtain ⟨spec, rfl⟩ := length_eq_one_iff.mp hlen
      exact h spec (rangeSet_single_iff.mp hspecs).1
    · exact .malformed (not_exists.mp hset)

lemma rangeOutcome_of_ne_single (h : ∀ spec, parseRangeHeader toLowerCase header ≠ some [spec])
    (hsize : size ≤ maxSafeInteger) : rangeOutcome toLowerCase header size = .ok .ignore := by
  unfold rangeOutcome
  split
  · rfl
  · rename_i specs hpar
    apply resolveRange_of_ne_single hsize
    rintro spec rfl
    exact h spec hpar

lemma Member.rangeOutcome_eq (h : Member toLowerCase header spec) (hsize : size ≤ maxSafeInteger) :
    rangeOutcome toLowerCase header size = .ok (spec.clamp.outcome size) := by
  by_cases hord : spec.clamp.Ordered
  · have hpar := parseRangeHeader_single_iff.mpr ⟨spec, h, rfl, hord⟩
    simp [rangeOutcome, hpar, resolveRange_single hsize, RangeSpec.outcome_of_ordered hord]
  · rw [RangeSpec.outcome_of_not_ordered hord]
    refine rangeOutcome_of_ne_single (fun spec' hpar => ?_) hsize
    obtain ⟨written, hmem, rfl, hord'⟩ := parseRangeHeader_single_iff.mp hpar
    rw [hmem.unique h] at hord'
    exact hord hord'

lemma rangeOutcome_of_not_member (h : ∀ spec, ¬ Member toLowerCase header spec)
    (hsize : size ≤ maxSafeInteger) : rangeOutcome toLowerCase header size = .ok .ignore := by
  refine rangeOutcome_of_ne_single (fun spec hpar => ?_) hsize
  obtain ⟨written, hmem, -⟩ := parseRangeHeader_single_iff.mp hpar
  exact h written hmem

/-- For every field and every safe size there is an outcome, and it is the one the rules
prescribe unless a single member is written with positions that are blurred for that size. -/
theorem range_exact_iff (toLowerCase : JsString → JsString) (header : JsString) (size : ℕ)
    (hsize : size ≤ maxSafeInteger) :
    ∃ outcome, rangeOutcome toLowerCase header size = .ok outcome ∧
      (Prescribed toLowerCase header size outcome ↔
        ¬ ∃ spec, Member toLowerCase header spec ∧ spec.Blurred size) := by
  by_cases hmem : ∃ spec, Member toLowerCase header spec
  · obtain ⟨spec, hspec⟩ := hmem
    refine ⟨_, hspec.rangeOutcome_eq hsize, ?_⟩
    have hblur : (∃ spec, Member toLowerCase header spec ∧ spec.Blurred size) ↔
        spec.Blurred size := by
      constructor
      · rintro ⟨spec', hspec', h⟩
        rwa [hspec'.unique hspec] at h
      · exact fun h => ⟨spec, hspec, h⟩
    rw [hspec.prescribed_iff, hblur]
    exact RangeSpec.outcome_clamp_iff hsize spec
  · have hnone := not_exists.mp hmem
    refine ⟨_, rangeOutcome_of_not_member hnone hsize, ?_⟩
    rw [prescribed_iff_of_not_member hnone]
    simp only [true_iff]
    rintro ⟨spec, hspec, -⟩
    exact hnone spec hspec

end Field

lemma member_closed {digits first digits' last} (hfst : Numeral digits first)
    (hlast : Numeral digits' last)
    (hparts : rangeParts (digits ++ 45 :: digits') = [digits ++ 45 :: digits']) :
    Member id (units "bytes=" ++ (digits ++ 45 :: digits')) (.int first (some last)) := by
  refine ⟨digits ++ 45 :: digits', ⟨units "bytes", digits ++ 45 :: digits', ?_, ?_, ?_, ?_⟩,
    .closed hfst hlast⟩
  · rw [show units "bytes=" = units "bytes" ++ [61] by decide]
    simp
  · decide
  · decide
  · exact hparts.symm

/-- A last position of twenty digits is cut to the last byte. -/
theorem range_exact_long_last :
    100 ≤ maxSafeInteger ∧
    rangeOutcome id (units "bytes=0-99999999999999999999") 100 = .ok (.range ⟨0, 99⟩) ∧
    Prescribed id (units "bytes=0-99999999999999999999") 100 (.range ⟨0, 99⟩) := by
  have hsize : 100 ≤ maxSafeInteger := by decide
  have heval : rangeOutcome id (units "bytes=0-99999999999999999999") 100 = .ok (.range ⟨0, 99⟩) := by
    decide +kernel
  obtain ⟨outcome, hout, hiff⟩ :=
    range_exact_iff id (units "bytes=0-99999999999999999999") 100 hsize
  cases hout
  refine ⟨hsize, heval, hiff.mpr ?_⟩
  rintro ⟨spec, hmem, hblur⟩
  have hfst : Numeral (units "0") 0 := ⟨by decide, by decide⟩
  have hlast : Numeral (units "99999999999999999999") 99999999999999999999 := ⟨by decide, by decide⟩
  have hspec : Member id (units "bytes=0-99999999999999999999")
      (.int 0 (some 99999999999999999999)) := member_closed hfst hlast (by decide +kernel)
  rw [hmem.unique hspec, RangeSpec.Blurred] at hblur
  omega

/-- Two positions out of order, too long to be told apart: the field is malformed, and the
answer is that the range cannot be satisfied. -/
theorem range_blurs_order :
    rangeOutcome id (units "bytes=9999999999999999-1000000000000000") 100 = .ok .unsatisfiable ∧
    Prescribed id (units "bytes=9999999999999999-1000000000000000") 100 .ignore ∧
    ¬ Prescribed id (units "bytes=9999999999999999-1000000000000000") 100 .unsatisfiable := by
  have hfst : Numeral (units "9999999999999999") 9999999999999999 := ⟨by decide, by decide⟩
  have hlast : Numeral (units "1000000000000000") 1000000000000000 := ⟨by decide, by decide⟩
  have hmem : Member id (units "bytes=9999999999999999-1000000000000000")
      (.int 9999999999999999 (some 1000000000000000)) :=
    member_closed hfst hlast (by decide +kernel)
  refine ⟨by decide +kernel, ?_, ?_⟩
  · rw [hmem.prescribed_iff]
    decide
  · rw [hmem.prescribed_iff]
    decide

end BoilerplateExpress.Http

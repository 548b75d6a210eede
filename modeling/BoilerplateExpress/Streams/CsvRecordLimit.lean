import BoilerplateExpress.Streams.CsvChunking
import Mathlib.Algebra.Order.Floor.Semiring

/-!
# What the parser holds of one record

`append` charges every character of a record against `maxRecordChars`. `closeField` puts a field
on the list without charging for it, so the number of fields is bounded by the delimiters read
and not by the limit. What is held grows with the number of fields and with nothing else.
-/
namespace BoilerplateExpress.Streams

open List

namespace Parser

/-- What is held of the record under construction: its characters and its fields. -/
def retained (p : Parser) : ℕ :=
  ((p.fields ++ [p.field]).map List.length).sum + (p.fields ++ [p.field]).length

/-- All characters held were charged, and the charge was accepted. -/
structure Charged (c : CsvDialect) (p : Parser) : Prop where
  chars : (p.fields.map List.length).sum + p.field.length = p.recordChars
  within : p.recordChars = 0 ∨ c.maxRecordChars.exceeded p.recordChars = false

variable {c : CsvDialect} {p q : Parser} {char : UInt16}

lemma closeRecord_charged (c) (p : Parser) :
    p.closeRecord.Charged c ∧ p.closeRecord.fields = [] := by
  unfold closeRecord
  split_ifs <;> exact ⟨⟨rfl, .inl rfl⟩, rfl⟩

lemma resolve_charged (hp : p.Charged c) :
    p.resolve.Charged c ∧ p.resolve.fields.length ≤ p.fields.length := by
  obtain ⟨hcl, hfs⟩ := closeRecord_charged c { p with pendingCr := false }
  unfold resolve
  split_ifs
  · exact ⟨hcl, by simp [hfs]⟩
  · exact ⟨hp, le_rfl⟩

lemma Fed.charged (h : Fed c p char q) (hp : p.Charged c) :
    q.Charged c ∧ q.fields.length ≤ p.fields.length + if char = c.delimiter then 1 else 0 := by
  have hchars := hp.chars
  have hadded : (p.fields.map List.length).sum + (p.field ++ [char]).length = p.recordChars + 1 := by
    rw [length_append, length_singleton]
    omega
  cases h with
  | opens => exact ⟨⟨hp.chars, hp.within⟩, Nat.le_add_right _ _⟩
  | plain _ _ _ hfits => exact ⟨⟨hadded, .inr hfits⟩, Nat.le_add_right _ _⟩
  | content _ _ hfits => exact ⟨⟨hadded, .inr hfits⟩, Nat.le_add_right _ _⟩
  | closesQuote => exact ⟨⟨hp.chars, hp.within⟩, Nat.le_add_right _ _⟩
  | doubled _ _ hfits => exact ⟨⟨hadded, .inr hfits⟩, Nat.le_add_right _ _⟩
  | closesField touched _ hchar =>
    refine ⟨⟨by simpa [closeField] using hchars, hp.within⟩, ?_⟩
    simp [closeField, hchar]
  | closesRecord =>
    obtain ⟨hclosed, hfields⟩ := closeRecord_charged c p
    exact ⟨hclosed, by simp [hfields]⟩
  | holdsCr => exact ⟨⟨hp.chars, hp.within⟩, Nat.le_add_right _ _⟩

lemma feedAll_charged {input} (h : p.feedAll c input = .ok q) (hp : p.Charged c) :
    q.Charged c ∧ q.fields.length ≤ p.fields.length + input.count c.delimiter := by
  induction input generalizing p with
  | nil => exact Except.ok.inj h ▸ ⟨hp, le_rfl⟩
  | cons char rest ih =>
    obtain ⟨r, hr, hq⟩ := bind_eq_ok h
    obtain ⟨hres, hfewer⟩ := resolve_charged hp
    have hstep : r.Charged c ∧
        r.fields.length ≤ p.fields.length + if char = c.delimiter then 1 else 0 := by
      rcases fed_of_feed hr with ⟨-, -, rfl⟩ | hfed
      · exact ⟨hres, hfewer.trans (Nat.le_add_right _ _)⟩
      · obtain ⟨hchg, hlen⟩ := hfed.charged hres
        exact ⟨hchg, by omega⟩
    obtain ⟨hchg, hlen⟩ := ih hq hstep.1
    refine ⟨hchg, hlen.trans ?_⟩
    rw [count_cons]
    simp only [beq_iff_eq]
    omega

lemma consume_charged {text} (h : p.consume c text = .ok q) (hp : p.Charged c) :
    q.Charged c ∧ q.fields.length ≤ p.fields.length + text.count c.delimiter := by
  cases hstart : p.atStart with
  | false => exact feedAll_charged (consume_of_started c hstart text ▸ h) hp
  | true =>
    cases text with
    | nil => exact Except.ok.inj h ▸ ⟨hp, le_rfl⟩
    | cons first rest =>
      rw [consume_at_start c hstart] at h
      obtain ⟨hchg, hlen⟩ := feedAll_charged h ⟨hp.chars, hp.within⟩
      refine ⟨hchg, hlen.trans (Nat.add_le_add_left ?_ _)⟩
      split_ifs
      · exact count_le_count_cons
      · exact le_rfl

lemma Charged.le_floor {limit} (hp : p.Charged c) (h : c.maxRecordChars.value = some limit) :
    p.recordChars ≤ ⌊limit⌋₊ := by
  rcases hp.within with hzero | hwi
  · omega
  · simp only [Limit.exceeded, h, decide_eq_false_iff_not, not_lt] at hwi
    exact Nat.le_floor hwi

lemma feedAll_delimiters (c n) (hst : p.state = .fieldStart) (hpend : p.pendingCr = false) :
    ∃ q, p.feedAll c (replicate n c.delimiter) = .ok q ∧ q.fields.length = p.fields.length + n := by
  induction n generalizing p with
  | zero => exact ⟨p, rfl, rfl⟩
  | succ n ih =>
    obtain ⟨q, hq, hlen⟩ := ih (p := { p with recordTouched := true }.closeField) rfl hpend
    refine ⟨q, ?_, ?_⟩
    · rw [replicate_succ, feedAll_cons, feed_of_not_pending hpend]
      simpa [feedState, hst, c.differ, feedUnquoted, closeField] using hq
    · simp only [closeField, length_append, length_singleton] at hlen
      omega

end Parser

/-- From any point between two records on, and in every way of cutting the text into chunks, the
parser holds no more than the limit and one for each delimiter read since. A point inside a chunk
is the end of a shorter one. What is held is bounded exactly if the number of closed fields is. -/
theorem csv_record_bounded {c : CsvDialect} {limit : ℚ}
    (hlimit : c.maxRecordChars.value = some limit) {before texts : List JsString} {p q : Parser}
    (hp : before.foldlM (Parser.consume c) {} = .ok p) (hrecord : p.fields = [])
    (hq : texts.foldlM (Parser.consume c) p = .ok q) :
    q.retained ≤ ⌊limit⌋₊ + texts.flatten.count c.delimiter + 1 ∧
      q.fields.length < q.retained ∧ q.retained ≤ ⌊limit⌋₊ + q.fields.length + 1 := by
  rw [Parser.foldlM_consume] at hp hq
  obtain ⟨hpre, -⟩ := Parser.consume_charged hp ⟨rfl, .inl rfl⟩
  obtain ⟨hchg, hlen⟩ := Parser.consume_charged hq hpre
  have hfloor := hchg.le_floor hlimit
  have hchars := hchg.chars
  simp only [hrecord, length_nil] at hlen
  simp only [Parser.retained, map_append, sum_append, map_cons, map_nil,
    sum_singleton, length_append, length_singleton]
  omega

/-- Two fields in two chunks. -/
theorem csv_record_bounded_two_fields :
    ∃ p : Parser, [EventStream.units "a,", EventStream.units "bc"].foldlM
        (Parser.consume defaultDialect) {} = .ok p ∧ p.retained = 5 ∧
      p.retained ≤ ⌊(1048576 : ℚ)⌋₊ +
        [EventStream.units "a,", EventStream.units "bc"].flatten.count 44 + 1 ∧
      1 < p.retained := by
  have hstart : ([] : List JsString).foldlM (Parser.consume defaultDialect) {} = .ok {} := rfl
  have hread : [EventStream.units "a,", EventStream.units "bc"].foldlM
      (Parser.consume defaultDialect) {} = .ok {
        state := .unquoted, field := [98, 99], fields := [[97]], recordTouched := true,
        recordChars := 3, atStart := false } := by decide +kernel
  have hbounds := csv_record_bounded rfl hstart rfl hread
  exact ⟨_, hread, by decide, hbounds.1, hbounds.2.1⟩

/-- A record of empty fields grows without bound, whatever the limit is. -/
lemma retained_unbounded (c bound) :
    ∃ (text : JsString) (p : Parser), Parser.consume c {} text = .ok p ∧ bound < p.retained := by
  refine ⟨replicate (bound + 1) c.delimiter, ?_⟩
  rw [replicate_succ, Parser.consume_at_start c rfl, ← replicate_succ]
  obtain ⟨n, hn, htext⟩ : ∃ n, bound ≤ n ∧
      (if c.delimiter = EventStream.byteOrderMark then replicate bound c.delimiter
        else replicate (bound + 1) c.delimiter) = replicate n c.delimiter := by
    split_ifs
    · exact ⟨bound, le_rfl, rfl⟩
    · exact ⟨bound + 1, Nat.le_succ _, rfl⟩
  obtain ⟨q, hq, hlen⟩ := Parser.feedAll_delimiters c n (p := { atStart := false }) rfl rfl
  refine ⟨q, htext ▸ hq, ?_⟩
  simp only [Parser.retained, length_append, length_singleton]
  omega

/-- One character is the limit, and no number bounds what the parser holds. -/
theorem csv_record_unbounded :
    ∃ c : CsvDialect, c.maxRecordChars.value = some 1 ∧
      ∀ bound : ℕ, ∃ (text : JsString) (p : Parser),
        Parser.consume c {} text = .ok p ∧ bound < p.retained :=
  ⟨{ defaultDialect with maxRecordChars := ⟨some 1, EventStream.units "1"⟩ }, rfl, retained_unbounded _⟩

end BoilerplateExpress.Streams

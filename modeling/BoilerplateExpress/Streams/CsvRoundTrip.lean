import BoilerplateExpress.Streams.CsvChunking

/-!
# Reading back rendered records

Records are rendered with the quoting rules of RFC 4180: a field that contains the
delimiter, a quote, a CR or an LF is written in quotes with its quotes doubled, any other
field may be. Records end in an LF, a CRLF pair or a CR, and the last one may end without.
The parser returns the fields that were rendered.
-/
namespace BoilerplateExpress.Streams

open EventStream (units lineFeed carriageReturn byteOrderMark)
open List

/-- A field and the choice whether it is written in quotes. -/
structure WrittenField where
  value : JsString
  quoted : Bool
  deriving DecidableEq

inductive Terminator where
  | lf
  | crlf
  | cr
  deriving DecidableEq

def Terminator.text : Terminator → JsString
  | .lf => [lineFeed]
  | .crlf => [carriageReturn, lineFeed]
  | .cr => [carriageReturn]

namespace CsvDialect

/-- Neither setting is a unit that ends a record. -/
structure Plain (c : CsvDialect) : Prop where
  delimiter_ne_lf : c.delimiter ≠ lineFeed
  delimiter_ne_cr : c.delimiter ≠ carriageReturn
  quote_ne_lf : c.quote ≠ lineFeed
  quote_ne_cr : c.quote ≠ carriageReturn

def needsQuotes (c : CsvDialect) (value : JsString) : Bool :=
  value.any (fun char =>
    char = c.delimiter || char = c.quote || char = carriageReturn || char = lineFeed)

def doubleQuotes (c : CsvDialect) (value : JsString) : JsString :=
  value.flatMap (fun char => if char = c.quote then [c.quote, c.quote] else [char])

def fieldText (c : CsvDialect) (field : WrittenField) : JsString :=
  if field.quoted then c.quote :: (c.doubleQuotes field.value ++ [c.quote]) else field.value

def recordText (c : CsvDialect) : List WrittenField → JsString
  | [] => []
  | [field] => c.fieldText field
  | field :: next :: record => c.fieldText field ++ c.delimiter :: c.recordText (next :: record)

end CsvDialect

/-- The units a record holds: what its fields contain. -/
def recordLength (record : List WrittenField) : ℕ := (record.map (·.value.length)).sum

/-- Records with their terminators, and a last record that has none. -/
structure CsvDocument where
  terminated : List (List WrittenField × Terminator)
  last : Option (List WrittenField)

namespace CsvDocument

def records (doc : CsvDocument) : List (List WrittenField) :=
  doc.terminated.map Prod.fst ++ doc.last.toList

def text (c : CsvDialect) (doc : CsvDocument) : JsString :=
  doc.terminated.flatMap (fun record => c.recordText record.1 ++ record.2.text) ++
    (doc.last.map c.recordText).getD []

end CsvDocument

/-- What is asked of a rendered record: it has a field, fields are in quotes where they must
be, it is within the limit and it is not rendered as an empty line. -/
@[mk_iff]
structure CsvDialect.Renders (c : CsvDialect) (record : List WrittenField) : Prop where
  nonempty : record ≠ []
  quoted : ∀ field ∈ record, c.needsQuotes field.value = true → field.quoted = true
  within : c.maxRecordChars.exceeded (recordLength record) = false
  visible : c.recordText record ≠ []

instance (c : CsvDialect) (record : List WrittenField) : Decidable (c.Renders record) :=
  decidable_of_iff' _ (c.renders_iff record)

namespace Parser

/-- Between two fields of a record. -/
structure AtField (p : Parser) : Prop where
  state : p.state = .fieldStart
  field : p.field = []
  pendingCr : p.pendingCr = false

/-- The parser after a field: what was read, and a state in which the field may end. -/
def fieldRead (p : Parser) (field : WrittenField) : Parser :=
  { p with
    state := if field.quoted then .afterQuote else if field.value = [] then .fieldStart else .unquoted
    field := field.value
    recordChars := p.recordChars + field.value.length
    recordTouched := p.recordTouched || field.quoted || !field.value.isEmpty
    line := p.line + field.value.count lineFeed }

variable {c : CsvDialect} {p : Parser}

lemma append_of_within {text}
    (h : c.maxRecordChars.exceeded (p.recordChars + text.length) = false) :
    p.append c text =
      .ok { p with recordChars := p.recordChars + text.length, field := p.field ++ text } := by
  simp [append, h]

variable {value : JsString}

lemma needsQuotes_eq_false (h : c.needsQuotes value = false) :
    ∀ char ∈ value, char ≠ c.delimiter ∧ char ≠ c.quote ∧ char ≠ carriageReturn ∧ char ≠ lineFeed := by
  intro char hchar
  have hany := any_eq_false.mp h char hchar
  simpa [and_assoc] using hany

/-- The first unit of a field without quotes is read as the units after it. -/
lemma feedAll_open {char} (hp : p.AtField) (hchar : char ≠ c.quote) (rest : JsString) :
    p.feedAll c (char :: rest) = feedAll c { p with state := .unquoted } (char :: rest) := by
  simp [feed, feedState, hp.state, hp.pendingCr, hchar]

lemma feedAll_bare (hp : p.AtField) (hplain : c.needsQuotes value = false)
    (hwi : c.maxRecordChars.exceeded (p.recordChars + value.length) = false) :
    p.feedAll c value = .ok (p.fieldRead ⟨value, false⟩) := by
  have hunits := needsQuotes_eq_false hplain
  have hlines : value.count lineFeed = 0 :=
    count_eq_zero_of_not_mem (fun hmem => (hunits _ hmem).2.2.2 rfl)
  cases value with
  | nil =>
    rw [feedAll_nil]
    congr 1
    ext1 <;> simp [fieldRead, hp.state, hp.field]
  | cons char rest =>
    have hord : ∀ u ∈ char :: rest, ordinary c u := by
      intro u hu
      simp [ordinary, hunits u hu]
    have hrun := feedAll_unquoted_run c (p := { p with state := .unquoted }) rfl hp.pendingCr
      hord
    rw [feedAll_open hp (hunits char mem_cons_self).2.1, hrun, appendRun,
      if_neg (cons_ne_nil char rest), append_of_within (by exact hwi)]
    congr 1
    ext1 <;> simp [fieldRead, hp.field, hlines]

lemma feedAll_doubled (hquote : c.quote ≠ lineFeed) (hst : p.state = .quoted)
    (hpend : p.pendingCr = false)
    (hwi : c.maxRecordChars.exceeded (p.recordChars + value.length) = false) :
    p.feedAll c (c.doubleQuotes value) =
      .ok { p with
        field := p.field ++ value
        recordChars := p.recordChars + value.length
        line := p.line + value.count lineFeed } := by
  induction value generalizing p with
  | nil => simp [CsvDialect.doubleQuotes]
  | cons char value ih =>
    have hfst : c.maxRecordChars.exceeded (p.recordChars + 1) = false :=
      Limit.within_of_le (by simp) hwi
    have hrest : c.maxRecordChars.exceeded (p.recordChars + 1 + value.length) = false := by
      rw [← hwi, length_cons]
      congr 1
      omega
    -- one unit of the value, however many units it is written with
    have hunit : p.feedAll c (if char = c.quote then [c.quote, c.quote] else [char]) =
        .ok { p with
          field := p.field ++ [char]
          recordChars := p.recordChars + 1
          line := p.line + if char = lineFeed then 1 else 0 } := by
      by_cases hchar : char = c.quote
      · simp [hchar, hquote, feed, feedState, feedAfterQuote, hst, hpend, append, hfst]
      · simp [hchar, feed, feedState, hst, hpend, append, hfst]
    have htext : c.doubleQuotes (char :: value) =
        (if char = c.quote then [c.quote, c.quote] else [char]) ++ c.doubleQuotes value := by
      simp [CsvDialect.doubleQuotes]
    rw [htext, feedAll_append, hunit, ok_bind,
      ih (by exact hst) (by exact hpend) (by exact hrest)]
    congr 1
    ext1 <;> simp [count_cons] <;> omega

lemma feedAll_field (hc : c.Plain) (hp : p.AtField) {field}
    (hquo : c.needsQuotes field.value → field.quoted)
    (hwi : c.maxRecordChars.exceeded (p.recordChars + field.value.length) = false) :
    p.feedAll c (c.fieldText field) = .ok (p.fieldRead field) := by
  cases hq : field.quoted with
  | false =>
    have hplain : c.needsQuotes field.value = false := by
      by_contra h
      simp [hquo (by simpa using h)] at hq
    have hbare := feedAll_bare hp hplain hwi
    rw [CsvDialect.fieldText, hq, if_neg (by decide), hbare, ← hq]
  | true =>
    have hopen : p.feed c c.quote = .ok { p with recordTouched := true, state := .quoted } := by
      simp [feed, feedState, hp.state, hp.pendingCr]
    have hcon := feedAll_doubled (p := { p with recordTouched := true, state := .quoted })
      hc.quote_ne_lf rfl hp.pendingCr hwi
    rw [CsvDialect.fieldText, hq, if_pos rfl, feedAll_cons, hopen, ok_bind, feedAll_append,
      hcon, ok_bind]
    simp [feed, feedState, hp.pendingCr, fieldRead, hq, hp.field]

/-- The parser at the next field of the record. -/
def nextField (p : Parser) (field : WrittenField) : Parser :=
  { p with
    fields := p.fields ++ [field.value]
    recordChars := p.recordChars + field.value.length
    recordTouched := true
    line := p.line + field.value.count lineFeed }

lemma AtField.nextField (hp : p.AtField) (field) :
    (p.nextField field).AtField := ⟨hp.state, hp.field, hp.pendingCr⟩

lemma feed_delimiter (c) (hp : p.AtField) (field) :
    (p.fieldRead field).feed c c.delimiter = .ok (p.nextField field) := by
  have hdiff := c.differ
  have hst : p.state = .fieldStart := hp.state
  cases hq : field.quoted with
  | true =>
    simp [feed, feedState, fieldRead, nextField, hq, hp.pendingCr, feedAfterQuote, hdiff,
      closeField, hp.field, hst]
  | false =>
    cases hv : field.value with
    | nil =>
      simp [feed, feedState, fieldRead, nextField, hq, hv, hp.pendingCr, hdiff,
        feedUnquoted, closeField, hp.field, hst]
    | cons char rest =>
      simp [feed, feedState, fieldRead, nextField, hq, hv, hp.pendingCr,
        feedUnquoted, closeField, hp.field, hst]

/-- What is known of the parser after the text of a record, before its terminator. -/
structure RecordRead (p q : Parser) (record : List WrittenField) : Prop where
  fields : q.fields ++ [q.field] = p.fields ++ record.map (·.value)
  pushed : q.pushed = p.pushed
  recordLine : q.recordLine = p.recordLine
  state : q.state ≠ .quoted
  pendingCr : q.pendingCr = false

variable {record : List WrittenField}

lemma feedAll_record (hc : c.Plain) :
    ∀ {p : Parser}, p.AtField → record ≠ [] →
      (∀ field ∈ record, c.needsQuotes field.value → field.quoted) →
      c.maxRecordChars.exceeded (p.recordChars + recordLength record) = false →
      ∃ q, p.feedAll c (c.recordText record) = .ok q ∧ RecordRead p q record ∧
        (p.recordTouched ∨ c.recordText record ≠ [] → q.recordTouched) := by
  induction record with
  | nil => intro p _ hne; exact absurd rfl hne
  | cons field record ih =>
    intro p hp _ hquoted hwithin
    have hlength : recordLength (field :: record) = field.value.length + recordLength record := by
      simp [recordLength]
    have hfield := feedAll_field hc hp (hquoted field mem_cons_self)
      (Limit.within_of_le (by omega) hwithin)
    cases record with
    | nil =>
      refine ⟨p.fieldRead field, hfield, ⟨?_, rfl, rfl, ?_, hp.pendingCr⟩, ?_⟩
      · simp [fieldRead]
      · simp only [fieldRead]
        split_ifs <;> simp
      · simp only [CsvDialect.recordText, CsvDialect.fieldText, fieldRead]
        cases field.quoted <;> simp
    | cons next record =>
      obtain ⟨q, hq, hread, htouched⟩ := ih (hp.nextField field) (by simp)
        (fun f hf => hquoted f (mem_cons_of_mem field hf)) (by
          simp only [nextField]
          rw [Nat.add_assoc, ← hlength]
          exact hwithin)
      refine ⟨q, ?_, ⟨?_, hread.pushed, hread.recordLine, hread.state, hread.pendingCr⟩,
        fun _ => htouched (.inl rfl)⟩
      · rw [CsvDialect.recordText, feedAll_append, hfield, ok_bind, feedAll_cons,
          feed_delimiter c hp field, ok_bind, hq]
      · rw [hread.fields]
        simp [nextField]

/-- Before the first unit of a record. -/
structure AtRecord (p : Parser) : Prop extends AtField p where
  fields : p.fields = []
  recordChars : p.recordChars = 0
  recordTouched : p.recordTouched = false

lemma closeRecord_atRecord (h : p.pendingCr = false) : p.closeRecord.AtRecord := by
  unfold closeRecord
  split_ifs
  · exact ⟨⟨rfl, rfl, h⟩, rfl, rfl, rfl⟩
  · exact ⟨⟨rfl, rfl, h⟩, rfl, rfl, rfl⟩

lemma feed_lineFeed (hc : c.Plain) (hst : p.state ≠ .quoted) (hpend : p.pendingCr = false) :
    p.feed c lineFeed = .ok p.closeRecord := by
  have hquote := hc.quote_ne_lf.symm
  have hdelim := hc.delimiter_ne_lf.symm
  rw [feed_of_not_pending hpend]
  cases hs : p.state with
  | quoted => exact absurd hs hst
  | fieldStart =>
    simp only [feedState, hs, hquote, feedUnquoted, hdelim]
    rfl
  | unquoted => simp [feedState, hs, feedUnquoted, hdelim]
  | afterQuote =>
    simp only [feedState, hs, hquote, feedAfterQuote, hdelim]
    rfl

lemma feed_carriageReturn (hc : c.Plain) (hst : p.state ≠ .quoted)
    (hpend : p.pendingCr = false) :
    ∃ q, p.feed c carriageReturn = .ok q ∧ q.pendingCr ∧ q.resolve = p.closeRecord := by
  have hquote := hc.quote_ne_cr.symm
  have hdelim := hc.delimiter_ne_cr.symm
  have hlf : carriageReturn ≠ lineFeed := by decide
  cases hs : p.state with
  | quoted => exact absurd hs hst
  | fieldStart =>
    refine ⟨{ p with state := .unquoted, pendingCr := true }, ?_, rfl, ?_⟩
    · simp [feed, feedState, hs, hpend, hquote, feedUnquoted, hdelim, hlf]
    · simp only [resolve, ← hpend]
      rfl
  | unquoted =>
    refine ⟨{ p with pendingCr := true }, ?_, rfl, ?_⟩
    · simp [feed, feedState, hs, hpend, feedUnquoted, hdelim, hlf]
    · simp [resolve, ← hpend]
  | afterQuote =>
    refine ⟨{ p with state := .fieldStart, pendingCr := true }, ?_, rfl, ?_⟩
    · simp [feed, feedState, hs, hpend, hquote, feedAfterQuote, hdelim, hlf]
    · simp only [resolve, ← hpend]
      rfl

/-- Every terminator closes the record, a CR alone as soon as what follows is known. -/
lemma feedAll_terminator (hc : c.Plain) (hst : p.state ≠ .quoted)
    (hpend : p.pendingCr = false) (t : Terminator) :
    ∃ q, p.feedAll c t.text = .ok q ∧ q.resolve = p.closeRecord := by
  have hcl := p.closeRecord_pendingCr.trans hpend
  obtain ⟨q, hq, hqpen, hres⟩ := feed_carriageReturn hc hst hpend
  cases t with
  | lf => exact ⟨p.closeRecord, by simp [Terminator.text, feed_lineFeed hc hst hpend],
      resolve_of_not_pending hcl⟩
  | crlf =>
    refine ⟨p.closeRecord, ?_, resolve_of_not_pending hcl⟩
    rw [resolve, if_pos hqpen] at hres
    have hlf : q.feed c lineFeed = .ok p.closeRecord := by
      rw [feed, if_pos hqpen, hres]
      rfl
    simp [Terminator.text, hq, hlf]
  | cr => exact ⟨q, by simp [Terminator.text, hq], hres⟩

/-- Only an LF tells a pending CR from one that stands alone. -/
lemma feedAll_resolve (c) (p : Parser) {text} (hne : text ≠ [])
    (hhead : ∀ char ∈ text.head?, char ≠ lineFeed) :
    p.feedAll c text = p.resolve.feedAll c text := by
  cases text with
  | nil => exact absurd rfl hne
  | cons char rest =>
    have hchar : char ≠ lineFeed := hhead char rfl
    cases hpend : p.pendingCr with
    | false => rw [resolve_of_not_pending hpend]
    | true =>
      have hcl : ({ p with pendingCr := false }.closeRecord).pendingCr = false := by simp
      have hfeed := feed_of_not_pending hcl c char
      simp only [resolve]
      simp [feed, hpend, hchar]

lemma head_recordText (hc : c.Plain)
    (hquo : ∀ field ∈ record, c.needsQuotes field.value → field.quoted) :
    ∀ char ∈ (c.recordText record).head?, char ≠ lineFeed := by
  have hfield : ∀ field ∈ record, ∀ char ∈ (c.fieldText field).head?, char ≠ lineFeed := by
    intro field hmem char hchar
    cases hq : field.quoted with
    | true =>
      have hc' : c.quote = char := by simpa [CsvDialect.fieldText, hq] using hchar
      exact hc' ▸ hc.quote_ne_lf
    | false =>
      have hplain : c.needsQuotes field.value = false := by
        by_contra h
        simp [hquo field hmem (by simpa using h)] at hq
      have hmem' : char ∈ field.value := by
        apply mem_of_mem_head?
        simpa [CsvDialect.fieldText, hq] using hchar
      exact (needsQuotes_eq_false hplain char hmem').2.2.2
  cases record with
  | nil => simp [CsvDialect.recordText]
  | cons field record =>
    have hfst := hfield field mem_cons_self
    cases record with
    | nil => exact hfst
    | cons next record =>
      rw [CsvDialect.recordText]
      cases htext : c.fieldText field with
      | nil => simpa using hc.delimiter_ne_lf
      | cons char rest =>
        rw [htext] at hfst
        simpa using hfst

lemma closeRecord_pushed {q} (hread : RecordRead p q record) (hp : p.fields = [])
    (htch : q.recordTouched) :
    q.closeRecord.pushed.map CsvRecord.fields =
      p.pushed.map CsvRecord.fields ++ [record.map (·.value)] := by
  have hfs := hread.fields
  rw [hp, nil_append] at hfs
  simp [closeRecord, htch, hread.pushed, hfs]

/-- The text of one record, from any place between two records. -/
lemma feedAll_resolved_record (hc : c.Plain) (hp : p.resolve.AtRecord)
    (hrec : c.Renders record) :
    ∃ q, p.feedAll c (c.recordText record) = .ok q ∧ q.state ≠ .quoted ∧ q.pendingCr = false ∧
      q.recordTouched ∧ q.closeRecord.pushed.map CsvRecord.fields =
        p.resolve.pushed.map CsvRecord.fields ++ [record.map (·.value)] := by
  have hwi : c.maxRecordChars.exceeded (p.resolve.recordChars + recordLength record) = false := by
    rw [hp.recordChars, Nat.zero_add]
    exact hrec.within
  obtain ⟨q, hq, hread, htch⟩ :=
    feedAll_record hc hp.toAtField hrec.nonempty hrec.quoted hwi
  have hqtouc := htch (.inr hrec.visible)
  refine ⟨q, ?_, hread.state, hread.pendingCr, hqtouc, closeRecord_pushed hread hp.fields hqtouc⟩
  rw [feedAll_resolve c p hrec.visible (head_recordText hc hrec.quoted), hq]

/-- The terminated records of a document, by induction over them. -/
lemma feedAll_terminated (hc : c.Plain) {terminated : List (List WrittenField × Terminator)}
    (hrecs : ∀ record ∈ terminated, c.Renders record.1) :
    ∀ {p : Parser}, p.resolve.AtRecord →
      ∃ q, p.feedAll c (terminated.flatMap (fun record => c.recordText record.1 ++ record.2.text)) =
          .ok q ∧ q.resolve.AtRecord ∧
        q.resolve.pushed.map CsvRecord.fields = p.resolve.pushed.map CsvRecord.fields ++
          terminated.map (fun record => record.1.map (·.value)) := by
  induction terminated with
  | nil =>
    intro p hp
    exact ⟨p, by simp, hp, by simp⟩
  | cons record terminated ih =>
    intro p hp
    obtain ⟨q, hq, hst, hpend, -, hpush⟩ :=
      feedAll_resolved_record hc hp (hrecs record mem_cons_self)
    obtain ⟨r, hr, hres⟩ := feedAll_terminator hc hst hpend record.2
    have hrec : r.resolve.AtRecord := hres ▸ closeRecord_atRecord hpend
    obtain ⟨s, hs, hsrec, hspus⟩ :=
      ih (fun next hnext => hrecs next (mem_cons_of_mem record hnext)) hrec
    refine ⟨s, ?_, hsrec, ?_⟩
    · rw [flatMap_cons, feedAll_append, feedAll_append, hq, ok_bind, hr, ok_bind, hs]
    · rw [hspus, hres, hpush]
      simp

lemma flush_resolve (p : Parser) : p.flush = p.resolve.flush := by
  cases hpend : p.pendingCr with
  | false => rw [resolve_of_not_pending hpend]
  | true => simp [flush, resolve, hpend]

lemma flush_of_atRecord (hp : p.AtRecord) : p.flush = .ok p.pushed := by
  simp [flush, hp.pendingCr, hp.state, hp.recordTouched]

/-- At the end of the input an open record is closed as by a terminator. -/
lemma flush_of_record (hst : p.state ≠ .quoted) (hpend : p.pendingCr = false)
    (htch : p.recordTouched) : p.flush = .ok p.closeRecord.pushed := by
  simp [flush, hpend, hst, htch]

end Parser

/-- The records of a rendered document come back, from the fresh parser to the flush. -/
lemma CsvDocument.feedAll_flush {c} (hc : c.Plain) (doc : CsvDocument)
    (hdoc : ∀ record ∈ doc.records, c.Renders record) :
    ∃ records, (Parser.feedAll c { atStart := false } (doc.text c) >>= Parser.flush) = .ok records ∧
      records.map CsvRecord.fields = doc.records.map (fun record => record.map (·.value)) := by
  have hterm : ∀ record ∈ doc.terminated, c.Renders record.1 := by
    intro record hrec
    exact hdoc record.1 (mem_append_left _ (mem_map_of_mem hrec))
  obtain ⟨q, hq, hqrec, hpush⟩ :=
    Parser.feedAll_terminated hc hterm (p := { atStart := false })
      ⟨⟨rfl, rfl, rfl⟩, rfl, rfl, rfl⟩
  have hstart : (({ atStart := false } : Parser).resolve).pushed = [] := rfl
  rw [hstart, map_nil, nil_append] at hpush
  cases hlast : doc.last with
  | none =>
    have hflush := Parser.flush_of_atRecord hqrec
    refine ⟨q.resolve.pushed, ?_, ?_⟩
    · simp [CsvDocument.text, hlast, hq, Parser.flush_resolve q, hflush]
    · simp [CsvDocument.records, hlast, hpush]
  | some last =>
    have hren : c.Renders last := hdoc last (by simp [CsvDocument.records, hlast])
    obtain ⟨r, hr, hst, hpend, htch, hrpus⟩ :=
      Parser.feedAll_resolved_record hc hqrec hren
    refine ⟨r.closeRecord.pushed, ?_, ?_⟩
    · rw [CsvDocument.text, Parser.feedAll_append, hq, hlast, ok_bind, Option.map_some,
        Option.getD_some, hr, ok_bind, Parser.flush_of_record hst hpend htch]
    · rw [hrpus, hpush]
      simp [CsvDocument.records, hlast]

/-- Rendered records are read back exactly, from the text in any chunks and from its bytes in
any chunks. -/
theorem csv_round_trip {c : CsvDialect} (hc : c.Plain) {doc : CsvDocument}
    (hdoc : ∀ record ∈ doc.records, c.Renders record)
    (hbom : (doc.text c).head? ≠ some byteOrderMark) :
    (∀ texts : List JsString, texts.flatten = doc.text c →
      ∃ records, c.parseTexts texts = .ok records ∧
        records.map CsvRecord.fields = doc.records.map (fun record => record.map (·.value))) ∧
    ∀ (d : StringDecoder) (decode : Bytes → JsString), d.Reassembles decode →
      (doc.text c).wellFormed = true →
      ∀ chunks : List Bytes, chunks.flatten = (doc.text c).utf8 →
        ∃ records, c.parse d chunks = .ok records ∧
          records.map CsvRecord.fields = doc.records.map (fun record => record.map (·.value)) := by
  have htexts : ∀ texts : List JsString, texts.flatten = doc.text c →
      ∃ records, c.parseTexts texts = .ok records ∧
        records.map CsvRecord.fields = doc.records.map (fun record => record.map (·.value)) := by
    intro texts hflat
    obtain ⟨records, hrecs, hfs⟩ := doc.feedAll_flush hc hdoc
    refine ⟨records, ?_, hfs⟩
    rw [c.parseTexts_eq, hflat, ← hrecs]
    cases htext : doc.text c with
    | nil => rfl
    | cons first rest =>
      have hfst : first ≠ byteOrderMark := by
        rintro rfl
        exact hbom (by rw [htext]; rfl)
      rw [Parser.consume_at_start c rfl, if_neg hfst]
  refine ⟨htexts, ?_⟩
  intro d decode hdec hfor chunks hflat
  have hwhole : (d.texts chunks).flatten = doc.text c := by
    rw [hdec.whole, hflat, hdec.utf8 _ hfor]
  exact htexts _ hwhole

/-- Two records, the second in quotes and without a terminator. -/
def quotedDocument : CsvDocument where
  terminated := [([⟨units "a", false⟩, ⟨[], false⟩], .cr)]
  last := some [⟨units "b\"\r\n,", true⟩]

theorem csv_round_trip_quotedDocument :
    (∃ records,
      defaultDialect.parseTexts [units "a,\r\"b", units "\"\"\r", units "\n,\""] = .ok records ∧
        records.map CsvRecord.fields = [[units "a", []], [units "b\"\r\n,"]]) ∧
      ∃ records, defaultDialect.parse (bufferingDecoder decodeUtf8)
          [[97, 44, 13, 34, 98, 34], [34, 13, 10, 44, 34]] = .ok records ∧
        records.map CsvRecord.fields = [[units "a", []], [units "b\"\r\n,"]] := by
  have hdoc : ∀ record ∈ quotedDocument.records, defaultDialect.Renders record := by decide +kernel
  obtain ⟨htexts, hbytes⟩ :=
    csv_round_trip ⟨by decide, by decide, by decide, by decide⟩ hdoc (by decide +kernel)
  refine ⟨htexts _ (by decide +kernel), ?_⟩
  exact hbytes _ _ bufferingDecoder_reassembles (by decide +kernel) _ (by decide +kernel)

end BoilerplateExpress.Streams

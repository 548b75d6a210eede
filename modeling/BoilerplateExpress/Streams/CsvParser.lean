import BoilerplateExpress.Errors
import BoilerplateExpress.EventStream

/-!
# The CSV parser

`CsvParser` of `streams/csv-parser.ts`. Chunks of decoded text go through `consume`, which
reads runs of ordinary characters in one slice and keeps its place between two chunks in
the fields of the instance. `push` hands a record to the readable side of the stream.

`Parser` is the instance, `CsvDialect` its three settings as the constructor accepts them.
An error carries the records pushed before it; a chunk after an error is not read, since
the stream is destroyed. How the readable side buffers is not part of the model.
-/
namespace BoilerplateExpress.Streams

open EventStream (units lineFeed carriageReturn byteOrderMark)

inductive CsvParseErrorCode where
  | recordTooLarge
  | unterminatedQuote
  | invalidQuote
  | headerInvalid
  deriving DecidableEq, Repr

structure CsvParseError where
  code : CsvParseErrorCode
  message : JsString
  line : ℕ
  deriving DecidableEq, Repr

structure CsvRecord where
  line : ℕ
  fields : List JsString
  deriving DecidableEq, Repr

/-- A number given as a limit: its value, which is absent for `NaN` and `Infinity`, and the
text `String` writes for it. -/
structure Limit where
  value : Option ℚ
  text : JsString
  deriving DecidableEq, Repr

def Limit.exceeded (limit : Limit) (n : ℕ) : Bool :=
  match limit.value with
  | none => false
  | some q => decide (q < n)

lemma Limit.exceeded_mono {m n} {limit : Limit} (hmn : m ≤ n) (h : limit.exceeded m) :
    limit.exceeded n := by
  unfold Limit.exceeded at h ⊢
  cases hv : limit.value with
  | none => simp [hv] at h
  | some q =>
    simp only [hv, decide_eq_true_eq] at h ⊢
    exact h.trans_le (Nat.cast_le.mpr hmn)

lemma Limit.within_of_le {m n} {limit : Limit} (hmn : m ≤ n) (h : limit.exceeded n = false) :
    limit.exceeded m = false := by
  by_contra hm
  rw [Limit.exceeded_mono hmn (by simpa using hm)] at h
  cases h

def defaultMaxRecordChars : Limit := ⟨some 1048576, units "1048576"⟩

structure CsvParserOptions where
  delimiter : Option JsString := none
  quote : Option JsString := none
  maxRecordChars : Option Limit := none

/-- The settings of a parser whose constructor did not throw. -/
structure CsvDialect where
  delimiter : UInt16
  quote : UInt16
  maxRecordChars : Limit
  differ : delimiter ≠ quote

/-- The argument checks of the constructor. A failed check is a `RangeError` with that text. -/
def CsvParserOptions.check (options : CsvParserOptions) : Except String CsvDialect :=
  match options.delimiter.getD (units ","), options.quote.getD (units "\"") with
  | [delimiter], [quote] =>
    if h : delimiter = quote then .error "CsvParser: delimiter and quote must differ"
    else .ok ⟨delimiter, quote, options.maxRecordChars.getD defaultMaxRecordChars, h⟩
  | _, _ => .error "CsvParser: delimiter and quote must each be a single character"

inductive State where
  | fieldStart
  | unquoted
  | quoted
  | afterQuote
  deriving DecidableEq, Repr

@[ext] structure Parser where
  state : State := .fieldStart
  field : JsString := []
  fields : List JsString := []
  /-- The line being read. -/
  line : ℕ := 1
  /-- The line the record under construction began on. -/
  recordLine : ℕ := 1
  recordTouched : Bool := false
  recordChars : ℕ := 0
  /-- A CR was read, and whether an LF follows it is not known yet. -/
  pendingCr : Bool := false
  atStart : Bool := true
  pushed : List CsvRecord := []
  deriving DecidableEq, Repr

/-- What is known when the parser throws: the error and the records pushed until then. -/
structure CsvFailure where
  error : CsvParseError
  pushed : List CsvRecord
  deriving DecidableEq, Repr

namespace Parser

def resetRecord (p : Parser) : Parser :=
  { p with
    field := [], fields := [], state := .fieldStart, recordTouched := false, recordChars := 0,
    recordLine := p.line }

def closeField (p : Parser) : Parser :=
  { p with fields := p.fields ++ [p.field], field := [], state := .fieldStart }

/-- A line that nothing was read on separates records and is not one. -/
def closeRecord (p : Parser) : Parser :=
  if p.recordTouched then
    { { p with line := p.line + 1 }.resetRecord with
      pushed := p.pushed ++ [⟨p.recordLine, p.fields ++ [p.field]⟩] }
  else { p with line := p.line + 1 }.resetRecord

@[simp] lemma closeRecord_state (p : Parser) : p.closeRecord.state = .fieldStart := by
  unfold closeRecord
  split_ifs <;> rfl

@[simp] lemma closeRecord_pendingCr (p : Parser) : p.closeRecord.pendingCr = p.pendingCr := by
  unfold closeRecord
  split_ifs <;> rfl

@[simp] lemma closeRecord_atStart (p : Parser) : p.closeRecord.atStart = p.atStart := by
  unfold closeRecord
  split_ifs <;> rfl

/-- The answer of the parser at an error. -/
def fail {α : Type} (p : Parser) (code : CsvParseErrorCode) (message : JsString) (line : ℕ) :
    Except CsvFailure α :=
  .error ⟨⟨code, message, line⟩, p.pushed⟩

def append (c : CsvDialect) (p : Parser) (text : JsString) : Except CsvFailure Parser :=
  let p := { p with recordChars := p.recordChars + text.length }
  if c.maxRecordChars.exceeded p.recordChars then
    p.fail .recordTooLarge
      (units "Record exceeds the " ++ c.maxRecordChars.text ++ units " character limit")
      p.recordLine
  else .ok { p with field := p.field ++ text }

/-- The terminator at the head of the input, which is an LF or a CR. What is left of the
input is returned with the parser. -/
def terminate (p : Parser) : JsString → Parser × JsString
  | [] => (p, [])
  | char :: rest =>
    if char = lineFeed then (p.closeRecord, rest)
    else
      match rest with
      | [] => ({ p with pendingCr := true }, [])
      | next :: rest => (p.closeRecord, if next = lineFeed then rest else next :: rest)

def readFieldStart (c : CsvDialect) (p : Parser) : JsString → Parser × JsString
  | [] => (p, [])
  | char :: rest =>
    if char = c.quote then ({ p with recordTouched := true, state := .quoted }, rest)
    else ({ p with state := .unquoted }, char :: rest)

/-- A character that does not end an unquoted field. -/
def ordinary (c : CsvDialect) (char : UInt16) : Bool :=
  !(char = c.delimiter || char = lineFeed || char = carriageReturn)

/-- Appends a run of units, if there is one. -/
def appendRun (c : CsvDialect) (p : Parser) (run : JsString) : Except CsvFailure Parser :=
  if run = [] then .ok p else p.append c run

/-- What a run in an unquoted field stops at: the end of the chunk, a delimiter or a
terminator. -/
def endUnquoted (c : CsvDialect) (p : Parser) : JsString → Parser × JsString
  | [] => (p, [])
  | char :: rest =>
    if char = c.delimiter then ({ p with recordTouched := true }.closeField, rest)
    else p.terminate (char :: rest)

def readUnquoted (c : CsvDialect) (p : Parser) (input : JsString) :
    Except CsvFailure (Parser × JsString) := do
  let run := input.takeWhile (ordinary c)
  let p ← { p with recordTouched := p.recordTouched || !run.isEmpty }.appendRun c run
  .ok (p.endUnquoted c (input.dropWhile (ordinary c)))

/-- What a run in a quoted field stops at: the end of the chunk or a quote. -/
def endQuoted (p : Parser) : JsString → Parser × JsString
  | [] => (p, [])
  | _ :: rest => ({ p with state := .afterQuote }, rest)

def readQuoted (c : CsvDialect) (p : Parser) (input : JsString) :
    Except CsvFailure (Parser × JsString) := do
  let run := input.takeWhile (· ≠ c.quote)
  -- line breaks in a quoted field are content, and are counted as lines
  let p ← { p with line := p.line + run.count lineFeed }.appendRun c run
  .ok (p.endQuoted (input.dropWhile (· ≠ c.quote)))

/-- A unit after a closing quote that the grammar has no reading for. -/
def refuse {α : Type} (p : Parser) (char : UInt16) : Except CsvFailure α :=
  p.fail .invalidQuote
    (units "Unexpected " ++ JsString.jsonQuote [char] ++
      units (" after a closing quote; expected a delimiter, a line break, " ++
        "or an escaped quote"))
    p.line

def readAfterQuote (c : CsvDialect) (p : Parser) : JsString →
    Except CsvFailure (Parser × JsString)
  | [] => .ok (p, [])
  | char :: rest =>
    if char = c.quote then do
      let p ← append c p [c.quote]
      .ok ({ p with state := .quoted }, rest)
    else if char = c.delimiter then .ok ({ p.closeField with state := .fieldStart }, rest)
    else if char = lineFeed || char = carriageReturn then
      .ok ({ p with state := .fieldStart }.terminate (char :: rest))
    else p.refuse char

/-- The `switch` of the loop of `consume`. -/
def dispatch (c : CsvDialect) (p : Parser) (input : JsString) :
    Except CsvFailure (Parser × JsString) :=
  match p.state with
  | .fieldStart => .ok (p.readFieldStart c input)
  | .unquoted => p.readUnquoted c input
  | .quoted => p.readQuoted c input
  | .afterQuote => p.readAfterQuote c input

/-- One turn of the loop of `consume`, on an input that is not empty. A CR at the end of
the previous chunk is resolved first. -/
def turn (c : CsvDialect) (p : Parser) (char : UInt16) (rest : JsString) :
    Except CsvFailure (Parser × JsString) :=
  if p.pendingCr then
    let p := { p with pendingCr := false }.closeRecord
    if char = lineFeed then .ok (p, rest) else p.dispatch c (char :: rest)
  else p.dispatch c (char :: rest)

/-- Two for each unit left, and one where the next turn may read nothing. -/
def work (p : Parser) (input : JsString) : ℕ :=
  2 * input.length + if p.pendingCr = true ∨ p.state = .fieldStart then 1 else 0

lemma work_le (p : Parser) (input) : p.work input ≤ 2 * input.length + 1 := by
  unfold work
  split_ifs <;> omega

lemma terminate_length (p : Parser) (char) (rest : JsString) :
    (p.terminate (char :: rest)).2.length ≤ rest.length := by
  unfold terminate
  by_cases hlf : char = lineFeed
  · simp [hlf]
  · cases rest with
    | nil => simp [hlf]
    | cons next rest =>
      simp only
      split_ifs <;> simp

lemma endUnquoted_length {n input} (c) (p : Parser) (h : input.length ≤ n + 1) :
    (p.endUnquoted c input).2.length ≤ n := by
  cases input with
  | nil => simp [endUnquoted]
  | cons char rest =>
    have hterm := p.terminate_length char rest
    rw [List.length_cons] at h
    simp only [endUnquoted]
    split_ifs
    · show rest.length ≤ n
      omega
    · omega

lemma endQuoted_length {n input} (p : Parser) (h : input.length ≤ n + 1) :
    (p.endQuoted input).2.length ≤ n := by
  cases input with
  | nil => simp [endQuoted]
  | cons char rest => simpa [endQuoted] using h

variable {c : CsvDialect} {p q : Parser} {char : UInt16} {rest left : JsString}

lemma readAfterQuote_length (h : p.readAfterQuote c (char :: rest) = .ok (q, left)) :
    left.length ≤ rest.length := by
  simp only [readAfterQuote] at h
  split_ifs at h with hquote hdelim hbreak
  · obtain ⟨r, -, hleft⟩ := bind_eq_ok h
    simp only [Except.ok.injEq, Prod.mk.injEq] at hleft
    rw [hleft.2]
  · simp only [Except.ok.injEq, Prod.mk.injEq] at h
    rw [h.2]
  · have hterm := terminate_length { p with state := .fieldStart } char rest
    rw [Except.ok.injEq] at h
    rw [h] at hterm
    exact hterm
  · cases h

/-- A turn reads a unit, unless it opens an unquoted field. -/
lemma dispatch_cases (h : p.dispatch c (char :: rest) = .ok (q, left)) :
    left.length ≤ rest.length ∨
      p.state = .fieldStart ∧ q = { p with state := .unquoted } ∧ left = char :: rest := by
  have hsuf : ∀ stop : UInt16 → Bool, ((char :: rest).dropWhile stop).length ≤ rest.length + 1 :=
    fun stop => (List.dropWhile_suffix stop).length_le
  unfold dispatch at h
  cases hst : p.state with
  | fieldStart =>
    simp only [hst, readFieldStart, Except.ok.injEq] at h
    split_ifs at h with hquote
    · rw [Prod.mk.injEq] at h
      exact .inl (congrArg List.length h.2).ge
    · rw [Prod.mk.injEq] at h
      exact .inr ⟨rfl, h.1.symm, h.2.symm⟩
  | unquoted =>
    simp only [hst] at h
    obtain ⟨r, -, hleft⟩ := bind_eq_ok h
    have hlen := r.endUnquoted_length c (hsuf (ordinary c))
    rw [Except.ok.injEq] at hleft
    rw [hleft] at hlen
    exact .inl hlen
  | quoted =>
    simp only [hst] at h
    obtain ⟨r, -, hleft⟩ := bind_eq_ok h
    have hlen := r.endQuoted_length (hsuf (· ≠ c.quote))
    rw [Except.ok.injEq] at hleft
    rw [hleft] at hlen
    exact .inl hlen
  | afterQuote =>
    simp only [hst] at h
    exact .inl (readAfterQuote_length h)

lemma turn_work (h : p.turn c char rest = .ok (q, left)) : q.work left < p.work (char :: rest) := by
  have hread : left.length ≤ rest.length → q.work left < p.work (char :: rest) := by
    intro hlen
    have hwork := q.work_le left
    simp only [work, List.length_cons] at hwork ⊢
    omega
  unfold turn at h
  split_ifs at h with hpend hlf
  · rw [Except.ok.injEq, Prod.mk.injEq] at h
    exact hread (congrArg List.length h.2).ge
  · rcases dispatch_cases h with hlen | ⟨-, hq, hleft⟩
    · exact hread hlen
    · simp [work, hq, hleft, hpend]
  · rcases dispatch_cases h with hlen | ⟨hst, hq, hleft⟩
    · exact hread hlen
    · simp [work, hq, hleft, hpend, hst]

/-- The loop of `consume`. -/
def consumeLoop (c : CsvDialect) (p : Parser) : JsString → Except CsvFailure Parser
  | [] => .ok p
  | char :: rest =>
    match _h : p.turn c char rest with
    | .error failure => .error failure
    | .ok (q, left) => consumeLoop c q left
termination_by input => p.work input
decreasing_by exact turn_work _h

def consume (c : CsvDialect) (p : Parser) (text : JsString) : Except CsvFailure Parser :=
  match text with
  | [] => .ok p
  | first :: rest =>
    if p.atStart then
      consumeLoop c { p with atStart := false }
        (if first = byteOrderMark then rest else first :: rest)
    else consumeLoop c p text

/-- `_flush` after the last text of the decoder: the records of the whole document. -/
def flush (p : Parser) : Except CsvFailure (List CsvRecord) :=
  let p := if p.pendingCr then { p with pendingCr := false }.closeRecord else p
  if p.state = .quoted then
    p.fail .unterminatedQuote (units "Quoted field is not closed before the end of the input")
      p.recordLine
  else .ok (if p.recordTouched then p.closeRecord else p).pushed

end Parser

/-- Node's `StringDecoder`. It returns the text that is complete so far and keeps the bytes
of an unfinished character. -/
structure StringDecoder where
  Held : Type
  start : Held
  write : Held → Bytes → JsString × Held
  finish : Held → JsString

namespace StringDecoder

def textsFrom (d : StringDecoder) (held : d.Held) : List Bytes → List JsString
  | [] => [d.finish held]
  | chunk :: chunks => (d.write held chunk).1 :: d.textsFrom (d.write held chunk).2 chunks

/-- The texts `consume` is called with, the one of `end` included. -/
def texts (d : StringDecoder) (chunks : List Bytes) : List JsString := d.textsFrom d.start chunks

/-- The decoder puts the text of the whole input together, and reads UTF-8. -/
structure Reassembles (d : StringDecoder) (decode : Bytes → JsString) : Prop where
  whole : ∀ chunks : List Bytes, (d.texts chunks).flatten = decode chunks.flatten
  utf8 : ∀ s : JsString, s.wellFormed = true → decode s.utf8 = s

end StringDecoder

/-- A document given as the texts of its chunks. -/
def CsvDialect.parseTexts (c : CsvDialect) (texts : List JsString) :
    Except CsvFailure (List CsvRecord) := do
  let p ← texts.foldlM (Parser.consume c) {}
  p.flush

/-- A document given as the chunks the stream is written to with. -/
def CsvDialect.parse (c : CsvDialect) (d : StringDecoder) (chunks : List Bytes) :
    Except CsvFailure (List CsvRecord) :=
  c.parseTexts (d.texts chunks)

end BoilerplateExpress.Streams

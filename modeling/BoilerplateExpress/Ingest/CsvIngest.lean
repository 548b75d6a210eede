import BoilerplateExpress.Machine
import BoilerplateExpress.OrderedMap
import BoilerplateExpress.Streams.CsvChunking

/-!
# Streaming CSV ingest

`ingestCsv` of `ingest/csv-ingest.ts` with its stages: `limitBytes`, `CsvParser`,
`createRecordMapper`, `batchObjects` and the asynchronous sink.

Reading and writing interleave: the stages before the sink take the next chunk at any time, the
sink takes the next batch when it has none and sends the statements of a batch one after another.
A run may fail at every point, which does not stop a write that is going on. The schema, the
lower-casing of strings, the decoder and the statements of a write are parameters.
-/
namespace BoilerplateExpress.Ingest

open Streams EventStream

structure ColumnSpec where
  name : JsString
  required : Bool
  deriving DecidableEq, Repr

/-- Which field index each accepted column was found at. -/
abbrev HeaderBinding := OrderedMap JsString ℕ

def normaliseHeaderName (toLowerCase : JsString → JsString) (raw : JsString) : JsString :=
  toLowerCase raw.trim

def headerInvalid {α : Type} (message : JsString) (line : ℕ) : Except CsvParseError α :=
  .error ⟨.headerInvalid, message, line⟩

def commaSeparated (names : List JsString) : JsString := (units ", ").intercalate names

/-- One field of the header: bound, or put with the unknown ones. -/
def bindField (toLowerCase : JsString → JsString) (columns : List ColumnSpec) (line : ℕ)
    (found : HeaderBinding × List JsString) (field : JsString × ℕ) :
    Except CsvParseError (HeaderBinding × List JsString) :=
  let name := normaliseHeaderName toLowerCase field.1
  if !(columns.map ColumnSpec.name).contains name then .ok (found.1, found.2 ++ [field.1])
  else if found.1.has name then
    headerInvalid (units "Column \"" ++ name ++ units "\" appears more than once in the header") line
  else .ok (found.1.set name field.2, found.2)

def bindHeader (toLowerCase : JsString → JsString) (record : CsvRecord)
    (columns : List ColumnSpec) : Except CsvParseError HeaderBinding := do
  let found ← record.fields.zipIdx.foldlM (bindField toLowerCase columns record.line)
    (OrderedMap.empty, [])
  if found.2 ≠ [] then
    headerInvalid
      (units "Unrecognised " ++ units (if found.2.length = 1 then "column" else "columns") ++
        units " in the header: " ++ commaSeparated (found.2.map JsString.jsonQuote) ++
        units ". Expected: " ++ commaSeparated (columns.map ColumnSpec.name))
      record.line
  else
    let missing := columns.filter (fun column => column.required && !found.1.has column.name)
    if missing ≠ [] then
      headerInvalid
        (units "Missing required " ++ units (if missing.length = 1 then "column" else "columns") ++
          units ": " ++ commaSeparated (missing.map ColumnSpec.name))
        record.line
    else .ok found.1

structure RowError where
  line : ℕ
  column : Option JsString
  message : JsString
  deriving DecidableEq, Repr

structure RowErrorSink where
  maxReported : ℕ
  collected : List RowError := []
  count : ℕ := 0
  deriving DecidableEq, Repr

namespace RowErrorSink

def record (sink : RowErrorSink) (error : RowError) : RowErrorSink :=
  { sink with
    count := sink.count + 1
    collected :=
      if sink.collected.length < sink.maxReported then sink.collected ++ [error]
      else sink.collected }

def rejected (sink : RowErrorSink) : ℕ := sink.count

def errors (sink : RowErrorSink) : List RowError := sink.collected

def truncated (sink : RowErrorSink) : Bool := decide (sink.collected.length < sink.count)

end RowErrorSink

inductive PathKey where
  | name (key : JsString)
  | index (n : ℕ)
  deriving DecidableEq, Repr

structure Issue where
  path : List PathKey
  message : JsString
  deriving DecidableEq, Repr

/-- `safeParse` of a row schema: its data, where `none` is `null` or `undefined`, or the
issues of a row that does not validate. Zod reports at least one. -/
abbrev Schema (T : Type) :=
  List (JsString × JsString) → Except { issues : List Issue // issues ≠ [] } (Option T)

structure Settings (T : Type) where
  columns : List ColumnSpec
  schema : Schema T
  toLowerCase : JsString → JsString
  dialect : CsvDialect
  batchSize : ℕ
  maxBytes : ℕ
  maxReported : ℕ
  batchSize_pos : 0 < batchSize

structure CsvIngestOptions (T : Type) where
  columns : List ColumnSpec
  schema : Schema T
  batchSize : ℚ
  maxBytes : ℚ
  maxRecordChars : Option Limit := none
  maxReportedErrors : Option ℚ := none
  delimiter : Option JsString := none

/-- The text of the `RangeError` of an argument check, with the number received. -/
inductive Refusal where
  | range (error : RangeError)
  | parser (message : String)
  deriving DecidableEq, Repr

/-- The checks of the constructors, in the order in which `ingestCsv` calls them. -/
def CsvIngestOptions.check {T : Type} (toLowerCase : JsString → JsString)
    (options : CsvIngestOptions T) : Except Refusal (Settings T) := do
  let integer (message : String) (least : ℕ) (value : ℚ) :=
    (checkInteger (message ++ " integer, received ") least value).mapError Refusal.range
  let maxReported ← integer "RowErrorSink: maxReported must be a non-negative" 0
    (options.maxReportedErrors.getD 100)
  let maxBytes ← integer "limitBytes: maxBytes must be a positive" 1 options.maxBytes
  let parser := { delimiter := options.delimiter, maxRecordChars := options.maxRecordChars }
  let dialect ← (CsvParserOptions.check parser).mapError .parser
  let ⟨batchSize, batchSize_pos⟩ ← integer "batchObjects: size must be a positive" 1 options.batchSize
  return { columns := options.columns, schema := options.schema, toLowerCase, dialect
           batchSize, batchSize_pos, maxBytes := maxBytes.1, maxReported := maxReported.1 }

/-- What becomes of a data record. -/
inductive Verdict (T : Type) where
  | refused (errors : List RowError)
  | accepted (data : Option T)

def Verdict.errors {T : Type} : Verdict T → List RowError
  | .refused errors => errors
  | .accepted _ => []

/-- The row that is passed on; a stream passes on neither `null` nor `undefined`. -/
def Verdict.row {T : Type} : Verdict T → Option T
  | .refused _ => none
  | .accepted data => data

def issueColumn (issue : Issue) : Option JsString :=
  match issue.path.head? with
  | some (.name key) => some key
  | _ => none

/-- The raw fields of a row under the names of their columns. -/
def rawFields (binding : HeaderBinding) (record : CsvRecord) : List (JsString × JsString) :=
  binding.entries.map (fun entry => (entry.1, record.fields[entry.2]?.getD []))

/-- A data record: its width is checked, then its fields are validated. -/
def verdict {T : Type} (settings : Settings T) (binding : HeaderBinding) (headerWidth : ℕ)
    (record : CsvRecord) : Verdict T :=
  if record.fields.length ≠ headerWidth then
    .refused
      [{ line := record.line
         column := none
         message := units "Expected " ++ JsString.natUnits headerWidth ++
           units " fields to match the header, found " ++ JsString.natUnits record.fields.length }]
  else
    match settings.schema (rawFields binding record) with
    | .error issues =>
      .refused (issues.val.map (fun issue => ⟨record.line, issueColumn issue, issue.message⟩))
    | .ok data => .accepted data

/-- The state of the record mapper and of the batcher after it. -/
structure Rows (T : Type) where
  /-- The binding of the header and its width, once the header was read. -/
  header : Option (HeaderBinding × ℕ) := none
  sink : RowErrorSink
  recordsRead : ℕ := 0
  batch : List T := []
  /-- The batches handed to the sink stream so far. -/
  pushed : List (List T) := []

namespace Rows

variable {T : Type}

/-- `transform` of the batcher. -/
def pushRow (size : ℕ) (rows : Rows T) (row : T) : Rows T :=
  if (rows.batch ++ [row]).length < size then { rows with batch := rows.batch ++ [row] }
  else { rows with batch := [], pushed := rows.pushed ++ [rows.batch ++ [row]] }

/-- `flush` of the batcher. -/
def flush (rows : Rows T) : Rows T :=
  if rows.batch.length = 0 then rows
  else { rows with batch := [], pushed := rows.pushed ++ [rows.batch] }

/-- What the callback of `transform` is given; neither `null` nor `undefined` is pushed. -/
def pushData (size : ℕ) (rows : Rows T) : Option T → Rows T
  | none => rows
  | some row => rows.pushRow size row

/-- A data record that was read under the header. -/
def readRecord (settings : Settings T) (binding : HeaderBinding) (headerWidth : ℕ)
    (rows : Rows T) (record : CsvRecord) : Rows T :=
  let v := verdict settings binding headerWidth record
  { rows with
    recordsRead := rows.recordsRead + 1
    sink := v.errors.foldl RowErrorSink.record rows.sink }.pushData settings.batchSize v.row

/-- `transform` of the record mapper: the first record is the header. -/
def transform (settings : Settings T) (rows : Rows T) (record : CsvRecord) :
    Except CsvParseError (Rows T) :=
  match rows.header with
  | none => do
    let binding ← bindHeader settings.toLowerCase record settings.columns
    .ok { rows with header := some (binding, record.fields.length) }
  | some (binding, headerWidth) => .ok (rows.readRecord settings binding headerWidth record)

end Rows

inductive IngestError where
  | parse (error : CsvParseError)
  | payloadTooLarge (limitBytes receivedBytes : ℕ)
  deriving DecidableEq, Repr

/-- The stages before the sink. -/
structure Reader (T : Type) (d : StringDecoder) where
  seen : ℕ := 0
  held : d.Held := d.start
  parser : Parser := {}
  rows : Rows T

namespace Reader

variable {T : Type} {d : StringDecoder}

def start (settings : Settings T) : Reader T d := { rows := { sink := ⟨settings.maxReported, [], 0⟩ } }

/-- Passes on the records the parser pushed since the last call. -/
def passOn (settings : Settings T) (r : Reader T d) (pushed : List CsvRecord) :
    Except IngestError (Rows T) :=
  ((pushed.drop r.parser.pushed.length).foldlM (Rows.transform settings) r.rows).mapError .parse

def consume (settings : Settings T) (r : Reader T d) (text : JsString) :
    Except IngestError (Reader T d) := do
  let p ← (r.parser.consume settings.dialect text).mapError (fun failure => .parse failure.error)
  let rows ← r.passOn settings p.pushed
  .ok { r with parser := p, rows := rows }

/-- One chunk through every stage. -/
def chunk (settings : Settings T) (r : Reader T d) (bytes : Bytes) :
    Except IngestError (Reader T d) :=
  let seen := r.seen + bytes.length
  if settings.maxBytes < seen then .error (.payloadTooLarge settings.maxBytes seen)
  else
    let written := d.write r.held bytes
    { r with seen := seen, held := written.2 }.consume settings written.1

/-- The end of the input through every stage. -/
def finish (settings : Settings T) (r : Reader T d) : Except IngestError (Reader T d) := do
  let r ← r.consume settings (d.finish r.held)
  let records ← r.parser.flush.mapError (fun failure => .parse failure.error)
  let rows ← r.passOn settings records
  .ok { r with rows := rows.flush }

end Reader

/-- A `write` as the statements it sends one after another. A statement that does not throw
reports how many rows it wrote. -/
structure Writer (T S σ : Type) where
  statements : List T → List S
  run : σ → S → Option (ℕ × σ)

inductive Status where
  | running
  | rejected
  | resolved
  deriving DecidableEq

/-- A run of `ingestCsv` on the chunks of a document. -/
structure Run (T S σ : Type) (d : StringDecoder) where
  unread : List Bytes
  reader : Reader T d
  /-- The end of the input has passed through every stage. -/
  ended : Bool := false
  /-- How many of the pushed batches the sink has taken. -/
  taken : ℕ := 0
  /-- The write in progress: the rows it has written and the statements it has left. -/
  writing : Option (ℕ × List S) := none
  accepted : ℕ := 0
  written : ℕ := 0
  database : σ
  /-- The statements the database has executed for this run, in order. -/
  executed : List S := []
  status : Status := .running

inductive Action where
  /-- The stages before the sink take the next chunk, or the end of the input. -/
  | read
  /-- The sink calls `write` with the next batch. -/
  | take
  /-- The next statement of the write is executed. -/
  | execute
  /-- The next statement of the write is refused. -/
  | refuse
  /-- `write` has resolved. -/
  | settle
  /-- The run fails: the connection is lost, a stream is destroyed. -/
  | abort
  /-- The pipeline is done. -/
  | resolve
  deriving DecidableEq

namespace Run

variable {T S σ : Type} {d : StringDecoder}

def start (settings : Settings T) (chunks : List Bytes) (database : σ) : Run T S σ d :=
  { unread := chunks, reader := Reader.start settings, database }

def reject (s : Run T S σ d) : Run T S σ d := { s with status := .rejected }

/-- What the stages answer to the next chunk, or to the end of the input. -/
def advance (settings : Settings T) (s : Run T S σ d) : Except IngestError (Run T S σ d) :=
  match s.unread with
  | bytes :: rest => do
    let reader ← s.reader.chunk settings bytes
    .ok { s with reader := reader, unread := rest }
  | [] => do
    let reader ← s.reader.finish settings
    .ok { s with reader := reader, ended := true }

def step (settings : Settings T) (writer : Writer T S σ) (s : Run T S σ d) :
    Action → Option (Run T S σ d)
  | .read =>
    if s.status = .running ∧ s.ended = false then
      match s.advance settings with
      | .ok t => some t
      | .error _ => some s.reject
    else none
  | .take =>
    match s.writing, s.reader.rows.pushed[s.taken]? with
    | none, some batch =>
      if s.status = .running then
        some
          { s with
            taken := s.taken + 1
            accepted := s.accepted + batch.length
            writing := some (0, writer.statements batch) }
      else none
    | _, _ => none
  | .execute =>
    match s.writing with
    | some (count, statement :: rest) =>
      match writer.run s.database statement with
      | some (rows, database) =>
        some
          { s with
            database := database
            executed := s.executed ++ [statement]
            writing := some (count + rows, rest) }
      | none => some { s.reject with writing := none }
    | _ => none
  | .refuse =>
    match s.writing with
    | some (_, _ :: _) => some { s.reject with writing := none }
    | _ => none
  | .settle =>
    match s.writing with
    | some (count, []) =>
      if s.status = .running then some { s with written := s.written + count, writing := none }
      else none
    | _ => none
  | .abort => if s.status = .running then some s.reject else none
  | .resolve =>
    if s.status = .running ∧ s.ended = true ∧ s.writing = none ∧
        s.taken = s.reader.rows.pushed.length then
      some { s with status := .resolved }
    else none

end Run

structure IngestSummary where
  recordsRead : ℕ
  accepted : ℕ
  written : ℕ
  rejected : ℕ
  errors : List RowError
  errorsTruncated : Bool
  deriving DecidableEq, Repr

/-- What a resolved run answers. -/
def Run.summary {T S σ : Type} {d : StringDecoder} (s : Run T S σ d) : IngestSummary where
  recordsRead := s.reader.rows.recordsRead
  accepted := s.accepted
  written := s.written
  rejected := s.reader.rows.sink.rejected
  errors := s.reader.rows.sink.errors
  errorsTruncated := s.reader.rows.sink.truncated

end BoilerplateExpress.Ingest

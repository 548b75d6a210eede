import BoilerplateExpress.Errors
import BoilerplateExpress.EventStream

/-!
# Frames of an event stream

`encodeFrame`, `encodeComment` and `encodeRetry` of `sse/frame.ts`, and what a client reads
from what they write.
-/
namespace BoilerplateExpress.Sse

open EventStream
open List

inductive SseError where
  | range (error : RangeError)
  /-- A `RangeError` about a text. -/
  | text (message : Text)
  /-- A method of `undefined` is called. -/
  | typeError
  deriving DecidableEq, Repr

/-- `Number::toString` of an integer from 10²¹ on has an exponent. -/
structure NumberText where
  exponential : ℕ → JsString
  oneLine : ∀ n, OneLine (exponential n)

def NumberText.natural (number : NumberText) (n : ℕ) : JsString :=
  if n < 10 ^ 21 then JsString.natUnits n else number.exponential n

def maxFieldLength : ℕ := 256

structure SseFrame where
  id : Option JsString
  event : Option JsString
  data : JsString

/-- `LINE_TERMINATOR.test`. -/
def hasLineBreak (value : JsString) : Bool := value.any (fun u => u = lineFeed || u = carriageReturn)

def rejectFieldValue (field : Text) (value : JsString) : Except SseError Unit :=
  if hasLineBreak value then
    .error (.text ("encodeFrame: \"".toList ++ field ++ ("\" may not contain a line break — the " ++
      "format has no escape for one, so the value would end the field and the remainder would be " ++
      "parsed as further fields").toList))
  else if 0 ∈ value then
    .error (.text ("encodeFrame: \"".toList ++ field ++ ("\" may not contain U+0000 — a client " ++
      "silently discards the field rather than failing, so the effect is a cursor that never " ++
      "advances").toList))
  else if value.length > maxFieldLength then
    .error (.text ("encodeFrame: \"".toList ++ field ++ "\" is ".toList ++
      Text.natToText value.length ++ " characters, above the ".toList ++
      Text.natToText maxFieldLength ++ " limit".toList))
  else .ok ()

/-- `replace(LINE_TERMINATOR_GLOBAL, '\n')`. -/
def normaliseFrom : Bool → JsString → JsString
  | _, [] => []
  | afterCr, u :: rest =>
    if u = lineFeed then
      if afterCr then normaliseFrom false rest else lineFeed :: normaliseFrom false rest
    else if u = carriageReturn then lineFeed :: normaliseFrom true rest
    else u :: normaliseFrom false rest

def normalise (data : JsString) : JsString := normaliseFrom false data

def idLine (frame : SseFrame) : Except SseError (List JsString) :=
  match frame.id with
  | none => .ok []
  | some id => do
    rejectFieldValue "id".toList id
    .ok [units "id: " ++ id]

def eventLine (frame : SseFrame) : Except SseError (List JsString) :=
  match frame.event with
  | none => .ok []
  | some event => do
    rejectFieldValue "event".toList event
    if event = [] then
      .error (.text
        "encodeFrame: \"event\" may not be empty — omit it to dispatch as `message`".toList)
    else .ok [units "event: " ++ event]

def encodeFrame (frame : SseFrame) : Except SseError JsString := do
  let id ← idLine frame
  let event ← eventLine frame
  let data := ((normalise frame.data).splitOn lineFeed).map (units "data: " ++ ·)
  .ok ([lineFeed].intercalate (id ++ event ++ data) ++ [lineFeed, lineFeed])

def encodeComment (text : JsString) : Except SseError JsString :=
  if hasLineBreak text then
    .error (.text "encodeComment: text may not contain a line break".toList)
  else .ok (units ": " ++ text ++ [lineFeed, lineFeed])

def encodeRetry (number : NumberText) (delayMs : ℚ) : Except SseError JsString :=
  if delayMs.den ≠ 1 ∨ delayMs < 0 then
    .error (.range
      ⟨"encodeRetry: delay must be a non-negative integer number of milliseconds, received ", delayMs⟩)
  else .ok (units "retry: " ++ number.natural delayMs.num.toNat ++ [lineFeed, lineFeed])

/-- What a server writes to a stream. -/
inductive StreamItem where
  | frame (frame : SseFrame)
  | comment (text : JsString)
  | retry (delayMs : ℚ)

def StreamItem.encode (number : NumberText) : StreamItem → Except SseError JsString
  | .frame f => encodeFrame f
  | .comment text => encodeComment text
  | .retry delayMs => encodeRetry number delayMs

/-- Everything that is written, in order. -/
def encodeAll (number : NumberText) : List StreamItem → Except SseError JsString
  | [] => .ok []
  | item :: rest => do
    let first ← item.encode number
    let others ← encodeAll number rest
    .ok (first ++ others)

/-- The events a client is meant to see: an event without an id keeps the id before it. -/
def intended : JsString → List StreamItem → List Event
  | _, [] => []
  | lastEventId, .frame frame :: rest =>
    let id := frame.id.getD lastEventId
    ⟨frame.event.getD (units "message"), normalise frame.data, id⟩ :: intended id rest
  | lastEventId, .comment _ :: rest => intended lastEventId rest
  | lastEventId, .retry _ :: rest => intended lastEventId rest

lemma hasLineBreak_eq_false {value} (h : hasLineBreak value = false) : OneLine value := by
  intro u hu
  have hunit := any_eq_false.mp h u hu
  simpa using hunit

lemma rejectFieldValue_eq_ok {field value} (h : rejectFieldValue field value = .ok ()) :
    OneLine value ∧ 0 ∉ value := by
  unfold rejectFieldValue at h
  split_ifs at h with hbreak hnul hlong
  exact ⟨hasLineBreak_eq_false (by simpa using hbreak), hnul⟩

lemma oneLine_normaliseFrom (afterCr data) : carriageReturn ∉ normaliseFrom afterCr data := by
  induction data generalizing afterCr with
  | nil => simp [normaliseFrom]
  | cons u data ih =>
    unfold normaliseFrom
    split_ifs with hlf haft hcr
    · exact ih false
    · simpa [lineFeed, carriageReturn] using ih false
    · simpa [lineFeed, carriageReturn] using ih true
    · simpa [Ne.symm hcr] using ih false

/-- The parts of the data between line feeds. -/
def dataParts (frame : SseFrame) : List JsString := (normalise frame.data).splitOn lineFeed

lemma dataParts_ne_nil (frame) : dataParts frame ≠ [] := splitOnP_ne_nil _ _

lemma intercalate_dataParts (frame) :
    [lineFeed].intercalate (dataParts frame) = normalise frame.data := intercalate_splitOn _

lemma oneLine_dataParts {frame} : ∀ part ∈ dataParts frame, OneLine part := by
  intro part hpart u hu
  obtain ⟨hmem, hlf⟩ := mem_splitOn_lineFeed hpart u hu
  refine ⟨hlf, ?_⟩
  rintro rfl
  exact oneLine_normaliseFrom false frame.data hmem

variable {frame : SseFrame}

lemma idLine_spec {ls} (h : idLine frame = .ok ls) :
    (∀ line ∈ ls, OneLine line) ∧ ∀ b rest, parseLines b (ls ++ rest) =
      parseLines { b with lastEventId := frame.id.getD b.lastEventId } rest := by
  unfold idLine at h
  split at h
  · next hid =>
      cases h
      rw [hid]
      exact ⟨nofun, fun _ _ => rfl⟩
  · next id hid =>
      obtain ⟨_, hvalue, hls⟩ := bind_eq_ok h
      cases hls
      obtain ⟨hline, hnul⟩ := rejectFieldValue_eq_ok hvalue
      constructor
      · intro line hmem
        rw [mem_singleton.mp hmem, oneLine_append]
        exact ⟨hasLineBreak_eq_false (by decide), hline⟩
      · intro b rest
        have hfield : processLine b (units "id: " ++ id) = ({ b with lastEventId := id }, none) := by
          have hproc := processLine_field b (units "id") id (by decide) (by decide)
          rw [processField, if_neg (by decide), if_neg (by decide), if_pos rfl, if_neg hnul]
            at hproc
          exact hproc
        rw [singleton_append, parseLines_silent hfield, hid]
        rfl

lemma eventLine_spec {ls} (h : eventLine frame = .ok ls) :
    (∀ line ∈ ls, OneLine line) ∧ frame.event ≠ some [] ∧ ∀ b rest, parseLines b (ls ++ rest) =
      parseLines { b with eventType := frame.event.getD b.eventType } rest := by
  unfold eventLine at h
  split at h
  · next hevent =>
      cases h
      rw [hevent]
      exact ⟨nofun, nofun, fun _ _ => rfl⟩
  · next event hevent =>
      obtain ⟨_, hvalue, hls⟩ := bind_eq_ok h
      split_ifs at hls with hemp
      cases hls
      obtain ⟨hline, _⟩ := rejectFieldValue_eq_ok hvalue
      rw [hevent]
      refine ⟨?_, fun heq => hemp (Option.some.inj heq), ?_⟩
      · intro line hmem
        rw [mem_singleton.mp hmem, oneLine_append]
        exact ⟨hasLineBreak_eq_false (by decide), hline⟩
      · intro b rest
        have hfield : processLine b (units "event: " ++ event) =
            ({ b with eventType := event }, none) :=
          processLine_field b (units "event") event (by decide) (by decide)
        rw [singleton_append, parseLines, hfield]
        rfl

/-- The buffers between two items: nothing is pending. -/
structure Idle (b : Buffers) (lastEventId : JsString) : Prop where
  data : b.data = []
  eventType : b.eventType = []
  lastEventId : b.lastEventId = lastEventId

variable {output : JsString}

lemma encodeFrame_eq_ok (h : encodeFrame frame = .ok output) :
    ∃ id event, idLine frame = .ok id ∧ eventLine frame = .ok event ∧
      output = (id ++ event ++ (dataParts frame).map dataLine).flatMap (· ++ [lineFeed]) ++
        [lineFeed] := by
  obtain ⟨id, hid, h⟩ := bind_eq_ok h
  obtain ⟨event, hevent, h⟩ := bind_eq_ok h
  refine ⟨id, event, hid, hevent, ?_⟩
  have hne : id ++ event ++ (dataParts frame).map dataLine ≠ [] := by simp [dataParts_ne_nil]
  rw [← intercalate_append_lineFeed hne, append_assoc _ [lineFeed]]
  exact (Except.ok.inj h).symm

variable {b : Buffers} {lastEventId : JsString}

/-- A frame dispatches its own event and leaves nothing pending. -/
lemma parse_encodeFrame (h : encodeFrame frame = .ok output) (hb : Idle b lastEventId) (rest) :
    ∃ b', Idle b' (frame.id.getD lastEventId) ∧ parseLines b (lines (output ++ rest)) =
      ⟨frame.event.getD (units "message"), normalise frame.data, frame.id.getD lastEventId⟩ ::
        parseLines b' (lines rest) := by
  obtain ⟨id, event, hid, hevent, rfl⟩ := encodeFrame_eq_ok h
  obtain ⟨hidL, hidP⟩ := idLine_spec hid
  obtain ⟨heventL, hnamed, heven⟩ := eventLine_spec hevent
  have hdat : ∀ line ∈ (dataParts frame).map dataLine, OneLine line := by
    intro line hline
    obtain ⟨part, hpart, rfl⟩ := mem_map.mp hline
    have hsplit : dataLine part = units "data: " ++ part := rfl
    rw [hsplit, oneLine_append]
    exact ⟨hasLineBreak_eq_false (by decide), oneLine_dataParts part hpart⟩
  have hone : ∀ line ∈ id ++ event ++ (dataParts frame).map dataLine, OneLine line := by
    intro line hline
    simp only [mem_append] at hline
    rcases hline with (hline | hline) | hline
    · exact hidL line hline
    · exact heventL line hline
    · exact hdat line hline
  have hend : lines ([lineFeed] ++ rest) = [] :: lines rest := lines_append [] rest nofun
  rw [append_assoc, lines_flatMap _ _ hone, hend, append_assoc, append_assoc,
    hidP, heven, parseLines_dataLines, parseLines, processLine, if_pos rfl,
    dispatch_data _ (dataParts frame) (dataParts_ne_nil frame) (by rw [hb.data]; rfl),
    intercalate_dataParts]
  have htype : (if frame.event.getD b.eventType = [] then units "message"
      else frame.event.getD b.eventType) = frame.event.getD (units "message") := by
    cases hname : frame.event with
    | none => simp [hb.eventType]
    | some name =>
      have hne : name ≠ [] := fun heq => hnamed (by rw [hname, heq])
      simp [hne]
  refine ⟨{ b with data := [], eventType := [], lastEventId := frame.id.getD b.lastEventId },
    ⟨rfl, rfl, ?_⟩, ?_⟩
  · exact congrArg frame.id.getD hb.lastEventId
  · rw [← hb.lastEventId, ← htype]
    rfl

lemma parse_encodeComment {text} (h : encodeComment text = .ok output) (hb : Idle b lastEventId)
    (rest) : parseLines b (lines (output ++ rest)) = parseLines b (lines rest) := by
  unfold encodeComment at h
  split_ifs at h with hbreak
  cases h
  have hline : OneLine (units ": " ++ text) :=
    oneLine_append.mpr ⟨hasLineBreak_eq_false (by decide), hasLineBreak_eq_false (by simpa using hbreak)⟩
  have hlines : lines ((units ": " ++ text ++ [lineFeed, lineFeed]) ++ rest) =
      (units ": " ++ text) :: [] :: lines rest := by
    rw [append_assoc]
    exact (lines_append _ _ hline).trans (congrArg _ (lines_append [] rest nofun))
  have hcom : processLine b (units ": " ++ text) = (b, none) :=
    processLine_comment b (space :: text)
  rw [hlines, parseLines_silent hcom, parseLines_silent (processLine_nil hb.data hb.eventType)]

lemma oneLine_natural (number : NumberText) (n) : OneLine (number.natural n) := by
  unfold NumberText.natural
  split_ifs
  · exact oneLine_natUnits n
  · exact number.oneLine n

variable {number : NumberText}

/-- A reconnection delay dispatches nothing, whether the client understands it or not. -/
lemma parse_encodeRetry {delayMs} (h : encodeRetry number delayMs = .ok output)
    (hb : Idle b lastEventId) (rest) :
    ∃ b', Idle b' lastEventId ∧
      parseLines b (lines (output ++ rest)) = parseLines b' (lines rest) := by
  unfold encodeRetry at h
  split_ifs at h
  cases h
  let value := number.natural delayMs.num.toNat
  have hline : OneLine (units "retry: " ++ value) :=
    oneLine_append.mpr ⟨hasLineBreak_eq_false (by decide), oneLine_natural number _⟩
  have hlines : lines ((units "retry: " ++ value ++ [lineFeed, lineFeed]) ++ rest) =
      (units "retry: " ++ value) :: [] :: lines rest := by
    rw [append_assoc]
    exact (lines_append _ _ hline).trans (congrArg _ (lines_append [] rest nofun))
  have hfield : processLine b (units "retry: " ++ value) =
      (processField b (units "retry") value, none) :=
    processLine_field b (units "retry") value (by decide) (by decide)
  have hidle : Idle (processField b (units "retry") value) lastEventId := by
    rw [processField, if_neg (by decide), if_neg (by decide), if_neg (by decide), if_pos rfl]
    split_ifs
    · exact ⟨hb.data, hb.eventType, hb.lastEventId⟩
    · exact hb
  refine ⟨_, hidle, ?_⟩
  rw [hlines, parseLines_silent hfield, parseLines_silent (processLine_nil hidle.data hidle.eventType)]

/-- Everything written to a stream is read as the events it was made from. -/
lemma parseLines_encodeAll (number items output) (h : encodeAll number items = .ok output)
    (hb : Idle b lastEventId) : parseLines b (lines output) = intended lastEventId items := by
  induction items generalizing b lastEventId output with
  | nil =>
    cases h
    rfl
  | cons item items ih =>
    obtain ⟨first, hfst, h⟩ := bind_eq_ok h
    obtain ⟨others, hoth, h⟩ := bind_eq_ok h
    cases h
    cases item with
    | frame f =>
      obtain ⟨b', hb', hpar⟩ := parse_encodeFrame hfst hb others
      rw [hpar, ih others hoth hb']
      rfl
    | comment text =>
      rw [parse_encodeComment hfst hb others]
      exact ih others hoth hb
    | retry delayMs =>
      obtain ⟨b', hb', hpar⟩ := parse_encodeRetry hfst hb others
      rw [hpar]
      exact ih others hoth hb'

/-- No line of a frame starts with a byte order mark. -/
lemma head_encodeFrame (h : encodeFrame frame = .ok output) :
    ∃ u rest, output = u :: rest ∧ u ≠ byteOrderMark := by
  obtain ⟨id, event, hid, hevent, rfl⟩ := encodeFrame_eq_ok h
  have hidH : ∀ line ∈ id, line.head? = some 105 := by
    unfold idLine at hid
    split at hid
    · cases hid
      exact nofun
    · obtain ⟨_, _, hid⟩ := bind_eq_ok hid
      cases hid
      intro line hline
      rw [mem_singleton.mp hline]
      rfl
  have heven : ∀ line ∈ event, line.head? = some 101 := by
    unfold eventLine at hevent
    split at hevent
    · cases hevent
      exact nofun
    · obtain ⟨_, _, hevent⟩ := bind_eq_ok hevent
      split_ifs at hevent
      cases hevent
      intro line hline
      rw [mem_singleton.mp hline]
      rfl
  have hheads : ∀ line ∈ id ++ event ++ (dataParts frame).map dataLine,
      ∃ u rest, line = u :: rest ∧ u ≠ byteOrderMark := by
    intro line hline
    simp only [mem_append, mem_map] at hline
    rcases hline with (hline | hline) | ⟨part, _, rfl⟩
    · obtain ⟨rest, hrest⟩ := head?_eq_some_iff.mp (hidH line hline)
      exact ⟨105, rest, hrest, by decide⟩
    · obtain ⟨rest, hrest⟩ := head?_eq_some_iff.mp (heven line hline)
      exact ⟨101, rest, hrest, by decide⟩
    · exact ⟨100, _, rfl, by decide⟩
  obtain ⟨first, others, hlines⟩ : ∃ first others,
      id ++ event ++ (dataParts frame).map dataLine = first :: others :=
    exists_cons_of_ne_nil (by simp [dataParts_ne_nil])
  obtain ⟨u, rest, rfl, hu⟩ := hheads first (by rw [hlines]; exact mem_cons_self)
  rw [hlines]
  exact ⟨u, _, rfl, hu⟩

lemma head_encode {item : StreamItem} (h : item.encode number = .ok output) :
    ∃ u rest, output = u :: rest ∧ u ≠ byteOrderMark := by
  cases item with
  | frame f => exact head_encodeFrame h
  | comment text =>
    simp only [StreamItem.encode, encodeComment] at h
    split_ifs at h
    cases h
    exact ⟨58, _, rfl, by decide⟩
  | retry delayMs =>
    simp only [StreamItem.encode, encodeRetry] at h
    split_ifs at h
    cases h
    exact ⟨114, _, rfl, by decide⟩

lemma dropMark_encodeAll {items} (h : encodeAll number items = .ok output) : dropMark output =
    output := by
  cases items with
  | nil =>
    cases h
    rfl
  | cons item items =>
    obtain ⟨first, hfst, h⟩ := bind_eq_ok h
    obtain ⟨others, _, h⟩ := bind_eq_ok h
    cases h
    obtain ⟨u, rest, rfl, hu⟩ := head_encode hfst
    exact dropMark_of_head (fun hhead => hu (Option.some.inj hhead))

/-- A client that parses what the encoders accepted dispatches the encoded events, in order,
and nothing else. -/
theorem parse_encoded_stream (number : NumberText) (items : List StreamItem) (output : JsString)
    (h : encodeAll number items = .ok output) : parse output = intended [] items := by
  rw [parse, dropMark_encodeAll h]
  exact parseLines_encodeAll number items output h ⟨rfl, rfl, rfl⟩

/-- Exponents as `Number::toString` writes them for powers of ten. -/
def powerText : NumberText where
  exponential n := units "1e+" ++ JsString.natUnits (Nat.log 10 n)
  oneLine n := oneLine_append.mpr ⟨hasLineBreak_eq_false (by decide), oneLine_natUnits _⟩

/-- A payload with a forged event in it, a comment, a delay and an empty frame without an id. -/
def forgingItems : List StreamItem :=
  [.retry 3000,
    .frame ⟨some (units "a:1"), some (units "user.created"), units "x\r\nevent: forged\r\rdata: y\n"⟩,
    .comment (units "data: z"), .frame ⟨none, none, []⟩]

theorem parse_forging_stream :
    ∃ output, encodeAll powerText forgingItems = .ok output ∧ parse output =
      [⟨units "user.created", units "x\nevent: forged\n\ndata: y\n", units "a:1"⟩,
        ⟨units "message", [], units "a:1"⟩] := by
  obtain ⟨output, houtput⟩ : ∃ output, encodeAll powerText forgingItems = .ok output := ⟨_, rfl⟩
  refine ⟨output, houtput, ?_⟩
  rw [parse_encoded_stream powerText forgingItems output houtput]
  decide +kernel

end BoilerplateExpress.Sse

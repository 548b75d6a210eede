import BoilerplateExpress.JsString

/-!
# Event streams

The parser of the `text/event-stream` format, section 9.2 of the WHATWG HTML standard, over
the units of a decoded stream. A stream is cut into lines, lines fill buffers, and an empty
line dispatches what the buffers hold.
-/
namespace BoilerplateExpress.EventStream

open List

def lineFeed : UInt16 := 10

def carriageReturn : UInt16 := 13

def space : UInt16 := 32

def colon : UInt16 := 58

def byteOrderMark : UInt16 := 0xFEFF

/-- The units of a plain text. -/
def units (s : String) : JsString := JsString.ofText s.toList

structure Buffers where
  data : JsString := []
  eventType : JsString := []
  lastEventId : JsString := []
  reconnectionTime : Option ℕ := none

structure Event where
  type : JsString
  data : JsString
  lastEventId : JsString
  deriving DecidableEq, Repr

/-- Cuts off a line at a CRLF pair, an LF or a CR. What follows the last of them is not a
line. `afterCr` says that the unit before was a CR, whose line is already cut off. -/
def linesFrom : Bool → JsString → JsString → List JsString
  | _, _, [] => []
  | afterCr, line, u :: rest =>
    if u = lineFeed then
      if afterCr then linesFrom false line rest else line :: linesFrom false [] rest
    else if u = carriageReturn then line :: linesFrom true [] rest
    else linesFrom false (line ++ [u]) rest

def lines (stream : JsString) : List JsString := linesFrom false [] stream

def isDigits (value : JsString) : Bool :=
  !value.isEmpty && value.all (fun u => 48 ≤ u && u ≤ 57)

def processField (b : Buffers) (field value : JsString) : Buffers :=
  if field = units "event" then { b with eventType := value }
  else if field = units "data" then { b with data := b.data ++ value ++ [lineFeed] }
  else if field = units "id" then
    if 0 ∈ value then b else { b with lastEventId := value }
  else if field = units "retry" then
    if isDigits value then { b with reconnectionTime := some (Text.digitsToNat value.toText) } else b
  else b

/-- The dispatch at an empty line. The last event id stays for the events to come. -/
def dispatch (b : Buffers) : Buffers × Option Event :=
  if b.data = [] then ({ b with eventType := [] }, none)
  else
    ({ b with data := [], eventType := [] },
      some
        { type := if b.eventType = [] then units "message" else b.eventType
          data := if b.data.getLast? = some lineFeed then b.data.dropLast else b.data
          lastEventId := b.lastEventId })

/-- The value after a colon, without one leading space. -/
def fieldValue : JsString → JsString
  | [] => []
  | u :: rest => if u = space then rest else u :: rest

def processLine (b : Buffers) (line : JsString) : Buffers × Option Event :=
  if line = [] then dispatch b
  else if line.head? = some colon then (b, none)
  else
    (processField b (line.takeWhile (· ≠ colon))
      (fieldValue ((line.dropWhile (· ≠ colon)).drop 1)), none)

def parseLines : Buffers → List JsString → List Event
  | _, [] => []
  | b, line :: rest =>
    let next := processLine b line
    next.2.toList ++ parseLines next.1 rest

def dropMark : JsString → JsString
  | [] => []
  | u :: rest => if u = byteOrderMark then rest else u :: rest

def parse (stream : JsString) : List Event := parseLines {} (lines (dropMark stream))

lemma dropMark_of_head {stream} (h : stream.head? ≠ some byteOrderMark) : dropMark stream =
    stream := by
  cases stream with
  | nil => rfl
  | cons u rest => rw [dropMark, if_neg (fun hu => h (congrArg some hu))]

/-- The text can stand in one line. -/
def OneLine (text : JsString) : Prop := ∀ u ∈ text, u ≠ lineFeed ∧ u ≠ carriageReturn

lemma oneLine_append {s t} : OneLine (s ++ t) ↔ OneLine s ∧ OneLine t := forall_mem_append

lemma oneLine_natUnits (n) : OneLine (JsString.natUnits n) := by
  intro u hu
  have hdigit := JsString.mem_natUnits hu
  constructor
  · rintro rfl
    exact absurd hdigit.1 (by decide)
  · rintro rfl
    exact absurd hdigit.1 (by decide)

lemma linesFrom_append {text} (line) (rest : JsString) (h : OneLine text) :
    linesFrom false line (text ++ lineFeed :: rest) = (line ++ text) :: lines rest := by
  induction text generalizing line with
  | nil => simp [linesFrom, lines]
  | cons u text ih =>
    obtain ⟨hlf, hcr⟩ := h u mem_cons_self
    have htail : OneLine text := fun v hv => h v (mem_cons_of_mem u hv)
    rw [cons_append, linesFrom, if_neg hlf, if_neg hcr, ih (line ++ [u]) htail, append_assoc]
    rfl

lemma lines_append (text rest : JsString) (h : OneLine text) :
    lines (text ++ lineFeed :: rest) = text :: lines rest := linesFrom_append [] rest h

lemma lines_flatMap (texts : List JsString) (rest) (h : ∀ text ∈ texts, OneLine text) :
    lines (texts.flatMap (· ++ [lineFeed]) ++ rest) = texts ++ lines rest := by
  induction texts with
  | nil => rfl
  | cons text texts ih =>
    have htail := ih (fun t ht => h t (mem_cons_of_mem text ht))
    rw [flatMap_cons, append_assoc, append_assoc, singleton_append,
      lines_append text _ (h text mem_cons_self), htail]
    rfl

lemma intercalate_append_lineFeed {texts} (h : texts ≠ []) :
    [lineFeed].intercalate texts ++ [lineFeed] = texts.flatMap (· ++ [lineFeed]) := by
  induction texts with
  | nil => exact absurd rfl h
  | cons text texts ih =>
    cases texts with
    | nil => simp
    | cons next texts =>
      have htail := ih (cons_ne_nil next texts)
      rw [intercalate_cons_cons, flatMap_cons, ← htail]
      simp

/-- The parts between line feeds have no line feed, and nothing that the whole has not. -/
lemma mem_splitOn_lineFeed {text part : JsString} (h : part ∈ text.splitOn lineFeed) :
    ∀ u ∈ part, u ∈ text ∧ u ≠ lineFeed := by
  induction text generalizing part with
  | nil =>
    obtain rfl : part = [] := mem_singleton.mp h
    exact nofun
  | cons u text ih =>
    have hsplit : (u :: text).splitOn lineFeed = if (u == lineFeed) then
        [] :: text.splitOn lineFeed else (text.splitOn lineFeed).modifyHead (List.cons u) :=
      splitOnP_cons_eq_if_modifyHead u text
    have htail : ∀ p ∈ text.splitOn lineFeed, ∀ v ∈ p, v ∈ u :: text ∧ v ≠ lineFeed :=
      fun p hp v hv => ⟨mem_cons_of_mem u (ih hp v hv).1, (ih hp v hv).2⟩
    rw [hsplit] at h
    split_ifs at h with hu
    · rcases mem_cons.mp h with rfl | hrest
      · exact nofun
      · exact htail part hrest
    · obtain ⟨first, rest, hparts⟩ := exists_cons_of_ne_nil (splitOnP_ne_nil (· == lineFeed) text)
      have hparts' : text.splitOn lineFeed = first :: rest := hparts
      rw [hparts'] at h htail
      rcases mem_cons.mp h with rfl | hrest
      · intro v hv
        rcases mem_cons.mp hv with rfl | hfst
        · exact ⟨mem_cons_self, by simpa using hu⟩
        · exact htail first mem_cons_self v hfst
      · exact htail part (mem_cons_of_mem first hrest)

lemma parseLines_silent {b line b'} (h : processLine b line = (b', none)) (rest) :
    parseLines b (line :: rest) = parseLines b' rest := by
  rw [parseLines, h]
  rfl

lemma processLine_nil {b} (hdata : b.data = []) (htype : b.eventType = []) :
    processLine b [] = (b, none) := by rw [processLine, if_pos rfl, dispatch, if_pos hdata, ← htype]

lemma processLine_comment (b) (text : JsString) : processLine b (colon :: text) = (b, none) := rfl

lemma processLine_field (b) (name value : JsString) (hne : name ≠ []) (hcolon : colon ∉ name) :
    processLine b (name ++ colon :: space :: value) = (processField b name value, none) := by
  obtain ⟨htake, hdrop⟩ := Text.takeWhile_ne_append hcolon (space :: value)
  have hhead : (name ++ colon :: space :: value).head? ≠ some colon := by
    obtain ⟨u, rest, rfl⟩ := exists_cons_of_ne_nil hne
    intro h
    exact hcolon (mem_cons.mpr (.inl (Option.some.inj h).symm))
  rw [processLine, if_neg (by simp), if_neg hhead, htake, hdrop]
  rfl

/-- The line of one part of the data. -/
def dataLine (text : JsString) : JsString := units "data" ++ colon :: space :: text

lemma processLine_dataLine (b text) :
    processLine b (dataLine text) = ({ b with data := b.data ++ text ++ [lineFeed] }, none) :=
  processLine_field b (units "data") text (by decide) (by decide)

/-- Data lines fill the data buffer and do nothing else. -/
theorem parseLines_dataLines (texts : List JsString) (b rest) :
    parseLines b (texts.map dataLine ++ rest) =
      parseLines { b with data := b.data ++ texts.flatMap (· ++ [lineFeed]) } rest := by
  induction texts generalizing b with
  | nil => simp
  | cons text texts ih =>
    rw [map_cons, cons_append, parseLines_silent (processLine_dataLine b text), ih, flatMap_cons]
    simp

lemma dispatch_data (b : Buffers) (texts : List JsString) (h : texts ≠ [])
    (hdata : b.data = texts.flatMap (· ++ [lineFeed])) :
    dispatch b = ({ b with data := [], eventType := [] },
      some ⟨if b.eventType = [] then units "message" else b.eventType,
        [lineFeed].intercalate texts, b.lastEventId⟩) := by
  rw [← intercalate_append_lineFeed h] at hdata
  have hne : b.data ≠ [] := by simp [hdata]
  have hlast : b.data.getLast? = some lineFeed := by simp [hdata]
  have hdrop : b.data.dropLast = [lineFeed].intercalate texts := by simp [hdata]
  rw [dispatch, if_neg hne, if_pos hlast, hdrop]

end BoilerplateExpress.EventStream

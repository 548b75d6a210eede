import BoilerplateExpress.Calendar
import BoilerplateExpress.Logging.KeyPolicy

/-!
# The redactor

`createRedactor` of `logging/redact.ts`: a walk over a value that hands every string to the
detectors and replaces what sits under a sensitive key. Objects live in a heap, because the
walk asks for their identity to find cycles.

Properties are data. Accessors, proxies and objects whose prototype lies about their kind
run code of their own and are not modelled; the walk catches what they throw. A step that
throws is `none`, and the whole walk then answers `[unserialisable]`. A returned record
lists its properties as they were assigned; that an engine lists integer keys first is left
out.
-/
namespace BoilerplateExpress.Logging

open EventStream (units)

/-! ### Policy and markers of `logging/redaction.types.ts` -/

structure RedactionPolicy where
  extraKeys : List JsString
  maxDepth : ℕ
  maxArrayLength : ℕ
  maxStringLength : ℕ

def defaultRedactionPolicy : RedactionPolicy := ⟨[], 8, 100, 2000⟩

def truncatedDepth : JsString := units "[truncated:depth]"

def circular : JsString := units "[circular]"

def opaqueMarker : JsString := units "[opaque]"

def unserialisable : JsString := units "[unserialisable]"

/-! ### Values -/

abbrev Addr := ℕ

inductive JsNumber where
  | finite (value : ℚ)
  | nan
  | infinity
  | negativeInfinity
  deriving DecidableEq

inductive Value where
  | undefined
  | null
  | boolean (value : Bool)
  | number (value : JsNumber)
  | string (value : JsString)
  | bigint (value : ℤ)
  | symbol (description : Option JsString)
  | function
  | object (addr : Addr)
  deriving DecidableEq

/-- What the walk looks at of an object it does not descend into. `constructorName` is
`value.constructor.name`, if there is one and it is a string. -/
inductive Opaque where
  | map (size : ℕ)
  | set (size : ℕ)
  | view (constructorName : JsString) (byteLength : ℕ)
  | arrayBuffer (byteLength : ℕ)
  | other (constructorName : Option JsString)

/-- An error: its four named properties, its own or inherited, and its own enumerable ones. -/
structure ErrorObject where
  name : Value
  message : Value
  stack : Value
  cause : Value
  entries : List (JsString × Value)

/-- An array may have holes; a date may be invalid. -/
inductive HeapObject where
  | date (time : Option ℤ)
  | error (error : ErrorObject)
  | array (elements : List (Option Value))
  | plain (entries : List (JsString × Value))
  | closed (kind : Opaque)

abbrev Heap := Addr → HeapObject

structure Input where
  heap : Heap
  value : Value

/-- What the redactor returns. A `bare` object is one of the input as it is. -/
inductive Rendered where
  | undefined
  | null
  | boolean (value : Bool)
  | number (value : JsNumber)
  | string (value : JsString)
  | bigint (value : ℤ)
  | symbol (description : Option JsString)
  | function
  | bare (object : HeapObject)
  | array (items : List (Option Rendered))
  | object (proto : Option Rendered) (entries : List (JsString × Rendered))

/-! ### Records -/

/-- The prototype, if it was assigned, and the properties of a record that is being filled. -/
abbrev Record := Option Rendered × List (JsString × Rendered)

def Rendered.isPrototype : Rendered → Bool
  | .null | .bare _ | .array _ | .object _ _ => true
  | _ => false

/-- `rendered[key] = value`. A key that is there keeps its place; `__proto__` sets the
prototype, or does nothing. -/
def assign (record : Record) (key : JsString) (value : Rendered) : Record :=
  if key = units "__proto__" then
    if value.isPrototype then (some value, record.2) else record
  else if record.2.any (fun entry => entry.1 = key) then
    (record.1, record.2.map (fun entry => if entry.1 = key then (key, value) else entry))
  else (record.1, record.2 ++ [(key, value)])

/-! ### The walk -/

structure Walker where
  policy : RedactionPolicy
  isSensitiveKey : JsString → Bool

/-- The marker left in place of array elements past the cap. -/
def truncatedItems (count : ℕ) : JsString :=
  units "[truncated:" ++ JsString.natUnits count ++ units " more item" ++
    (if count = 1 then [] else units "s") ++ units "]"

def describeOpaque : Opaque → JsString
  | .map size => units "[opaque:Map(" ++ JsString.natUnits size ++ units ")]"
  | .set size => units "[opaque:Set(" ++ JsString.natUnits size ++ units ")]"
  | .view name byteLength =>
    units "[opaque:" ++ name ++ units "(" ++ JsString.natUnits byteLength ++ units ")]"
  | .arrayBuffer byteLength =>
    units "[opaque:ArrayBuffer(" ++ JsString.natUnits byteLength ++ units ")]"
  | .other (some name) =>
    if 0 < name.length then units "[opaque:" ++ name ++ units "]" else opaqueMarker
  | .other none => opaqueMarker

/-- Detectors first, truncation second. -/
def visitString (walker : Walker) (value : JsString) : JsString :=
  let redacted := redactText value
  if walker.policy.maxStringLength < redacted.length then
    redacted.take walker.policy.maxStringLength ++ units "…"
  else redacted

def visitNumber : JsNumber → Rendered
  | .finite value => .number (.finite value)
  | .nan => .string (units "NaN")
  | .infinity => .string (units "Infinity")
  | .negativeInfinity => .string (units "-Infinity")

def bigintUnits (value : ℤ) : JsString :=
  (if value < 0 then units "-" else []) ++ JsString.natUnits value.natAbs ++ units "n"

def visitDate : Option ℤ → Rendered
  | none => .string (units "Invalid Date")
  | some time => .string (Calendar.toISOString time)

/-- A value as it is. -/
def bareValue (heap : Heap) : Value → Rendered
  | .undefined => .undefined
  | .null => .null
  | .boolean value => .boolean value
  | .number value => .number value
  | .string value => .string value
  | .bigint value => .bigint value
  | .symbol description => .symbol description
  | .function => .function
  | .object addr => .bare (heap addr)

section Visit

variable (walker : Walker) (visit : Value → Option Rendered)

def visitProperty (entry : JsString × Value) : Option Rendered :=
  if walker.isSensitiveKey entry.1 then some (.string redacted) else visit entry.2

def visitEntry (record : Record) (entry : JsString × Value) : Option Record :=
  (visitProperty walker visit entry).map (assign record (visitString walker entry.1))

/-- `redactText` calls a method of strings, so every other message throws. -/
def visitMessage : Value → Option Rendered
  | .string message => some (.string (visitString walker message))
  | _ => none

def visitStack (record : Record) : Value → Record
  | .string stack => assign record (units "stack") (.string (visitString walker stack))
  | _ => record

def visitCause (record : Record) : Value → Option Record
  | .undefined => some record
  | cause => (visit cause).map (assign record (units "cause"))

/-- The keys of an error that its own properties do not repeat. -/
def errorKeys : List JsString := [units "name", units "message", units "stack", units "cause"]

def visitErrorEntry (record : Record) (entry : JsString × Value) : Option Record :=
  if errorKeys.contains entry.1 then some record else visitEntry walker visit record entry

def visitError (heap : Heap) (error : ErrorObject) : Option Rendered := do
  let message ← visitMessage walker error.message
  let rendered : Record :=
    (none, [(units "name", bareValue heap error.name), (units "message", message)])
  let rendered ← visitCause visit (visitStack walker rendered error.stack) error.cause
  let rendered ← error.entries.foldlM (visitErrorEntry walker visit) rendered
  some (.object rendered.1 rendered.2)

def visitElement : Option Value → Option (Option Rendered)
  | none => some none
  | some element => (visit element).map some

def visitArray (elements : List (Option Value)) : Option Rendered := do
  let kept ← (elements.take walker.policy.maxArrayLength).mapM (visitElement visit)
  let dropped := elements.length - kept.length
  some (.array (if 0 < dropped then kept ++ [some (.string (truncatedItems dropped))] else kept))

def visitPlain (entries : List (JsString × Value)) : Option Rendered := do
  let rendered ← entries.foldlM (visitEntry walker visit) (none, [])
  some (.object rendered.1 rendered.2)

def visitObject (heap : Heap) : HeapObject → Option Rendered
  | .date time => some (visitDate time)
  | .error error => visitError walker visit heap error
  | .array elements => visitArray walker visit elements
  | .plain entries => visitPlain walker visit entries
  | .closed kind => some (.string (describeOpaque kind))

/-- Everything but objects is rendered at once. -/
def visitValue (object : Addr → Option Rendered) : Value → Option Rendered
  | .string value => some (.string (visitString walker value))
  | .number value => some (visitNumber value)
  | .boolean value => some (.boolean value)
  | .undefined => some .undefined
  | .bigint value => some (.string (bigintUnits value))
  | .symbol description =>
    some (.string (units "Symbol(" ++ description.getD [] ++ units ")"))
  | .function => some (.string (units "[opaque:function]"))
  | .null => some .null
  | .object addr => object addr

end Visit

/-- `depth` levels are left below an object; the source counts them upwards to `maxDepth`. -/
def visit (walker : Walker) (heap : Heap) : ℕ → List Addr → Value → Option Rendered
  | 0, ancestors => visitValue walker (fun addr =>
    if addr ∈ ancestors then some (.string circular) else some (.string truncatedDepth))
  | depth + 1, ancestors => visitValue walker (fun addr =>
    if addr ∈ ancestors then some (.string circular)
    else visitObject walker (visit walker heap depth (addr :: ancestors)) heap (heap addr))

def walkerOf (policy : RedactionPolicy) : Walker where
  policy := policy
  isSensitiveKey := fun key => ((createSensitiveKeyMatcher policy.extraKeys).isSensitiveKey key).1

/-- `createRedactor(policy)(value)`. -/
def redact (policy : RedactionPolicy) (input : Input) : Rendered :=
  (visit (walkerOf policy) input.heap (policy.maxDepth + 1) [] input.value).getD
    (.string unserialisable)

end BoilerplateExpress.Logging

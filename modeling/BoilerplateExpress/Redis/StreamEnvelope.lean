import BoilerplateExpress.Calendar
import BoilerplateExpress.Errors
import BoilerplateExpress.OrderedMap

/-!
# Event envelopes on the wire

`redis/stream.envelope.ts`: the encoder writes an envelope as the fields of a stream entry, and
the decoder checks the fields with a schema before it reads them. The two state their constraints
apart from each other. JSON, the ISO format of dates and Zod's `datetime` are parameters;
`RoundTrips` says what is assumed of them.
-/
namespace BoilerplateExpress.Redis.StreamEnvelope

open EventStream (units)

/-- What the platform and Zod bring along. `parse` fails with the message of its error, and
`date` gives no time for a text that is no date. -/
structure Platform (J : Type) where
  null : J
  stringify : J → JsString
  parse : JsString → Except JsString J
  date : JsString → Option ℤ
  isDatetime : JsString → Bool

/-- The year that `toISOString` writes. -/
def yearOf (time : ℤ) : ℤ := (Calendar.civil (time / 86400000)).year

/-- What is assumed for a date and a payload: the text of the date and the JSON of the payload can
be read back, and Zod takes the text for a date if its year has four digits. -/
structure RoundTrips {J : Type} (platform : Platform J) (time : ℤ) (value : J) : Prop where
  json : platform.parse (platform.stringify value) = .ok value
  date : platform.date (Calendar.toISOString time) = some time
  datetime : 0 ≤ yearOf time → yearOf time ≤ 9999 →
    platform.isDatetime (Calendar.toISOString time) = true

/-- `occurredAt` is `none` for an invalid date, and `payload` for `undefined`. -/
structure StreamEventEnvelope (J : Type) where
  id : JsString
  name : JsString
  occurredAt : Option ℤ
  correlationId : Option JsString
  payload : Option J

abbrev Fields := OrderedMap JsString JsString

inductive EnvelopeField where
  | id
  | name
  | occurredAt
  | correlationId
  | payload
  deriving DecidableEq

def EnvelopeField.key : EnvelopeField → JsString
  | .id => units "id"
  | .name => units "name"
  | .occurredAt => units "occurredAt"
  | .correlationId => units "correlationId"
  | .payload => units "data"

structure Issue where
  path : JsString
  message : JsString
  deriving DecidableEq

structure MalformedStreamEntryError where
  entryId : JsString
  detail : JsString
  deriving DecidableEq

def MalformedStreamEntryError.message (error : MalformedStreamEntryError) : JsString :=
  units "Stream entry " ++ error.entryId ++ units " is not a valid event envelope: " ++ error.detail

section

variable {J : Type} (platform : Platform J)

/-- `toISOString` throws on an invalid date. -/
def encodeEnvelope (envelope : StreamEventEnvelope J) : Except String Fields :=
  match envelope.occurredAt with
  | none => .error "Invalid time value"
  | some occurredAt =>
    let fields : Fields := OrderedMap.empty
      |>.set EnvelopeField.id.key envelope.id
      |>.set EnvelopeField.name.key envelope.name
      |>.set EnvelopeField.occurredAt.key (Calendar.toISOString occurredAt)
      |>.set EnvelopeField.payload.key
        (platform.stringify (envelope.payload.getD platform.null))
    match envelope.correlationId with
    | none => .ok fields
    | some correlationId => .ok (fields.set EnvelopeField.correlationId.key correlationId)

def min1 (value : JsString) : List JsString :=
  if value.length < 1 then [units "String must contain at least 1 character(s)"] else []

def datetime (value : JsString) : List JsString :=
  if platform.isDatetime value then [] else [units "Invalid datetime"]

/-- A string of the schema, with the messages of its checks. -/
def string (field : EnvelopeField) (checks : JsString → List JsString) (fields : Fields) :
    Except (List Issue) JsString :=
  match fields.get field.key with
  | none => .error [⟨field.key, units "Required"⟩]
  | some value =>
    match checks value with
    | [] => .ok value
    | messages => .error (messages.map (Issue.mk field.key))

def optional (field : EnvelopeField) (checks : JsString → List JsString) (fields : Fields) :
    Except (List Issue) (Option JsString) :=
  if (fields.get field.key).isNone then .ok none else (string field checks fields).map some

structure ParsedFields where
  id : JsString
  name : JsString
  occurredAt : JsString
  correlationId : Option JsString
  payload : JsString

def issuesOf {T : Type} : Except (List Issue) T → List Issue
  | .ok _ => []
  | .error issues => issues

/-- The issues of all fields are collected, in the order of the schema. -/
def envelopeFieldsSchema (fields : Fields) : Except (List Issue) ParsedFields :=
  let id := string .id min1 fields
  let name := string .name min1 fields
  let occurredAt := string .occurredAt (datetime platform) fields
  let correlationId := optional .correlationId min1 fields
  let payload := string .payload (fun _ => []) fields
  match id, name, occurredAt, correlationId, payload with
  | .ok id, .ok name, .ok occurredAt, .ok correlationId, .ok payload =>
    .ok ⟨id, name, occurredAt, correlationId, payload⟩
  | _, _, _, _, _ =>
    .error (issuesOf id ++ issuesOf name ++ issuesOf occurredAt ++ issuesOf correlationId ++
      issuesOf payload)

def describe (issue : Issue) : JsString :=
  (if issue.path = [] then units "(root)" else issue.path) ++ units ": " ++ issue.message

def decodeEnvelope (entryId : JsString) (fields : Fields) :
    Except MalformedStreamEntryError (StreamEventEnvelope J) :=
  match envelopeFieldsSchema platform fields with
  | .error issues => .error ⟨entryId, (units "; ").intercalate (issues.map describe)⟩
  | .ok parsed =>
    match platform.parse parsed.payload with
    | .error message =>
      .error ⟨entryId, units "field \"data\" is not JSON: " ++ message⟩
    | .ok payload =>
      .ok ⟨parsed.id, parsed.name, platform.date parsed.occurredAt, parsed.correlationId,
        some payload⟩

lemma key_injective : Function.Injective EnvelopeField.key := by
  intro a b h
  cases a <;> cases b <;> first | rfl | exact absurd h (by decide +kernel)

/-- What the encoder writes for each field. -/
def written (envelope : StreamEventEnvelope J) (occurredAt : ℤ) :
    EnvelopeField → Option JsString
  | .id => some envelope.id
  | .name => some envelope.name
  | .occurredAt => some (Calendar.toISOString occurredAt)
  | .correlationId => envelope.correlationId
  | .payload => some (platform.stringify (envelope.payload.getD platform.null))

lemma encodeEnvelope_spec {occurredAt envelope} (h : envelope.occurredAt = some occurredAt) :
    ∃ fields, encodeEnvelope platform envelope = .ok fields ∧ ∀ field : EnvelopeField,
        fields.get field.key = written platform envelope occurredAt field := by
  simp only [encodeEnvelope, h]
  cases hcorrelation : envelope.correlationId with
  | _ =>
    refine ⟨_, rfl, ?_⟩
    intro field
    simp only [OrderedMap.get_set, key_injective.eq_iff]
    cases field <;> simp [written, hcorrelation]

lemma string_eq_ok_iff (field checks fields value) :
    string field checks fields = .ok value ↔
      fields.get field.key = some value ∧ checks value = [] := by
  unfold string
  cases fields.get field.key with
  | none => simp
  | some other =>
    cases hchks : checks other <;> simp +contextual [hchks, eq_comm]

lemma optional_eq_ok_iff (field checks fields value) :
    optional field checks fields = .ok value ↔
      fields.get field.key = value ∧ ∀ text, value = some text → checks text = [] := by
  unfold optional
  cases hget : fields.get field.key with
  | none => simp +contextual [eq_comm]
  | some other =>
    constructor
    · intro h
      obtain ⟨text, hstr, rfl⟩ := map_eq_ok h
      obtain ⟨htext, hchks⟩ := (string_eq_ok_iff field checks fields text).mp hstr
      exact ⟨hget.symm.trans htext, fun _ h => Option.some.inj h ▸ hchks⟩
    · rintro ⟨rfl, hchks⟩
      rw [(string_eq_ok_iff field checks fields other).mpr ⟨hget, hchks other rfl⟩]
      rfl

/-- A schema takes the fields whose texts pass their checks. -/
theorem schema_eq_ok_iff (fields parsed) :
    envelopeFieldsSchema platform fields = .ok parsed ↔
      string .id min1 fields = .ok parsed.id ∧ string .name min1 fields = .ok parsed.name ∧
      string .occurredAt (datetime platform) fields = .ok parsed.occurredAt ∧
      optional .correlationId min1 fields = .ok parsed.correlationId ∧
      string .payload (fun _ => []) fields = .ok parsed.payload := by
  obtain ⟨id, name, occurredAt, correlationId, payload⟩ := parsed
  unfold envelopeFieldsSchema
  dsimp only
  split
  · rename_i hid hname hocc hcor hpay
    rw [hid, hname, hocc, hcor, hpay]
    simp
  · rename_i hnot
    simp only [reduceCtorEq, false_iff]
    rintro ⟨hid, hname, hocc, hcor, hpay⟩
    exact hnot _ _ _ _ _ hid hname hocc hcor hpay

lemma min1_eq_nil_iff (value) : min1 value = [] ↔ value ≠ [] := by
  unfold min1
  cases value <;> simp

/-- The decoder accepts what the encoder wrote, unless the correlation id is the empty text. -/
theorem schema_of_written {envelope occurredAt fields} (hfs : ∀ field : EnvelopeField,
      fields.get field.key = written platform envelope occurredAt field) (hid : envelope.id ≠ [])
    (hname : envelope.name ≠ []) (hdat : platform.isDatetime (Calendar.toISOString occurredAt))
    (hcor : envelope.correlationId ≠ some []) :
    envelopeFieldsSchema platform fields = .ok ⟨envelope.id, envelope.name,
      Calendar.toISOString occurredAt, envelope.correlationId,
      platform.stringify (envelope.payload.getD platform.null)⟩ := by
  simp only [schema_eq_ok_iff, string_eq_ok_iff, optional_eq_ok_iff, hfs, written,
    min1_eq_nil_iff, and_true, true_and]
  refine ⟨hid, hname, by simp [datetime, hdat], ?_⟩
  rintro text htext rfl
  exact hcor htext

/-- For every envelope with an id, a name, a date of the years 0 to 9999 and a JSON payload: it
comes back as it was exactly if its correlation id is not the empty text. -/
theorem envelope_round_trip_iff (envelope : StreamEventEnvelope J) (hid : envelope.id ≠ [])
    (hname : envelope.name ≠ []) (time : ℤ) (htime : envelope.occurredAt = some time)
    (hfrom : 0 ≤ yearOf time) (hto : yearOf time ≤ 9999) (value : J)
    (hpayload : envelope.payload = some value) (htrips : RoundTrips platform time value)
    (entryId : JsString) :
    (∃ fields, encodeEnvelope platform envelope = .ok fields ∧
        decodeEnvelope platform entryId fields = .ok envelope) ↔
      envelope.correlationId ≠ some [] := by
  obtain ⟨fields, henc, hfs⟩ := encodeEnvelope_spec platform htime
  constructor
  · rintro ⟨fields', henc', hdec⟩ hemp
    obtain rfl : fields = fields' := Except.ok.inj (henc.symm.trans henc')
    unfold decodeEnvelope at hdec
    split at hdec
    · cases hdec
    · rename_i parsed hpar
      -- the schema has no way to accept the empty text
      obtain ⟨-, -, -, hcor, -⟩ := (schema_eq_ok_iff platform fields parsed).mp hpar
      obtain ⟨hget, hchks⟩ := (optional_eq_ok_iff _ _ _ _).mp hcor
      rw [hfs, written, hemp] at hget
      exact (min1_eq_nil_iff []).mp (hchks [] hget.symm) rfl
  · intro hcor
    have hpar := schema_of_written platform hfs hid hname
      (htrips.datetime hfrom hto) hcor
    refine ⟨fields, henc, ?_⟩
    simp only [decodeEnvelope, hpar, hpayload, Option.getD_some, htrips.json, htrips.date,
      ← htime]
    rw [← hpayload]

end

/-- A platform on which the only payload is `null` and every text is the beginning of 1970. -/
def samplePlatform : Platform Unit where
  null := ()
  stringify _ := units "null"
  parse _ := .ok ()
  date _ := some 0
  isDatetime _ := true

def sampleEnvelope (correlationId : Option JsString) : StreamEventEnvelope Unit :=
  ⟨units "event-1", units "user.created", some 0, correlationId, some ()⟩

theorem envelope_round_trip_null :
    (∃ fields, encodeEnvelope samplePlatform (sampleEnvelope none) = .ok fields ∧
        decodeEnvelope samplePlatform (units "1712-0") fields = .ok (sampleEnvelope none)) ↔
      (sampleEnvelope none).correlationId ≠ some [] :=
  envelope_round_trip_iff samplePlatform (sampleEnvelope none) (by decide) (by decide) 0 rfl
    (by decide) (by decide) () rfl ⟨rfl, rfl, fun _ _ => rfl⟩ (units "1712-0")

/-- An event with the empty correlation id is written, and refused when it is read. -/
theorem empty_correlation_id_is_parked :
    ∃ fields, encodeEnvelope samplePlatform (sampleEnvelope (some [])) = .ok fields ∧
      decodeEnvelope samplePlatform (units "1712-0") fields = .error ⟨units "1712-0",
        units "correlationId: String must contain at least 1 character(s)"⟩ := ⟨_, rfl, by rfl⟩

end BoilerplateExpress.Redis.StreamEnvelope

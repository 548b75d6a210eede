import BoilerplateExpress.Workers.WorkerPool

/-!
# The message loop of a worker

`serveTasks` of `workers/worker-runtime.ts` and `serializeError` of `workers/protocol.ts`. Each
request is answered from a callback of the handler's promise. The promise of the callback itself
is dropped, so what the callback throws is an unhandled rejection: a `postMessage` of a value
that structured clone rejects, or a thrown value that cannot be serialised.

Reading a property of an object and `String` run code of the value and may throw; what they do
is given by a `Runtime`. `postMessage` throws exactly on values that cannot be cloned.
-/
namespace BoilerplateExpress.Workers.WorkerRuntime

/-- What the language does with a value. -/
structure Runtime (V : Type) extends ValueRuntime String V where
  /-- `typeof value === 'object' && value !== null`. -/
  isObject : V → Bool
  /-- The text of a value of type `string`. -/
  asString : V → Option String
  /-- The value of a finite number. -/
  asNumber : V → Option ℚ
  cloneable : V → Bool

inductive TaskResponse (V : Type) where
  | success (id : ℚ) (value : V)
  | failure (id : ℚ) (error : SerializedError)
  deriving DecidableEq

def TaskResponse.id {V : Type} : TaskResponse V → ℚ
  | .success id _ => id
  | .failure id _ => id

inductive Outcome (V : Type) where
  | resolved (result : V)
  | failed (err : V)

/-- An own property of the handler table; a function is known by how its promise settles. -/
inductive Property (P V : Type) where
  | handler (run : P → Outcome V)
  | other

/-- What a callback throws. -/
inductive Thrown (V : Type) where
  | dataClone
  | value (value : V)
  deriving DecidableEq

/-- What a message leads to: the responses posted, and the unhandled rejections. -/
structure Served (V : Type) where
  posted : List (TaskResponse V) := []
  unhandled : List (Thrown V) := []
  deriving DecidableEq

section

variable {P V : Type} (runtime : Runtime V)

def readStringProperty (value : V) (key : String) : Except V (Option String) :=
  (runtime.get value key).map runtime.asString

def readNumberProperty (value : V) (key : String) : Except V (Option ℚ) :=
  (runtime.get value key).map runtime.asNumber

/-- `readStringProperty(value, 'message') ?? String(value)`. -/
def readMessage (value : V) : Except V String := do
  match ← readStringProperty runtime value "message" with
  | some message => .ok message
  | none => runtime.string value

def serializeError (value : V) : Except V SerializedError := do
  if !runtime.isObject value then
    return { name := "Error", message := ← runtime.string value }
  let name := (← readStringProperty runtime value "name").getD "Error"
  let message ← readMessage runtime value
  let stack ← readStringProperty runtime value "stack"
  let code ← readStringProperty runtime value "code"
  let statusCode ← readNumberProperty runtime value "statusCode"
  return { name, message, stack, code, statusCode }

/-- The parts of a failure are texts and numbers, which can always be cloned. -/
def postMessage : TaskResponse V → Except (Thrown V) (TaskResponse V)
  | .success id value =>
    if runtime.cloneable value then .ok (.success id value) else .error .dataClone
  | .failure id error => .ok (.failure id error)

/-- The two callbacks of the last `then`. -/
def onSettled (id : ℚ) : Outcome V → Except (Thrown V) (TaskResponse V)
  | .resolved result => postMessage runtime (.success id result)
  | .failed err =>
    match serializeError runtime err with
    | .ok error => postMessage runtime (.failure id error)
    | .error thrown => .error (.value thrown)

/-- The listener of `serveTasks`; a message that is no request is `none`. -/
def serveTasks (handlers : String → Option (Property P V)) : Option (TaskRequest P) → Served V
  | none => {}
  | some request =>
    match handlers request.task with
    | some (.handler run) =>
      match onSettled runtime request.id (run request.payload) with
      | .ok response => { posted := [response] }
      | .error thrown => { unhandled := [thrown] }
    | _ =>
      { posted := [.failure request.id
          { name := "UnknownTaskError"
            message := "Worker has no handler for task \"" ++ request.task ++ "\""
            code := some "UNKNOWN_WORKER_TASK" }] }

/-! ### Requests that are answered -/

/-- Every property that `serializeError` reads can be read, and `String` returns where it is
called: for a value that is no object, and for one whose message is no text. -/
def Serializable (value : V) : Prop :=
  if runtime.isObject value then
    (∀ key ∈ ["name", "stack", "code", "statusCode"], ∃ read, runtime.get value key = .ok read) ∧
    ∃ read, runtime.get value "message" = .ok read ∧
      ((runtime.asString read).isSome = true ∨ ∃ text, runtime.string value = .ok text)
  else ∃ text, runtime.string value = .ok text

/-- The handler, if there is one, leaves something that can be posted. -/
def Answerable (handlers : String → Option (Property P V)) (request : TaskRequest P) : Prop :=
  ∀ run, handlers request.task = some (.handler run) →
    match run request.payload with
    | .resolved result => runtime.cloneable result = true
    | .failed err => Serializable runtime err

lemma exists_map_ok {ε α β : Type} {x : Except ε α} {f} {p : β → Prop} :
    (∃ b, x.map f = .ok b ∧ p b) ↔ ∃ a, x = .ok a ∧ p (f a) := by
  cases x with
  | error e => simp [Except.map]
  | ok a => simp [Except.map]

lemma readMessage_ok_iff (value) :
    (∃ message, readMessage runtime value = .ok message) ↔
      ∃ read, runtime.get value "message" = .ok read ∧
        ((runtime.asString read).isSome ∨ ∃ text, runtime.string value = .ok text) := by
  simp only [readMessage, readStringProperty, exists_bind_ok, exists_map_ok]
  refine exists_congr fun read => and_congr_right fun _ => ?_
  cases runtime.asString read with
  | none => simp
  | some message => simp

lemma serializeError_ok_iff (value) :
    (∃ error, serializeError runtime value = .ok error) ↔ Serializable runtime value := by
  unfold serializeError Serializable
  by_cases hobj : runtime.isObject value
  · simp only [hobj, Bool.not_true, Bool.false_eq_true, if_false, exists_bind_ok,
      readStringProperty, readNumberProperty, exists_map_ok, ← readMessage_ok_iff,
      List.forall_mem_cons]
    constructor
    · rintro ⟨name, hname, message, hmsg, stack, hstack, code, hcode, statusCode, hstat, -⟩
      exact ⟨⟨⟨name, hname⟩, ⟨stack, hstack⟩, ⟨code, hcode⟩, ⟨statusCode, hstat⟩, by simp⟩,
        message, hmsg⟩
    · rintro ⟨⟨⟨name, hname⟩, ⟨stack, hstack⟩, ⟨code, hcode⟩, ⟨statusCode, hstat⟩, -⟩,
        message, hmsg⟩
      exact ⟨name, hname, message, hmsg, stack, hstack, code, hcode, statusCode, hstat, _,
        rfl⟩
  · cases runtime.string value with
    | error e => simp [hobj]
    | ok text => simp [hobj]

lemma onSettled_spec (id outcome) :
    (match outcome with
      | .resolved result => runtime.cloneable result
      | .failed err => Serializable runtime err) ↔
    ∃ response, onSettled runtime id outcome = .ok response ∧ response.id = id := by
  cases outcome with
  | resolved result =>
    by_cases hclone : runtime.cloneable result
    · simp [onSettled, postMessage, hclone, TaskResponse.id]
    · simp [onSettled, postMessage, hclone]
  | failed err =>
    have hser := serializeError_ok_iff runtime err
    cases herror : serializeError runtime err with
    | ok error => simpa [onSettled, postMessage, herror, TaskResponse.id] using hser
    | error thrown => simpa [onSettled, herror] using hser

/-- A request gets exactly one response, under its id, and leaves no unhandled rejection exactly
if its handler is missing or leaves something that can be posted. -/
theorem answered_once_iff (handlers : String → Option (Property P V)) (request : TaskRequest P) :
    (((serveTasks runtime handlers (some request)).posted.map TaskResponse.id = [request.id] ∧
        (serveTasks runtime handlers (some request)).unhandled = []) ↔
      Answerable runtime handlers request) := by
  unfold serveTasks Answerable
  cases hprop : handlers request.task with
  | none => simp [hprop, TaskResponse.id]
  | some property =>
    cases property with
    | other => simp [hprop, TaskResponse.id]
    | handler run =>
      have hspec := onSettled_spec runtime request.id (run request.payload)
      simp only [hprop, Option.some.injEq, Property.handler.injEq, forall_eq', hspec]
      cases onSettled runtime request.id (run request.payload) with
      | ok response => simp
      | error thrown => simp

end

/-- A function, and an object without properties whose `toString` throws. -/
inductive SampleValue where
  | undefined
  | closure
  | unprintable
  deriving DecidableEq

def sampleRuntime : Runtime SampleValue where
  instanceofError _ := .ok false
  isObject value := value == .unprintable
  string value := if value = .unprintable then .error value else .ok "() => 1"
  get _ _ := .ok .undefined
  asString _ := none
  asNumber _ := none
  cloneable value := value == .undefined

/-- A result that cannot be cloned and a thrown object that cannot be printed: no response, and
an unhandled rejection. -/
theorem request_unanswered :
    serveTasks sampleRuntime (fun _ => some (.handler fun _ : Unit => .resolved .closure))
        (some ⟨1, "resize", ()⟩) = ⟨[], [.dataClone]⟩ ∧
      serveTasks sampleRuntime (fun _ => some (.handler fun _ : Unit => .failed .unprintable))
        (some ⟨2, "resize", ()⟩) = ⟨[], [.value .unprintable]⟩ := by decide +kernel

end BoilerplateExpress.Workers.WorkerRuntime

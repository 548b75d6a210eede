import BoilerplateExpress.Machine
import BoilerplateExpress.Sse.EventLog

/-!
# The fan-out of an event stream

`createSseHub` of `sse/hub.ts` over the connections of `sse/connection.ts`. Every call runs
without a suspension point, so a run is a list of calls. What a write to a socket does is an
argument: it succeeds, it throws, or it fills the buffer above its ceiling; the last two close
the connection.

Beside the hub the state carries all messages ever published, and with each connection the
cursor it attached with. Nothing in the program reads them.
-/
namespace BoilerplateExpress.Sse

inductive Resume where
  | live
  | replayed
  | reset
  deriving DecidableEq, Repr

/-- The control event every stream receives first. -/
structure StreamOpenPayload where
  streamId : JsString
  resume : Resume
  replayed : ℕ
  reason : Option ResumeResetReason
  deriving DecidableEq, Repr

inductive WriteOutcome where
  | written
  | throws
  | overflows

/-- The cursor, and the latest sequence number when the connection was attached. -/
structure Attachment where
  lastEventId : Option JsString
  latest : ℕ
  deriving DecidableEq

structure SseConnection where
  closed : Bool := false
  opened : Option StreamOpenPayload := none
  written : List StreamMessage := []
  attachment : Option Attachment := none

/-- The chunk that `send` writes; `data` is read last. -/
def encodeMessage (message : StreamMessage) : Except SseError JsString :=
  match message.data with
  | some data => encodeFrame ⟨some message.id, some message.event, data⟩
  | none => do
    let _ ← idLine ⟨some message.id, some message.event, []⟩
    let _ ← eventLine ⟨some message.id, some message.event, []⟩
    .error .typeError

namespace SseConnection

/-- A no-op once closed. -/
def write (c : SseConnection) (outcome : WriteOutcome) (record : SseConnection → SseConnection) :
    SseConnection :=
  if c.closed then c
  else
    match outcome with
    | .written => record c
    | .throws => { c with closed := true }
    | .overflows => { record c with closed := true }

def record (message : StreamMessage) (c : SseConnection) : SseConnection :=
  { c with written := c.written ++ [message] }

/-- The chunk is encoded before the connection looks whether it is closed. -/
def send (c : SseConnection) (message : StreamMessage) (outcome : WriteOutcome) :
    Except SseError SseConnection := do
  let _ ← encodeMessage message
  .ok (c.write outcome (record message))

def control (c : SseConnection) (payload : StreamOpenPayload) (outcome : WriteOutcome) :
    SseConnection :=
  c.write outcome (fun c => { c with opened := some payload })

/-- Sends one message after another, until one cannot be encoded. -/
def sendAll (c : SseConnection) (outcomes : ℕ → WriteOutcome) :
    List StreamMessage → SseConnection × Option SseError
  | [] => (c, none)
  | message :: messages =>
    match c.send message (outcomes 0) with
    | .error e => (c, some e)
    | .ok next => next.sendAll (fun i => outcomes (i + 1)) messages

end SseConnection

structure SseHub (κ : Type) where
  log : SseEventLog
  /-- The set, in the order of insertion. -/
  connections : List κ
  conns : κ → SseConnection
  history : List StreamMessage

structure SseHubOptions where
  replayBufferSize : ℚ
  maxConnections : ℚ
  streamId : Option JsString

def createSseHub {κ : Type} (options : SseHubOptions) (random : Fin 8 → UInt8) :
    Except SseError (SseHub κ) :=
  if options.maxConnections.den = 1 ∧ 1 ≤ options.maxConnections then do
    let log ← SseEventLog.create ⟨options.replayBufferSize, options.streamId⟩ random
    .ok ⟨log, [], fun _ => {}, []⟩
  else
    .error (.range
      ⟨"createSseHub: maxConnections must be an integer >= 1, received ", options.maxConnections⟩)

inductive HubAction (κ : Type) where
  /-- `data` is what `JSON.stringify` returned; if it throws, nothing has happened yet. -/
  | publish (event : JsString) (data : Option JsString) (outcomes : κ → WriteOutcome)
  | attach (k : κ) (lastEventId : Option JsString) (outcomes : ℕ → WriteOutcome)
  /-- A heartbeat. -/
  | comment (k : κ) (outcome : WriteOutcome)
  | close (k : κ)
  | closeAll

/-- What a cursor is answered with. -/
def openPayload (log : SseEventLog) : ResumeOutcome → StreamOpenPayload
  | .live => ⟨log.streamId, .live, 0, none⟩
  | .replay messages => ⟨log.streamId, .replayed, messages.length, none⟩
  | .reset reason => ⟨log.streamId, .reset, 0, some reason⟩

def replayOf : ResumeOutcome → List StreamMessage
  | .replay messages => messages
  | _ => []

namespace SseHub

variable {κ : Type} [DecidableEq κ]

/-- A connection after a write; its close listener removes it from the set. -/
def settle (hub : SseHub κ) (k : κ) (c : SseConnection) : SseHub κ :=
  { hub with
    conns := Function.update hub.conns k c
    connections := if c.closed then hub.connections.filter (· ≠ k) else hub.connections }

/-- The loop of `publish`, until a message cannot be encoded. -/
def deliver (message : StreamMessage) (outcomes : κ → WriteOutcome) :
    List κ → SseHub κ → SseHub κ × Option SseError
  | [], hub => (hub, none)
  | k :: ks, hub =>
    match (hub.conns k).send message (outcomes k) with
    | .error e => (hub, some e)
    | .ok c => deliver message outcomes ks (hub.settle k c)

def publish (hub : SseHub κ) (event : JsString) (data : Option JsString)
    (outcomes : κ → WriteOutcome) : SseHub κ × Except SseError StreamMessage :=
  let message := hub.log.nextMessage event data
  let delivered := deliver message outcomes hub.connections
    { hub with log := hub.log.append event data, history := hub.history ++ [message] }
  (delivered.1, match delivered.2 with
    | some e => .error e
    | none => .ok message)

def attach (hub : SseHub κ) (k : κ) (lastEventId : Option JsString)
    (outcomes : ℕ → WriteOutcome) : SseHub κ × Option SseError :=
  let outcome := hub.log.since lastEventId
  let attached := { hub.conns k with
    attachment := some ⟨lastEventId, hub.log.latestSequence⟩ }
  let told := attached.control (openPayload hub.log outcome) (outcomes 0)
  let sent := told.sendAll (fun i => outcomes (i + 1)) (replayOf outcome)
  let hub := { hub with conns := Function.update hub.conns k sent.1 }
  match sent.2 with
  | some e => (hub, some e)
  | none =>
    (if sent.1.closed then hub else { hub with connections := hub.connections ++ [k] }, none)

/-- Sequence numbers stay exact, and every connection is attached once, by the request that
opened it. -/
def step (hub : SseHub κ) : HubAction κ → Option (SseHub κ)
  | .publish event data outcomes =>
    if hub.log.latestSequence < maxSafeInteger then some (hub.publish event data outcomes).1
    else none
  | .attach k lastEventId outcomes =>
    match (hub.conns k).attachment with
    | none => some (hub.attach k lastEventId outcomes).1
    | some _ => none
  | .comment k outcome => some (hub.settle k ((hub.conns k).write outcome id))
  | .close k => some (hub.settle k { hub.conns k with closed := true })
  | .closeAll =>
    some { hub with
      connections := []
      conns := fun k =>
        if k ∈ hub.connections then { hub.conns k with closed := true } else hub.conns k }

end SseHub

end BoilerplateExpress.Sse

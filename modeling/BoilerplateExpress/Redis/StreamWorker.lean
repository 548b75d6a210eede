import BoilerplateExpress.Errors
import BoilerplateExpress.Machine
import BoilerplateExpress.Redis.MemoryStream

/-!
# Stream workers

`redis/stream.worker.ts`: `resolveOptions` and the ticks of any number of workers on one
in-memory group. Every command, every start and every end of a handler is one step, so
the ticks interleave at all of them. A tick that overlaps another one of the same worker
counts as a worker of its own. Time passes only while no handler outlasts its
`handlerTimeoutMs`; a handler takes as long as it likes within that.

A batch remembers when it was delivered. Nothing in the program reads that field.
-/
namespace BoilerplateExpress.Redis

/-- What `createStreamWorker` throws; the text of a `RangeError` may end in a number. -/
inductive OptionsError where
  | message (text : String)
  | received (error : RangeError)
  deriving DecidableEq, Repr

structure StreamWorkerOptions where
  key : Text
  group : Text
  consumer : Text
  batchSize : Option ℚ := none
  blockMs : Option ℚ := none
  handlerTimeoutMs : Option ℚ := none
  minIdleMs : Option ℚ := none
  maxDeliveries : Option ℚ := none
  claimBatchSize : Option ℚ := none
  reclaimIntervalMs : Option ℚ := none
  errorBackoffMs : Option ℚ := none
  maxErrorBackoffMs : Option ℚ := none

structure ResolvedOptions where
  key : Text
  group : Text
  consumer : Text
  batchSize : ℕ+
  blockMs : ℕ+
  handlerTimeoutMs : ℕ+
  minIdleMs : ℕ+
  maxDeliveries : ℕ+
  claimBatchSize : ℕ+
  reclaimIntervalMs : ℕ+
  errorBackoffMs : ℕ+
  maxErrorBackoffMs : ℕ+
  idle_exceeds_timeout : handlerTimeoutMs < minIdleMs

def requireNonEmpty (name : String) (value : Text) : Except OptionsError Unit :=
  if value = [] then .error (.message ("createStreamWorker: " ++ name ++ " must not be empty"))
  else .ok ()

def requirePositiveInteger (name : String) (value : ℚ) : Except OptionsError ℕ+ :=
  if h : value.den = 1 ∧ 0 < value.num then .ok ⟨value.num.toNat, by omega⟩
  else .error (.received
    ⟨"createStreamWorker: " ++ name ++ " must be a positive integer, received ", value⟩)

def idleTooShort (minIdleMs handlerTimeoutMs : ℕ+) : OptionsError :=
  .message ("createStreamWorker: minIdleMs (" ++ toString (minIdleMs : ℕ) ++
    ") must exceed handlerTimeoutMs (" ++ toString (handlerTimeoutMs : ℕ) ++
    "); otherwise an entry still being processed by a healthy consumer becomes claimable " ++
    "and runs twice concurrently")

def resolveOptions (options : StreamWorkerOptions) : Except OptionsError ResolvedOptions := do
  requireNonEmpty "key" options.key
  requireNonEmpty "group" options.group
  requireNonEmpty "consumer" options.consumer
  let batchSize ← requirePositiveInteger "batchSize" (options.batchSize.getD 16)
  let blockMs ← requirePositiveInteger "blockMs" (options.blockMs.getD 2000)
  let handlerTimeoutMs ←
    requirePositiveInteger "handlerTimeoutMs" (options.handlerTimeoutMs.getD 10000)
  let minIdleMs ← requirePositiveInteger "minIdleMs" (options.minIdleMs.getD 30000)
  let maxDeliveries ← requirePositiveInteger "maxDeliveries" (options.maxDeliveries.getD 5)
  let claimBatchSize ← requirePositiveInteger "claimBatchSize" (options.claimBatchSize.getD 16)
  let reclaimIntervalMs ←
    requirePositiveInteger "reclaimIntervalMs" (options.reclaimIntervalMs.getD 5000)
  let errorBackoffMs ← requirePositiveInteger "errorBackoffMs" (options.errorBackoffMs.getD 500)
  let maxErrorBackoffMs ←
    requirePositiveInteger "maxErrorBackoffMs" (options.maxErrorBackoffMs.getD 30000)
  if h : handlerTimeoutMs < minIdleMs then
    return ⟨options.key, options.group, options.consumer, batchSize, blockMs, handlerTimeoutMs,
      minIdleMs, maxDeliveries, claimBatchSize, reclaimIntervalMs, errorBackoffMs,
      maxErrorBackoffMs, h⟩
  else throw (idleTooShort minIdleMs handlerTimeoutMs)

/-- The options of a worker that leaves every number to its default. -/
def defaultOptions (consumer : Text) : ResolvedOptions where
  key := ['s']
  group := ['g']
  consumer := consumer
  batchSize := Nat.toPNat' 16
  blockMs := Nat.toPNat' 2000
  handlerTimeoutMs := Nat.toPNat' 10000
  minIdleMs := Nat.toPNat' 30000
  maxDeliveries := Nat.toPNat' 5
  claimBatchSize := Nat.toPNat' 16
  reclaimIntervalMs := Nat.toPNat' 5000
  errorBackoffMs := Nat.toPNat' 500
  maxErrorBackoffMs := Nat.toPNat' 30000
  idle_exceeds_timeout := by decide

lemma resolveOptions_default {consumer} (h : consumer ≠ []) :
    resolveOptions { key := ['s'], group := ['g'], consumer := consumer } =
      .ok (defaultOptions consumer) := by
  cases consumer with
  | nil => exact absurd rfl h
  | cons c rest => rfl

inductive ParkReason where
  | deliveryCeiling
  | undecodable
  deriving DecidableEq, Repr

structure ParkedEntry where
  entry : StreamEntry
  reason : ParkReason
  lastError : Text
  deliveryCount : ℕ

structure StreamTickOutcome where
  read : ℕ := 0
  reclaimed : ℕ := 0
  handled : ℕ := 0
  failed : ℕ := 0
  parked : ℕ := 0

/-- The entries a `processEntries` call has still to take up. -/
structure Batch where
  entries : List StreamEntry
  deliveryCounts : List (EntryId × ℕ)
  reclaimed : Bool
  deliveredAt : ℕ

/-- A fresh read is the first delivery. -/
def Batch.deliveryCount (batch : Batch) (id : EntryId) : ℕ :=
  (batch.deliveryCounts.lookup id).getD 1

inductive WorkerPhase where
  | idle
  /-- `XPENDING` comes next. -/
  | reclaiming
  /-- `XCLAIM` comes next. -/
  | claiming (pending : List PendingEntry)
  /-- `XREADGROUP` comes next. -/
  | reading
  | processing (batch : Batch)
  /-- The handler is in progress. -/
  | handling (entry : StreamEntry) (startedAt : ℕ) (batch : Batch)
  /-- The handler has resolved; `XACK` comes next. -/
  | acking (entry : StreamEntry) (batch : Batch)
  /-- `onPark` is in progress. -/
  | parking (parked : ParkedEntry) (batch : Batch)
  /-- The entry is parked; `XACK` comes next. -/
  | parkAcking (parked : ParkedEntry) (batch : Batch)

/-- When the handler in progress was started. -/
def WorkerPhase.startedAt : WorkerPhase → Option ℕ
  | .handling _ startedAt _ => some startedAt
  | _ => none

structure Worker where
  phase : WorkerPhase := .idle
  lastReclaimAt : Option ℤ := none
  outcome : StreamTickOutcome := {}

structure GroupState (ι : Type) where
  now : ℕ
  stream : MemoryStream
  workers : ι → Worker

inductive GroupAction (ι : Type) where
  | advance (ms : ℕ)
  | append (fields : List (Text × Text)) (maxLen : Option ℕ)
  | tick (w : ι) (reading : ℤ)
  | runOnce (w : ι) (shouldReclaim : Bool)
  | pendingEntries (w : ι)
  | claim (w : ι)
  | readGroup (w : ι)
  | next (w : ι)
  | resolve (w : ι)
  | reject (w : ι) (error : Text)
  | ack (w : ι)
  | parked (w : ι)
  /-- The command or the `onPark` in progress fails, which ends the tick. -/
  | fail (w : ι)

/-- The worker whose tick a step brings forward. -/
def GroupAction.turnOf {ι : Type} : GroupAction ι → Option ι
  | .pendingEntries w => some w
  | .claim w => some w
  | .readGroup w => some w
  | .next w => some w
  | .resolve w => some w
  | .reject w _ => some w
  | .ack w => some w
  | .parked w => some w
  | _ => none

namespace Worker

def startTick (x : Worker) (shouldReclaim : Bool) : Worker :=
  { x with phase := if shouldReclaim then .reclaiming else .reading, outcome := {} }

/-- It is time to reclaim; a worker that never did has waited forever. -/
def shouldReclaim (options : ResolvedOptions) (x : Worker) (reading : ℤ) : Bool :=
  x.lastReclaimAt.all (fun last => decide ((options.reclaimIntervalMs : ℕ) ≤ reading - last))

def tick (options : ResolvedOptions) (x : Worker) (reading : ℤ) : Worker :=
  if x.shouldReclaim options reading then
    { x with lastReclaimAt := some reading }.startTick true
  else x.startTick false

def take (x : Worker) (batch : Batch) : Worker :=
  { x with
    phase := .processing batch
    outcome :=
      if batch.reclaimed then
        { x.outcome with reclaimed := x.outcome.reclaimed + batch.entries.length }
      else { x.outcome with read := x.outcome.read + batch.entries.length } }

/-- The next iteration of `processEntries`, or what the tick does after its batch. -/
def next {E : Type} (decode : StreamEntry → Except Text E) (now : ℕ) (batch : Batch) :
    WorkerPhase :=
  match batch.entries with
  | [] => if batch.reclaimed then .reading else .idle
  | entry :: rest =>
    match decode entry with
    | .error error =>
      .parking ⟨entry, .undecodable, error, batch.deliveryCount entry.id⟩
        { batch with entries := rest }
    | .ok _ => .handling entry now { batch with entries := rest }

/-- A handler failed: the entry is parked at the ceiling, and else left pending. -/
def reject (options : ResolvedOptions) (x : Worker) (entry : StreamEntry) (batch : Batch)
    (error : Text) : Worker :=
  if options.maxDeliveries ≤ batch.deliveryCount entry.id then
    { x with
      phase := .parking
        ⟨entry, .deliveryCeiling, error, batch.deliveryCount entry.id⟩ batch }
  else
    { x with
      phase := .processing batch
      outcome := { x.outcome with failed := x.outcome.failed + 1 } }

def acknowledged (x : Worker) (batch : Batch) (parked : Bool) : Worker :=
  { x with
    phase := .processing batch
    outcome :=
      if parked then { x.outcome with parked := x.outcome.parked + 1 }
      else { x.outcome with handled := x.outcome.handled + 1 } }

end Worker

namespace GroupState

def setWorker {ι : Type} [DecidableEq ι] (s : GroupState ι) (w : ι) (x : Worker) :
    GroupState ι :=
  { s with workers := Function.update s.workers w x }

def setPhase {ι : Type} [DecidableEq ι] (s : GroupState ι) (w : ι) (phase : WorkerPhase) :
    GroupState ι :=
  s.setWorker w { s.workers w with phase := phase }

/-- No handler in progress would outlast its timeout. -/
def mayAdvance {ι : Type} (options : ι → ResolvedOptions) (s : GroupState ι) (ms : ℕ) : Prop :=
  ∀ w, ∀ startedAt ∈ (s.workers w).phase.startedAt,
    s.now + ms ≤ startedAt + (options w).handlerTimeoutMs

instance {ι : Type} [Fintype ι] (options) (s : GroupState ι) (ms) :
    Decidable (s.mayAdvance options ms) := by
  unfold GroupState.mayAdvance
  infer_instance

end GroupState

def stepGroup {ι E : Type} [Fintype ι] [DecidableEq ι] (decode : StreamEntry → Except Text E)
    (options : ι → ResolvedOptions) (s : GroupState ι) :
    GroupAction ι → Option (GroupState ι)
  | .advance ms => if s.mayAdvance options ms then some { s with now := s.now + ms } else none
  | .append fields maxLen => some { s with stream := s.stream.append s.now fields maxLen }
  | .tick w reading =>
    match (s.workers w).phase with
    | .idle => some (s.setWorker w ((s.workers w).tick (options w) reading))
    | _ => none
  | .runOnce w shouldReclaim =>
    match (s.workers w).phase with
    | .idle => some (s.setWorker w ((s.workers w).startTick shouldReclaim))
    | _ => none
  | .pendingEntries w =>
    match (s.workers w).phase with
    | .reclaiming =>
      match s.stream.pendingEntries s.now (options w).minIdleMs (options w).claimBatchSize
        none with
      | [] => some (s.setPhase w .reading)
      | pending => some (s.setPhase w (.claiming pending))
    | _ => none
  | .claim w =>
    match (s.workers w).phase with
    | .claiming pending =>
      let r := s.stream.claim s.now (options w).consumer (options w).minIdleMs
        (pending.map PendingEntry.id)
      let counts := pending.map (fun p => (p.id, p.deliveryCount + 1))
      some ({ s with stream := r.1 }.setWorker w
        ((s.workers w).take ⟨r.2, counts, true, s.now⟩))
    | _ => none
  | .readGroup w =>
    match (s.workers w).phase with
    | .reading =>
      let r := s.stream.readGroup s.now (options w).consumer (options w).batchSize
      some ({ s with stream := r.1 }.setWorker w
        ((s.workers w).take ⟨r.2, [], false, s.now⟩))
    | _ => none
  | .next w =>
    match (s.workers w).phase with
    | .processing batch => some (s.setPhase w (Worker.next decode s.now batch))
    | _ => none
  | .resolve w =>
    match (s.workers w).phase with
    | .handling entry _ batch => some (s.setPhase w (.acking entry batch))
    | _ => none
  | .reject w error =>
    match (s.workers w).phase with
    | .handling entry _ batch =>
      some (s.setWorker w ((s.workers w).reject (options w) entry batch error))
    | _ => none
  | .ack w =>
    match (s.workers w).phase with
    | .acking entry batch =>
      some ({ s with stream := s.stream.ack entry.id }.setWorker w
        ((s.workers w).acknowledged batch false))
    | .parkAcking parked batch =>
      some ({ s with stream := s.stream.ack parked.entry.id }.setWorker w
        ((s.workers w).acknowledged batch true))
    | _ => none
  | .parked w =>
    match (s.workers w).phase with
    | .parking parked batch => some (s.setPhase w (.parkAcking parked batch))
    | _ => none
  | .fail w =>
    match (s.workers w).phase with
    | .reclaiming => some (s.setPhase w .idle)
    | .claiming _ => some (s.setPhase w .idle)
    | .reading => some (s.setPhase w .idle)
    | .acking _ _ => some (s.setPhase w .idle)
    | .parking _ _ => some (s.setPhase w .idle)
    | .parkAcking _ _ => some (s.setPhase w .idle)
    | _ => none

def GroupState.start {ι : Type} (stream : MemoryStream) : GroupState ι := ⟨0, stream, fun _ => {}⟩

end BoilerplateExpress.Redis

import BoilerplateExpress.Errors
import BoilerplateExpress.Machine

/-!
# The worker pool

`WorkerPool` of `workers/worker-pool.ts`: a bounded number of threads, a bounded
queue, a graceful drain. A worker is named by its number in the order of their
creation and a call of `run` by its number in the order of the calls. The state
keeps, for each call, the calls of its promise's resolve and reject.

The threads do as they like: every worker, also one that was retired, may send any
message, fail or exit at any time. `createWorker` and `postMessage` may throw. An
exception that leaves an event listener, or a promise nobody awaits, ends the process.
-/
namespace BoilerplateExpress.Workers

structure PoolSettings where
  size : ℕ
  maxQueueDepth : ℕ
  taskTimeoutMs : ℕ
  retryAfterSeconds : ℕ
  size_pos : 0 < size
  taskTimeoutMs_pos : 0 < taskTimeoutMs
  retryAfterSeconds_pos : 0 < retryAfterSeconds

def assertPositiveInteger (name : String) (value : ℚ) : Except RangeError { n : ℕ // 1 ≤ n } :=
  checkInteger ("WorkerPool: " ++ name ++ " must be a positive integer, received ") 1 value

def assertNonNegativeInteger (name : String) (value : ℚ) : Except RangeError { n : ℕ // 0 ≤ n } :=
  checkInteger ("WorkerPool: " ++ name ++ " must be a non-negative integer, received ") 0 value

/-- The constructor's checks, in its order. -/
def PoolSettings.check (size maxQueueDepth taskTimeoutMs : ℚ) (retryAfterSeconds : ℚ := 1) :
    Except RangeError PoolSettings := do
  let ⟨size, hsize⟩ ← assertPositiveInteger "size" size
  let maxQueueDepth ← assertNonNegativeInteger "maxQueueDepth" maxQueueDepth
  let ⟨taskTimeoutMs, htimeout⟩ ← assertPositiveInteger "taskTimeoutMs" taskTimeoutMs
  let ⟨retryAfterSeconds, hretry⟩ ← assertPositiveInteger "retryAfterSeconds" retryAfterSeconds
  return ⟨size, maxQueueDepth, taskTimeoutMs, retryAfterSeconds, hsize, htimeout, hretry⟩

/-- `opened` is the source's `'open'`. -/
inductive PoolState where
  | opened
  | draining
  | closed
  deriving DecidableEq, Repr

/-- What survives of an error when it crosses a thread boundary. -/
structure SerializedError where
  name : String
  message : String
  stack : Option String := none
  code : Option String := none
  statusCode : Option ℚ := none
  deriving DecidableEq, Repr

/-- Why a promise of `run` is rejected. -/
inductive Rejection where
  | poolClosed (state : PoolState)
  | queueFull (queueDepth retryAfterSeconds : ℕ)
  | taskFailed (task : String) (error : SerializedError)
  | timedOut (task : String) (timeoutMs : ℕ)
  | crashed (task : String) (cause : String)
  /-- What `postMessage` threw. -/
  | notCloneable
  /-- What `createWorker` threw. -/
  | notCreated
  deriving DecidableEq, Repr

/-- A resolve, with the id of the response that caused it, or a reject. -/
inductive Settlement (V : Type) where
  | resolved (responseId : ℚ) (value : V)
  | rejected (error : Rejection)

/-- One `run`. `taskId` is the id it was dispatched under. -/
structure RunCall (V : Type) where
  accepted : Bool
  taskId : Option ℕ
  settlements : List (Settlement V)

structure QueuedTask (P : Type) where
  task : String
  payload : P
  timeoutMs : ℕ
  call : ℕ

structure InFlightTask where
  id : ℕ
  task : String
  timeoutMs : ℕ
  call : ℕ
  deriving DecidableEq

structure WorkerRecord where
  current : Option InFlightTask
  retired : Bool
  deriving DecidableEq

structure TaskRequest (P : Type) where
  id : ℚ
  task : String
  payload : P

/-- What a thread sends, before it is known to be a response. `id` is a number. -/
structure Inbound (V : Type) where
  isObject : Bool
  kind : Option String
  id : Option ℚ
  ok : Option Bool
  value : V
  error : Option SerializedError

def isTaskResponse {V : Type} (value : Inbound V) : Bool :=
  value.isObject && value.kind == some "result" && value.id.isSome && value.ok.isSome

/-- The promise `drain` hands out. -/
inductive Drained where
  | none
  | pending
  | resolved
  deriving DecidableEq

structure Pool (P V : Type) where
  /-- Every worker created so far, by its number. -/
  records : List WorkerRecord
  workers : List ℕ
  idle : List ℕ
  queue : List (QueuedTask P)
  state : PoolState
  nextTaskId : ℕ
  drained : Drained
  /-- A `destroyAll` is under way. -/
  destroying : Bool
  /-- How often `createWorker` was called. -/
  created : ℕ
  calls : List (RunCall V)
  /-- The requests the threads were sent. -/
  sent : List (ℕ × TaskRequest P)
  /-- A promise handed out by `drain` has resolved. -/
  drainResolved : Bool
  terminated : Bool
  down : Bool

/-- Which calls of `createWorker`, by their number, and which requests, by their id,
throw. -/
structure Threads where
  createWorkerThrows : ℕ → Bool
  postMessageThrows : ℕ → Bool

namespace Pool

variable {P V : Type}

def create : Pool P V where
  records := []
  workers := []
  idle := []
  queue := []
  state := .opened
  nextTaskId := 1
  drained := .none
  destroying := false
  created := 0
  calls := []
  sent := []
  drainResolved := false
  terminated := false
  down := false

/-- A call of the resolve or the reject of a promise. -/
def settleCall (s : Pool P V) (call : ℕ) (settlement : Settlement V) : Pool P V :=
  { s with
    calls := s.calls.modify call (fun c => { c with settlements := c.settlements ++ [settlement] }) }

def setCurrent (s : Pool P V) (worker : ℕ) (current : Option InFlightTask) : Pool P V :=
  { s with records := s.records.modify worker (fun record => { record with current := current }) }

def isRetired (s : Pool P V) (worker : ℕ) : Bool :=
  (s.records[worker]?).any WorkerRecord.retired

def currentOf (s : Pool P V) (worker : ℕ) : Option InFlightTask :=
  (s.records[worker]?).bind WorkerRecord.current

/-- The part of `destroyAll` before its await. -/
def destroyAll (s : Pool P V) : Pool P V :=
  { s with
    records := s.records.mapIdx (fun worker record =>
      if worker ∈ s.workers then { record with retired := true } else record)
    workers := []
    idle := []
    destroying := true }

def settleDrainIfIdle (s : Pool P V) : Pool P V :=
  if s.state ≠ .draining then s
  else if s.queue ≠ [] then s
  else if s.workers.any (fun worker => (s.currentOf worker).isSome) then s
  else { s with state := .closed }.destroyAll

inductive Acquired where
  | worker (worker : ℕ)
  | none
  | threw

variable (settings : PoolSettings) (threads : Threads)

/-- An idle worker, a newly spawned one, or none when at capacity. -/
def acquireWorker (s : Pool P V) : Acquired × Pool P V :=
  match s.idle.getLast? with
  | some worker => (.worker worker, { s with idle := s.idle.dropLast })
  | none =>
    if settings.size ≤ s.workers.length then (.none, s)
    else if threads.createWorkerThrows s.created then
      (.threw, { s with created := s.created + 1 })
    else
      (.worker s.records.length, { s with
        records := s.records ++ [⟨none, false⟩]
        workers := s.workers ++ [s.records.length]
        created := s.created + 1 })

/-- Takes a worker out of rotation. -/
def markRetired (s : Pool P V) (worker : ℕ) : Pool P V :=
  { s with
    records := s.records.modify worker (fun record => { record with retired := true })
    workers := s.workers.erase worker
    idle := s.idle.erase worker }

section WithPump

/-! The functions that call `pump` and are called by it. The flag of a result says
that an exception was thrown. -/

variable (pump : Pool P V → Pool P V × Bool)

/-- `retire` up to its await. -/
def retireWith (s : Pool P V) (worker : ℕ) : Pool P V × Bool :=
  if s.isRetired worker then (s, false)
  else
    match pump (s.markRetired worker) with
    | (s, true) => (s, true)
    | (s, false) => (s.settleDrainIfIdle, false)

def releaseWith (s : Pool P V) (worker : ℕ) : Pool P V × Bool :=
  if s.isRetired worker then (s, false)
  -- `retire` is async: what it throws does not come back to the caller
  else if s.state = .closed then ((retireWith pump s worker).1, false)
  else
    match pump { s with idle := s.idle ++ [worker] } with
    | (s, true) => (s, true)
    | (s, false) => (s.settleDrainIfIdle, false)

def assign (s : Pool P V) (worker : ℕ) (queued : QueuedTask P) : Pool P V :=
  { s with
    nextTaskId := s.nextTaskId + 1
    records := s.records.modify worker (fun record => { record with
      current := some ⟨s.nextTaskId, queued.task, queued.timeoutMs, queued.call⟩ })
    calls := s.calls.modify queued.call (fun c => { c with taskId := some s.nextTaskId }) }

def dispatchWith (s : Pool P V) (worker : ℕ) (queued : QueuedTask P) : Pool P V × Bool :=
  if threads.postMessageThrows s.nextTaskId then
    releaseWith pump (((s.assign worker queued).setCurrent worker none).settleCall queued.call
      (.rejected .notCloneable)) worker
  else
    ({ s.assign worker queued with
        sent := s.sent ++ [(worker, ⟨s.nextTaskId, queued.task, queued.payload⟩)] }, false)

end WithPump

/-- Dispatches queued tasks while there is anywhere to put them. Every turn takes one
task off the queue, so the length of the queue is enough fuel. -/
def pumpFor : ℕ → Pool P V → Pool P V × Bool
  | 0, s => (s, false)
  | fuel + 1, s =>
    match s.queue with
    | [] => (s, false)
    | queued :: rest =>
      if s.state = .closed then (s, false)
      else
        match s.acquireWorker settings threads with
        | (.none, s) => (s, false)
        | (.threw, s) => (s, true)
        | (.worker worker, s) =>
          match dispatchWith threads (pumpFor fuel) { s with queue := rest } worker queued with
          | (s, true) => (s, true)
          | (s, false) => pumpFor fuel s

def pump (s : Pool P V) : Pool P V × Bool := pumpFor settings threads s.queue.length s

/-- An exception nobody catches. -/
def orDown (result : Pool P V × Bool) : Pool P V :=
  if result.2 then { result.1 with down := true } else result.1

/-- `run`: the promise of a new call. What its executor throws rejects the promise,
unless it is settled already. -/
def run (s : Pool P V) (task : String) (payload : P) (timeoutMs : Option ℕ) : Pool P V :=
  let call := s.calls.length
  let queued : QueuedTask P := ⟨task, payload, timeoutMs.getD settings.taskTimeoutMs, call⟩
  let refuse (s : Pool P V) (error : Rejection) : Pool P V :=
    { s with calls := s.calls ++ [⟨false, none, [.rejected error]⟩] }
  let accept (s : Pool P V) : Pool P V := { s with calls := s.calls ++ [⟨true, none, []⟩] }
  if s.state ≠ .opened then refuse s (.poolClosed s.state)
  else
    match s.acquireWorker settings threads with
    | (.threw, s) => refuse s .notCreated
    | (.worker worker, s) =>
      -- when `dispatch` throws, it has rejected the promise before
      (dispatchWith threads (pump settings threads) (accept s) worker queued).1
    | (.none, s) =>
      if settings.maxQueueDepth ≤ s.queue.length then
        refuse s (.queueFull s.queue.length settings.retryAfterSeconds)
      else { accept s with queue := s.queue ++ [queued] }

def drain (s : Pool P V) : Pool P V :=
  if s.state = .closed then { s with drainResolved := true }
  else if s.drained = .none then
    { s with state := .draining, drained := .pending }.settleDrainIfIdle
  else s

/-- Rejects the tasks that were waiting. -/
def rejectQueued : List (QueuedTask P) → Pool P V → Pool P V
  | [], s => s
  | queued :: rest, s =>
    rejectQueued rest (s.settleCall queued.call (.rejected (.poolClosed .closed)))

/-- Rejects the tasks that were running. -/
def rejectRunning : List ℕ → Pool P V → Pool P V
  | [], s => s
  | worker :: rest, s =>
    match s.currentOf worker with
    | none => rejectRunning rest s
    | some current =>
      rejectRunning rest ((s.setCurrent worker none).settleCall current.call
        (.rejected (.poolClosed .closed)))

/-- `terminate` up to its await. -/
def terminate (s : Pool P V) : Pool P V :=
  if s.state = .closed then s
  else
    let s := { s with state := .closed, terminated := true }
    let s := rejectQueued s.queue { s with queue := [] }
    (rejectRunning s.workers s).destroyAll

def onMessage (s : Pool P V) (worker : ℕ) (value : Inbound V) : Pool P V :=
  if isTaskResponse value = false then s
  else
    match s.currentOf worker, value.id with
    | some current, some id =>
      if (current.id : ℚ) ≠ id then s
      else
        let s := s.setCurrent worker none
        if value.ok = some true then
          orDown (releaseWith (pump settings threads)
            (s.settleCall current.call (.resolved id value.value)) worker)
        else
          match value.error with
          -- the error is read without a check: a `TypeError`
          | none => { s with down := true }
          | some error =>
            orDown (releaseWith (pump settings threads)
              (s.settleCall current.call (.rejected (.taskFailed current.task error))) worker)
    | _, _ => s

def onTimeout (s : Pool P V) (worker id : ℕ) : Pool P V :=
  match s.currentOf worker with
  | none => s
  | some current =>
    if current.id ≠ id then s
    else
      orDown (retireWith (pump settings threads)
        ((s.setCurrent worker none).settleCall current.call
          (.rejected (.timedOut current.task current.timeoutMs))) worker)

def onWorkerFailure (s : Pool P V) (worker : ℕ) (cause : String) : Pool P V :=
  if s.isRetired worker then s
  else
    match s.currentOf worker with
    | none => orDown (retireWith (pump settings threads) s worker)
    | some current =>
      orDown (retireWith (pump settings threads)
        ((s.setCurrent worker none).settleCall current.call
          (.rejected (.crashed current.task cause))) worker)

/-- `destroyAll` is through, and the drain that waited for it resolves. -/
def destroyed (s : Pool P V) : Pool P V :=
  if s.drained = .pending then
    { s with destroying := false, drained := .resolved, drainResolved := true }
  else { s with destroying := false }

inductive Action (P V : Type) where
  | run (task : String) (payload : P) (timeoutMs : Option ℕ)
  | drain
  | terminate
  | message (worker : ℕ) (value : Inbound V)
  | timeout (worker id : ℕ)
  | failure (worker : ℕ) (cause : String)
  | destroyed

def step (s : Pool P V) (action : Action P V) : Option (Pool P V) :=
  if s.down then none
  else
    match action with
    | .run task payload timeoutMs => some (s.run settings threads task payload timeoutMs)
    | .drain => some s.drain
    | .terminate => some s.terminate
    | .message worker value =>
      if worker < s.records.length then some (s.onMessage settings threads worker value) else none
    | .timeout worker id =>
      if worker < s.records.length then some (s.onTimeout settings threads worker id) else none
    | .failure worker cause =>
      if worker < s.records.length then some (s.onWorkerFailure settings threads worker cause)
      else none
    | .destroyed => if s.destroying then some s.destroyed else none

end Pool

end BoilerplateExpress.Workers

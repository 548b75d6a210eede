import BoilerplateExpress.Backoff
import BoilerplateExpress.Errors
import BoilerplateExpress.Machine
import BoilerplateExpress.Outbox.Store

/-!
# Relays of the outbox

`runOutboxBatch` and `runOutboxRelay` (`outbox/relay.ts`) for any number of relays on one
table. One batch is one transaction: it claims rows, dispatches the messages one after
another, records each outcome and commits. Every statement, every start and every end of a
dispatch is one step.

A transaction may be rolled back at any moment; the relay learns of it at its next statement. A
dispatch that times out is not cancelled and may settle much later. Nothing in the program reads
the fields of `History`.
-/
namespace BoilerplateExpress.Outbox

structure OutboxRelayOptions where
  batchSize : Option ℚ := none
  maxBatchesPerTick : Option ℚ := none
  maxAttempts : Option ℚ := none
  baseDelayMs : Option ℚ := none
  maxDelayMs : Option ℚ := none

structure RelayOptions where
  batchSize : ℕ+
  maxBatchesPerTick : ℕ+
  maxAttempts : ℕ+
  baseDelayMs : ℚ
  maxDelayMs : ℚ

def requireAtLeastOne (name : String) (value : ℚ) : Except RangeError ℕ+ :=
  if value.den = 1 ∧ 0 < value.num then .ok value.num.toNat.toPNat'
  else .error ⟨name ++ " must be an integer >= 1, received ", value⟩

/-- The checks of `runOutboxRelay`, `runOutboxBatch` and `claimDue`, in the order in which
they are made. -/
def resolveRelayOptions (options : OutboxRelayOptions) : Except RangeError RelayOptions := do
  let maxBatchesPerTick ← requireAtLeastOne "runOutboxRelay: maxBatchesPerTick"
    (options.maxBatchesPerTick.getD 5)
  let maxAttempts ← requireAtLeastOne "runOutboxBatch: maxAttempts" (options.maxAttempts.getD 8)
  let batchSize ← requireAtLeastOne "claimDue: limit" (options.batchSize.getD 20)
  return ⟨batchSize, maxBatchesPerTick, maxAttempts, options.baseDelayMs.getD 500,
    options.maxDelayMs.getD 60000⟩

structure OutboxRelayOutcome where
  claimed : ℕ := 0
  delivered : ℕ := 0
  rescheduled : ℕ := 0
  deadLettered : ℕ := 0
  deriving DecidableEq, Repr

/-- How a dispatch ends for its relay. -/
inductive DispatchResult where
  | delivered
  | failed (reason : Text)
  /-- The relay stops waiting; the dispatch goes on. -/
  | timedOut (reason : Text)

inductive RelayPhase where
  | idle
  /-- `claimDue` comes next. -/
  | claiming
  /-- The head of the loop over the messages. -/
  | looping (rest : List OutboxMessage)
  | dispatching (message : OutboxMessage) (rest : List OutboxMessage)
  /-- The statement that records the outcome comes next. -/
  | marking (message : OutboxMessage) (mark : Mark) (rest : List OutboxMessage)

/-- The messages whose outcome is not recorded yet. -/
def RelayPhase.remaining : RelayPhase → List OutboxMessage
  | .looping rest => rest
  | .dispatching message rest => message :: rest
  | .marking message _ rest => message :: rest
  | _ => []

/-- The outcome that is about to be recorded. -/
def RelayPhase.unrecorded : RelayPhase → List (OutboxMessage × Mark)
  | .marking message mark _ => [(message, mark)]
  | _ => []

/-- The message whose dispatch the relay is waiting for. -/
def RelayPhase.awaits : RelayPhase → Option ℕ
  | .dispatching message _ => some message.seq
  | _ => none

/-- `live` says that the transaction of the batch is open, `startedAt` is its `now()`. -/
structure Relay where
  phase : RelayPhase := .idle
  live : Bool := false
  startedAt : ℤ := 0
  batchesLeft : ℕ := 0
  claimed : ℕ := 0
  done : List (OutboxMessage × Mark) := []
  total : OutboxRelayOutcome := {}

namespace Relay

/-- The messages whose rows the transaction has locked. -/
def held (x : Relay) : List OutboxMessage := x.done.map Prod.fst ++ x.phase.remaining

/-- The outcomes of the batch, recorded or not. -/
def outcomes (x : Relay) : List (OutboxMessage × Mark) := x.done ++ x.phase.unrecorded

/-- `BEGIN` of the next batch. -/
def beginBatch (x : Relay) (now : ℤ) (batchesLeft : ℕ) : Relay :=
  { x with
    phase := .claiming
    live := true
    startedAt := now
    batchesLeft := batchesLeft
    claimed := 0
    done := [] }

def addOutcome (x : Relay) : OutboxRelayOutcome :=
  { claimed := x.total.claimed + x.claimed
    delivered := x.total.delivered + x.done.countP (fun p => p.2.isRemove)
    rescheduled := x.total.rescheduled + x.done.countP (fun p => p.2.isReschedule)
    deadLettered := x.total.deadLettered + x.done.countP (fun p => p.2.isDeadLetter) }

/-- After the commit: another batch if this one was full, or the end of the tick. -/
def afterCommit (options : RelayOptions) (x : Relay) (now : ℤ) : Relay :=
  if x.claimed < (options.batchSize : ℕ) ∨ x.batchesLeft = 0 then { total := x.addOutcome }
  else { x with total := x.addOutcome }.beginBatch now (x.batchesLeft - 1)

end Relay

/-- The mark of an outcome. A failed dispatch is the next attempt of its message. -/
def markOf (options : RelayOptions) (message : OutboxMessage) (random : Draw) :
    DispatchResult → Mark
  | .delivered => .remove
  | .failed reason => failure reason
  | .timedOut reason => failure reason
where
  failure (reason : Text) : Mark :=
    if (options.maxAttempts : ℕ) ≤ message.attempts + 1 then .deadLetter reason
    else .reschedule
      (fullJitterDelay (message.attempts + 1) options.baseDelayMs options.maxDelayMs random) reason

/-- `reschedule` refuses a negative delay. -/
def Mark.accepted : Mark → Bool
  | .reschedule delayMs _ => decide (0 ≤ delayMs)
  | _ => true

/-- Messages are named by their `seq` here. `failed` has an element for each failed dispatch
whose outcome was committed. -/
structure History (ι : Type) where
  enqueued : List ℕ := []
  succeeded : List ℕ := []
  failed : List ℕ := []
  deadLetters : List (ℕ × ι) := []

/-- `abandoned` has the dispatches that were given up on and have not settled. -/
structure OutboxState (ι : Type) where
  now : ℤ
  rows : Table
  locks : Text → Option ι
  relays : ι → Relay
  abandoned : List (ι × ℕ)
  history : History ι

inductive OutboxAction (ι : Type) where
  | elapse (ms : ℕ)
  /-- A transaction that began at `startedAt` commits a message. -/
  | enqueue (id : Text) (seq : ℕ) (startedAt : ℤ)
  | tick (r : ι)
  | claimDue (r : ι)
  | dispatch (r : ι)
  | settle (r : ι) (result : DispatchResult) (random : Draw)
  | settleLate (r : ι) (seq : ℕ) (delivered : Bool)
  | mark (r : ι)
  | commit (r : ι)
  /-- A call of the store fails, which rolls the batch back and ends the tick. -/
  | fail (r : ι)
  | connectionLost (r : ι)
  | crash (r : ι)

namespace OutboxState

variable {ι : Type} [DecidableEq ι]

def setRelay (s : OutboxState ι) (r : ι) (x : Relay) : OutboxState ι :=
  { s with relays := Function.update s.relays r x }

/-- The end of a transaction. -/
def unlock (s : OutboxState ι) (r : ι) : OutboxState ι :=
  { s with locks := fun id => if s.locks id = some r then none else s.locks id }

def lock (s : OutboxState ι) (r : ι) (ids : List Text) : OutboxState ι :=
  { s with locks := fun id => if id ∈ ids then some r else s.locks id }

/-- The marks of a batch take effect together. -/
def applyBatch (s : OutboxState ι) (r : ι) (startedAt : ℤ) (done : List (OutboxMessage × Mark)) :
    OutboxState ι :=
  { s with
    rows := applyMarks startedAt s.rows done
    history := { s.history with
      failed := (done.filter (fun p => !p.2.isRemove)).map (fun p => p.1.seq) ++ s.history.failed
      deadLetters := (done.filter (fun p => p.2.isDeadLetter)).map (fun p => (p.1.seq, r)) ++
        s.history.deadLetters } }

def commitMarks (s : OutboxState ι) (r : ι) : OutboxState ι :=
  s.applyBatch r (s.relays r).startedAt (s.relays r).done

def succeed (s : OutboxState ι) (seq : ℕ) : OutboxState ι :=
  { s with history := { s.history with succeeded := seq :: s.history.succeeded } }

/-- What the end of a dispatch leaves behind. -/
def settled (s : OutboxState ι) (r : ι) (seq : ℕ) : DispatchResult → OutboxState ι
  | .delivered => s.succeed seq
  | .failed _ => s
  | .timedOut _ => { s with abandoned := (r, seq) :: s.abandoned }

def step (options : ι → RelayOptions) (s : OutboxState ι) : OutboxAction ι → Option (OutboxState ι)
  | .elapse ms => some { s with now := s.now + ms }
  | .enqueue id seq startedAt =>
    if s.rows.get id = none ∧ seq ∉ s.history.enqueued ∧ startedAt ≤ s.now then
      some { s with
        rows := s.rows.set id (enqueued id seq startedAt)
        history := { s.history with enqueued := seq :: s.history.enqueued } }
    else none
  | .tick r =>
    match (s.relays r).phase with
    | .idle =>
      some (s.setRelay r
        ({ total := {} : Relay }.beginBatch s.now ((options r).maxBatchesPerTick - 1)))
    | _ => none
  | .claimDue r =>
    match (s.relays r).phase with
    | .claiming =>
      if (s.relays r).live then
        let rows := claimDue s.rows (fun id => (s.locks id).isSome) (s.relays r).startedAt
          (options r).batchSize
        some ((s.lock r (rows.map OutboxRow.id)).setRelay r { s.relays r with
          phase := .looping (rows.map toMessage)
          claimed := rows.length })
      else none
    | _ => none
  | .dispatch r =>
    match (s.relays r).phase with
    | .looping (message :: rest) =>
      some (s.setRelay r { s.relays r with phase := .dispatching message rest })
    | _ => none
  | .settle r result random =>
    match (s.relays r).phase with
    | .dispatching message rest =>
      some ((s.settled r message.seq result).setRelay r { s.relays r with
        phase := .marking message (markOf (options r) message random result) rest })
    | _ => none
  | .settleLate r seq delivered =>
    if (r, seq) ∈ s.abandoned then
      let s := { s with abandoned := s.abandoned.erase (r, seq) }
      some (if delivered then s.succeed seq else s)
    else none
  | .mark r =>
    match (s.relays r).phase with
    | .marking message mark rest =>
      if (s.relays r).live ∧ mark.accepted then
        some (s.setRelay r { s.relays r with
          phase := .looping rest
          done := (s.relays r).done ++ [(message, mark)] })
      else none
    | _ => none
  | .commit r =>
    match (s.relays r).phase with
    | .looping [] =>
      if (s.relays r).live then
        some (((s.commitMarks r).unlock r).setRelay r
          ((s.relays r).afterCommit (options r) s.now))
      else none
    | _ => none
  | .fail r =>
    match (s.relays r).phase with
    | .claiming => some ((s.unlock r).setRelay r {})
    | .marking _ _ _ => some ((s.unlock r).setRelay r {})
    | .looping [] => some ((s.unlock r).setRelay r {})
    | _ => none
  | .connectionLost r => some ((s.unlock r).setRelay r { s.relays r with live := false })
  | .crash r =>
    some ({ s with abandoned := s.abandoned.filter (fun d => decide (d.1 ≠ r)) }.unlock r
      |>.setRelay r {})

/-- The table is empty and no relay is at work. -/
def init : OutboxState ι := ⟨0, OrderedMap.empty, fun _ => none, fun _ => {}, [], {}⟩

end OutboxState

end BoilerplateExpress.Outbox

import Mathlib.Tactic

/-!
# Middleware in a composed pipeline

`fromRequestHandler` (`lib/pipeline/from-request-handler.ts`) makes a step of a middleware, and
`runSteps` and `handle` (`lib/pipeline/compose.ts`) run the steps of a request one after the other.
A middleware may do anything in any order, so a step is given by the events that happen until the
pipeline goes on, or ever. The first settling of the step's promise stands.
-/
namespace BoilerplateExpress.Pipeline

open List

/-- A value passed to `next`, thrown or rejected with. -/
inductive Reason (ε : Type*) where
  | undefined
  | null
  | route
  | router
  | other (e : ε)

inductive Event (ε : Type*) where
  /-- The handler calls `next(err)`. -/
  | next (err : Reason ε)
  /-- The handler throws before it returns. -/
  | throws (err : Reason ε)
  /-- The promise the handler returned rejects. -/
  | rejects (err : Reason ε)
  /-- The handler sends a response: the headers are sent. -/
  | sends
  /-- The response is handed to the system. -/
  | finish
  /-- The connection closes. -/
  | close

inductive Rejection (ε : Type*) where
  | reason (err : Reason ε)
  | nextRouteUnsupported (signal : Reason ε)

variable {ε : Type*}

/-- The variables of the executor and the promise it settles. -/
structure Adapter (ε : Type*) where
  settled : Bool := false
  listening : Bool := true
  promise : Option (Except (Rejection ε) Unit) := none

namespace Adapter

/-- `resolve` and `reject`: only the first has an effect. -/
def settle (s : Adapter ε) (outcome : Except (Rejection ε) Unit) : Adapter ε :=
  { s with promise := s.promise.or (some outcome) }

def onFinish (s : Adapter ε) : Adapter ε :=
  if s.settled then s else { s with settled := true }.settle (.ok ())

def next (s : Adapter ε) (err : Reason ε) : Adapter ε :=
  let s := { s with listening := false }
  if s.settled then s
  else
    let s := { s with settled := true }
    match err with
    | .undefined => s.settle (.ok ())
    | .null => s.settle (.ok ())
    | .route => s.settle (.error (.nextRouteUnsupported .route))
    | .router => s.settle (.error (.nextRouteUnsupported .router))
    | .other e => s.settle (.error (.reason (.other e)))

/-- What throws in the executor rejects its promise; a rejected promise goes to `next`. Nothing
listens to `close`. -/
def step (s : Adapter ε) : Event ε → Adapter ε
  | .next err => s.next err
  | .throws err => s.settle (.error (.reason err))
  | .rejects err => s.next err
  | .finish => if s.listening then { s with listening := false }.onFinish else s
  | .sends => s
  | .close => s

end Adapter

/-- How the step of `fromRequestHandler` is settled after these events. -/
def fromRequestHandler (events : List (Event ε)) : Option (Except (Rejection ε) Unit) :=
  (events.foldl Adapter.step {}).promise

namespace Event

/-- The handler called `next`, threw or rejected. -/
def signals : Event ε → Bool
  | .next _ => true
  | .throws _ => true
  | .rejects _ => true
  | _ => false

/-- The handler threw or rejected. -/
def fails : Event ε → Bool
  | .throws _ => true
  | .rejects _ => true
  | _ => false

/-- `responseIsOver` from here on. -/
def answers : Event ε → Bool
  | .sends => true
  | .finish => true
  | _ => false

/-- How an event settles a step that is not settled. -/
def outcome (e : Event ε) : Option (Except (Rejection ε) Unit) := (Adapter.step {} e).promise

/-- A failure that `next` does not take for success. -/
def stops : Event ε → Bool
  | .throws _ => true
  | .rejects .undefined => false
  | .rejects .null => false
  | .rejects _ => true
  | _ => false

end Event

/-- What a step does for one request: an adapted middleware, or a step that resolves, rejects or
does neither, with or without an answer of its own. -/
inductive StepRun (ε : Type*) where
  | adapted (events : List (Event ε))
  | plain (outcome : Option (Except (Rejection ε) Unit)) (answers : Bool)

namespace StepRun

def outcome : StepRun ε → Option (Except (Rejection ε) Unit)
  | adapted events => fromRequestHandler events
  | plain outcome _ => outcome

def answers : StepRun ε → Bool
  | adapted events => events.any Event.answers
  | plain _ answers => answers

end StepRun

inductive Verdict (ε : Type*) where
  | waiting
  | answered
  | failed (e : Rejection ε)
  | operation

/-- `runSteps` in `handle`: the number of steps that are started, and what comes after them. -/
def runSteps : List (StepRun ε) → Bool → ℕ × Verdict ε
  | [], ended => (0, if ended then .answered else .operation)
  | step :: rest, ended =>
    if ended then (0, .answered)
    else
      match step.outcome with
      | none => (1, .waiting)
      | some (.error e) => (1, .failed e)
      | some (.ok ()) =>
        let (started, verdict) := runSteps rest step.answers
        (started + 1, verdict)

/-! ## The step of a middleware -/

lemma foldl_step_promise {o} {s} (h : s.promise = some o) (events : List (Event ε)) :
    (events.foldl Adapter.step s).promise = some o := by
  induction events generalizing s with
  | nil => exact h
  | cons e events ih =>
    apply ih
    cases e with
    | next err => cases err <;> simp [Adapter.step, Adapter.next, Adapter.settle, h, apply_ite]
    | throws err => simp [Adapter.step, Adapter.settle, h]
    | rejects err => cases err <;> simp [Adapter.step, Adapter.next, Adapter.settle, h, apply_ite]
    | finish => simp [Adapter.step, Adapter.onFinish, Adapter.settle, h, apply_ite]
    | sends => exact h
    | close => exact h

/-- The first event that settles decides. -/
theorem fromRequestHandler_eq (events : List (Event ε)) :
    fromRequestHandler events = events.findSome? Event.outcome := by
  induction events with
  | nil => rfl
  | cons e events ih =>
    rw [findSome?_cons]
    cases ho : e.outcome with
    | some o => exact foldl_step_promise ho events
    | none =>
      have hstays : Adapter.step {} e = {} := by
        cases e with
        | next err => cases err <;> cases ho
        | rejects err => cases err <;> cases ho
        | sends => rfl
        | close => rfl
        | _ => cases ho
      rw [← ih, fromRequestHandler, foldl_cons, hstays]
      rfl

/-- A step settles once and for all, and exactly when the handler has called `next`, thrown or
rejected, or the response has finished. -/
theorem step_settles_iff_signalled (events : List (Event ε)) :
    ((fromRequestHandler events).isSome ↔ .finish ∈ events ∨ ∃ e ∈ events, e.signals) ∧
      ∀ later, (fromRequestHandler events).isSome →
        fromRequestHandler (events ++ later) = fromRequestHandler events := by
  simp only [fromRequestHandler_eq, findSome?_append]
  refine ⟨?_, fun later h => Option.or_of_isSome h⟩
  rw [findSome?_isSome_iff]
  constructor
  · rintro ⟨e, he, ho⟩
    cases e with
    | finish => exact .inl he
    | sends => cases ho
    | close => cases ho
    | _ => exact .inr ⟨_, he, rfl⟩
  · rintro (he | ⟨e, he, hsig⟩)
    · exact ⟨_, he, rfl⟩
    · refine ⟨e, he, ?_⟩
      cases e with
      | next err => cases err <;> rfl
      | throws err => rfl
      | rejects err => cases err <;> rfl
      | _ => cases hsig

/-- The middleware answers, and the client is gone before the answer is flushed. -/
theorem closed_connection_never_settles :
    ¬ ∀ events : List (Event Unit), .close ∈ events →
      (fromRequestHandler events).isSome ∧ (runSteps [.adapted events] false).2 ≠ .waiting := by
  intro h
  exact (h [.sends, .close] (by simp)).2 rfl

/-! ## The pipeline -/

lemma fails_or_finishes {before : List (Event ε)} {failure : Event ε} (after)
    (hpre : ∀ e ∈ before, e.signals = false) (hstops : failure.stops) :
    (∃ e, fromRequestHandler (before ++ failure :: after) = some (.error e)) ∨
      .finish ∈ before := by
  rw [fromRequestHandler_eq, findSome?_append, findSome?_cons]
  cases hfst : before.findSome? Event.outcome with
  | some o =>
    obtain ⟨e, he, ho⟩ := exists_of_findSome?_eq_some hfst
    have hsig := hpre e he
    cases e with
    | finish => exact .inr he
    | sends => cases ho
    | close => cases ho
    | _ => cases hsig
  | none =>
    refine .inl ?_
    cases failure with
    | throws err => exact ⟨_, rfl⟩
    | rejects err =>
      cases err with
      | undefined => cases hstops
      | null => cases hstops
      | _ => exact ⟨_, rfl⟩
    | _ => cases hstops

/-- A step that fails or answers is the last one. -/
theorem runSteps_last {step : StepRun ε}
    (h : (∃ e, step.outcome = some (.error e)) ∨ step.answers) (post ended) :
    (runSteps (step :: post) ended).1 ≤ 1 ∧ (runSteps (step :: post) ended).2 ≠ .operation := by
  have hended : runSteps post true = (0, .answered) := by cases post <;> rfl
  rw [runSteps]
  split_ifs
  · simp
  · rcases h with ⟨e, he⟩ | hanss
    · simp [he]
    · cases ho : step.outcome with
      | none => simp
      | some outcome =>
        cases outcome with
        | error e => simp
        | ok _ => simp [hanss, hended]

lemma runSteps_stops {step : StepRun ε}
    (h : (∃ e, step.outcome = some (.error e)) ∨ step.answers) (pre post : List (StepRun ε))
    (ended : Bool) : (runSteps (pre ++ step :: post) ended).1 ≤ pre.length + 1 ∧
      (runSteps (pre ++ step :: post) ended).2 ≠ .operation := by
  induction pre generalizing ended with
  | nil => exact runSteps_last h post ended
  | cons step' pre ih =>
    rw [cons_append, runSteps]
    split_ifs
    · simp
    · cases step'.outcome with
      | none => simp
      | some outcome =>
        cases outcome with
        | error e => simp
        | ok _ => exact ⟨Nat.succ_le_succ (ih step'.answers).1, (ih step'.answers).2⟩

/-- `next` takes the other failures for success. -/
lemma resolves_of_not_stops {before after : List (Event ε)} {failure : Event ε}
    (hbefore : ∀ e ∈ before, e.signals = false) (hfails : failure.fails)
    (hnot : failure.stops = false) (hanswers : (before ++ failure :: after).any Event.answers = false) :
    fromRequestHandler (before ++ failure :: after) = some (.ok ()) := by
  have hnone : before.findSome? Event.outcome = none := by
    refine findSome?_eq_none_iff.mpr fun e he => ?_
    have hsig := hbefore e he
    have hans := any_eq_false.mp hanswers e (mem_append_left _ he)
    cases e with
    | close => rfl
    | sends => rfl
    | finish => exact absurd rfl hans
    | _ => cases hsig
  rw [fromRequestHandler_eq, findSome?_append, hnone, findSome?_cons]
  cases failure with
  | throws err => cases hnot
  | rejects err =>
    cases err with
    | undefined => rfl
    | null => rfl
    | _ => cases hnot
  | _ => cases hfails

/-- After a middleware that threw or rejected before it called `next`, no later step and no
operation runs, exactly if it threw, or rejected with a value other than `undefined` and `null`, or
the response is over. -/
theorem failing_middleware_stops_iff (before after : List (Event ε)) (failure : Event ε)
    (hbefore : ∀ e ∈ before, e.signals = false) (hfails : failure.fails) :
    (∀ (pre post : List (StepRun ε)) (ended : Bool),
      (runSteps (pre ++ .adapted (before ++ failure :: after) :: post) ended).1 ≤ pre.length + 1 ∧
        (runSteps (pre ++ .adapted (before ++ failure :: after) :: post) ended).2 ≠ .operation) ↔
      failure.stops ∨ (before ++ failure :: after).any Event.answers := by
  constructor
  · intro h
    by_contra hnot
    simp only [not_or, Bool.not_eq_true] at hnot
    refine (h [] [] false).2 ?_
    have hok := resolves_of_not_stops hbefore hfails hnot.1 hnot.2
    simp [runSteps, StepRun.outcome, StepRun.answers, hok, hnot.2]
  · rintro hstops pre post ended
    refine runSteps_stops ?_ pre post ended
    rcases hstops with hstops | hanswers
    · rcases fails_or_finishes after hbefore hstops with herr | hfin
      · exact .inl herr
      · exact .inr (any_eq_true.mpr ⟨_, mem_append_left _ hfin, rfl⟩)
    · exact .inr hanswers

/-- A middleware between two steps that resolve throws `undefined`. -/
theorem thrown_undefined_stops :
    let resolves : StepRun Unit := .plain (some (.ok ())) false
    let steps := [resolves] ++ .adapted ([] ++ .throws .undefined :: []) :: [resolves]
    (runSteps steps false).1 ≤ 2 ∧ (runSteps steps false).2 ≠ .operation :=
  (failing_middleware_stops_iff [] [] (.throws .undefined) (by simp) rfl).mpr (.inl rfl) [_] _ false

/-- `Promise.reject()` in a middleware: `next(undefined)` lets the request through. -/
theorem rejected_undefined_runs_operation :
    ¬ ∀ err : Reason Unit, (runSteps [.adapted [.rejects err]] false).2 ≠ .operation := by
  intro h
  exact h .undefined rfl

end BoilerplateExpress.Pipeline

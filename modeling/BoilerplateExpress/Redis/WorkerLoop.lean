import BoilerplateExpress.Backoff
import BoilerplateExpress.Redis.StreamWorker

/-!
# The polling loop of a worker

`start`, `tick` and `stop` of `redis/stream.worker.ts` once `start` has resolved, against a
server that answers every command as it likes. The loop waits for one thing at a time: a
command, a handler, `onPark`, or a pause. A turn settles what it waits for and runs the
code up to the next await.

A tick that throws is followed by a pause, except that a missing group is created again
first. That command is awaited outside of any `try`.
-/
namespace BoilerplateExpress.Redis

open List

/-- A rejection: whether it is an `Error`, its message, and its one-line form. -/
structure Failure where
  isError : Bool
  message : Text
  description : Text
  deriving DecidableEq

def isNoGroupError (failure : Failure) : Bool :=
  failure.isError && "NOGROUP".toList.isPrefixOf failure.message

/-- How the operation in progress settles. Each operation reads the part that is its own:
`XPENDING` the list, `XCLAIM` and `XREADGROUP` the entries, the count of `stop` the number. -/
structure Answer where
  failure : Option Failure := none
  pending : List PendingEntry := []
  entries : List StreamEntry := []
  count : ℕ := 0
  now : ℕ := 0
  reading : ℤ := 0
  random : Draw := Draw.zero

def Answer.settled (a : Answer) : Except Failure Unit :=
  match a.failure with
  | none => .ok ()
  | some failure => .error failure

/-- One turn of `runStreamTick`; an error is thrown out of the tick. Nothing is awaited
before the next entry of a batch is taken up. -/
def Worker.answer {E : Type} (decode : StreamEntry → Except Text E) (options : ResolvedOptions)
    (x : Worker) (a : Answer) : Except Failure Worker :=
  match x.phase with
  | .idle => .ok x
  | .reclaiming => do
    a.settled
    .ok { x with
      phase := match a.pending with
        | [] => .reading
        | pending => .claiming pending }
  | .claiming pending => do
    a.settled
    .ok (x.take ⟨a.entries, pending.map (fun p => (p.id, p.deliveryCount + 1)), true, a.now⟩)
  | .reading => do
    a.settled
    .ok (x.take ⟨a.entries, [], false, a.now⟩)
  | .processing batch => .ok { x with phase := Worker.next decode a.now batch }
  | .handling entry _ batch =>
    match a.failure with
    | none => .ok { x with phase := .acking entry batch }
    | some failure => .ok (x.reject options entry batch failure.description)
  | .acking _ batch => do
    a.settled
    .ok (x.acknowledged batch false)
  | .parking parked batch => do
    a.settled
    .ok { x with phase := .parkAcking parked batch }
  | .parkAcking _ batch => do
    a.settled
    .ok (x.acknowledged batch true)

inductive LoopPhase where
  | ticking
  /-- The group is missing; `XGROUP CREATE` is in progress. -/
  | recreating
  | pausing (delayMs : ℤ)
  | ended
  /-- The promise of the loop is rejected. -/
  | died (failure : Failure)

def LoopPhase.alive : LoopPhase → Bool
  | .ticking => true
  | .recreating => true
  | .pausing _ => true
  | .ended => false
  | .died _ => false

inductive StopPhase where
  | notCalled
  | awaitingLoop
  | counting
  | deleting
  | resolved
  | rejected (failure : Failure)

/-- What the loop has done. -/
inductive LoopMark where
  | tick
  | failed
  | paused (delayMs : ℤ)

def LoopMark.isTick : LoopMark → Bool
  | .tick => true
  | _ => false

/-- `trace` has the newest mark first. Nothing in the program reads it. -/
structure LoopState where
  worker : Worker
  phase : LoopPhase
  stopping : Bool
  consecutiveFailures : ℕ
  stop : StopPhase
  trace : List LoopMark

namespace LoopState

/-- The ticks begun so far. -/
def ticks (s : LoopState) : ℕ := s.trace.countP LoopMark.isTick

/-- The head of the loop. -/
def head (options : ResolvedOptions) (s : LoopState) (reading : ℤ) : LoopState :=
  if s.stopping then { s with phase := .ended }
  else { s with
    worker := s.worker.tick options reading
    phase := .ticking
    trace := .tick :: s.trace }

/-- A tick has answered `false`. -/
def pause (options : ResolvedOptions) (s : LoopState) (random : Draw) : LoopState :=
  let failures := s.consecutiveFailures + 1
  let delayMs :=
    fullJitterDelay failures (options.errorBackoffMs : ℕ) (options.maxErrorBackoffMs : ℕ) random
  if s.stopping then { s with consecutiveFailures := failures, phase := .ended }
  else { s with
    consecutiveFailures := failures
    phase := .pausing delayMs
    trace := .paused delayMs :: s.trace }

/-- The `catch` of `tick`. -/
def tickFailed (options : ResolvedOptions) (s : LoopState) (failure : Failure) (random : Draw) :
    LoopState :=
  let s := { s with trace := .failed :: s.trace }
  if isNoGroupError failure then { s with phase := .recreating } else s.pause options random

/-- `stop` once the loop is over. A failure while the consumer is retired is swallowed. -/
def retire (s : LoopState) (a : Answer) : LoopState :=
  match s.stop with
  | .awaitingLoop =>
    match s.phase with
    | .died failure => { s with stop := .rejected failure }
    | _ => { s with stop := .counting }
  | .counting =>
    if a.failure = none ∧ a.count = 0 then { s with stop := .deleting }
    else { s with stop := .resolved }
  | .deleting => { s with stop := .resolved }
  | _ => s

def answer {E : Type} (decode : StreamEntry → Except Text E) (options : ResolvedOptions)
    (s : LoopState) (a : Answer) : LoopState :=
  match s.phase with
  | .ticking =>
    match s.worker.answer decode options a with
    | .error failure => s.tickFailed options failure a.random
    | .ok x =>
      match x.phase with
      | .idle => { s with worker := x, consecutiveFailures := 0 }.head options a.reading
      | _ => { s with worker := x }
  | .recreating =>
    match a.failure with
    | none => s.pause options a.random
    | some failure => { s with phase := .died failure }
  | .pausing _ => s.head options a.reading
  | .ended => s.retire a
  | .died _ => s.retire a

/-- The call of `stop`, which cuts a pause short. -/
def callStop (s : LoopState) : LoopState :=
  { s with
    stopping := true
    stop := .awaitingLoop
    phase := match s.phase with
      | .pausing _ => .ended
      | phase => phase }

/-- `start` has resolved. -/
def start (options : ResolvedOptions) (reading : ℤ) : LoopState :=
  head options ⟨{}, .ticking, false, 0, .notCalled, []⟩ reading

end LoopState

/-- The states of a loop that is given these answers, with a `stop` in turn `stopAt`. -/
def loopRun {E : Type} (decode : StreamEntry → Except Text E) (options : ResolvedOptions)
    (reading : ℤ) (answers : ℕ → Answer) (stopAt : Option ℕ) : ℕ → LoopState
  | 0 => .start options reading
  | k + 1 =>
    let s := loopRun decode options reading answers stopAt k
    if stopAt = some k then s.callStop else s.answer decode options (answers k)

/-- What a tick has in front of it: its remaining commands, and within a batch the
remaining entries with the steps that each of them takes. -/
def Batch.stage (batch : Batch) : ℕ := if batch.reclaimed then 9 else 7

def WorkerPhase.rank : WorkerPhase → ℕ ×ₗ ℕ
  | .reclaiming => toLex (11, 0)
  | .claiming _ => toLex (10, 0)
  | .reading => toLex (8, 0)
  | .processing batch => toLex (batch.stage, 4 * batch.entries.length)
  | .handling _ _ batch => toLex (batch.stage, 4 * batch.entries.length + 3)
  | .parking _ batch => toLex (batch.stage, 4 * batch.entries.length + 2)
  | .acking _ batch => toLex (batch.stage, 4 * batch.entries.length + 1)
  | .parkAcking _ batch => toLex (batch.stage, 4 * batch.entries.length + 1)
  | .idle => toLex (6, 0)

lemma rank_lt_of_stage {β : Type} [LT β] {m n : ℕ} {a b : β} (h : m < n) :
    toLex (m, a) < toLex (n, b) := Prod.Lex.toLex_lt_toLex.mpr (.inl h)

lemma rank_lt_of_rest {β : Type} [LT β] {m : ℕ} {a b : β} (h : a < b) :
    toLex (m, a) < toLex (m, b) := Prod.Lex.toLex_lt_toLex.mpr (.inr ⟨rfl, h⟩)

variable {E : Type}

/-- Taking up an entry, or leaving a finished batch, brings the tick forward. -/
lemma rank_next (decode : StreamEntry → Except Text E) (now batch) :
    (Worker.next decode now batch).rank < (WorkerPhase.processing batch).rank := by
  unfold Worker.next
  cases hents : batch.entries with
  | nil => split_ifs with hrec <;> exact rank_lt_of_stage (by simp [Batch.stage, hrec])
  | cons entry rest =>
    dsimp only
    cases decode entry <;> exact rank_lt_of_rest (by simp [hents]; omega)

variable {a : Answer}

lemma settled_ok {α} {r : Except Failure α} {y} (h : (do a.settled; r) = .ok y) : r = .ok y := by
  unfold Answer.settled at h
  cases hf : a.failure with
  | none =>
    rw [hf] at h
    exact h
  | some failure =>
    rw [hf] at h
    cases h

variable {options : ResolvedOptions}

/-- Every turn of a tick brings it forward. -/
lemma rank_answer {decode : StreamEntry → Except Text E} {x y : Worker}
    (h : x.answer decode options a = .ok y) : x.phase = .idle ∨ y.phase.rank < x.phase.rank := by
  unfold Worker.answer at h
  cases hphase : x.phase with
  | idle => exact .inl rfl
  | reclaiming =>
    rw [hphase] at h
    cases settled_ok h
    right
    cases a.pending <;> exact rank_lt_of_stage (by norm_num)
  | claiming pending =>
    rw [hphase] at h
    cases settled_ok h
    exact .inr (rank_lt_of_stage (by simp [Batch.stage]))
  | reading =>
    rw [hphase] at h
    cases settled_ok h
    exact .inr (rank_lt_of_stage (by simp [Batch.stage]))
  | processing batch =>
    rw [hphase] at h
    cases h
    exact .inr (rank_next decode a.now batch)
  | handling entry startedAt batch =>
    rw [hphase] at h
    right
    cases hf : a.failure with
    | none =>
      rw [hf] at h
      cases h
      exact rank_lt_of_rest (by omega)
    | some failure =>
      rw [hf] at h
      cases h
      unfold Worker.reject
      split_ifs <;> exact rank_lt_of_rest (by omega)
  | _ =>
    rw [hphase] at h
    cases settled_ok h
    exact .inr (rank_lt_of_rest (by omega))

namespace LoopState

/-- How `stop` goes on once the loop is over. -/
inductive Retires (s : LoopState) : StopPhase → Prop where
  | stays (h : s.stop = .notCalled ∨ s.stop = .resolved ∨ ∃ failure, s.stop = .rejected failure) :
      Retires s s.stop
  | rejects (failure : Failure) (hphase : s.phase = .died failure) (h : s.stop = .awaitingLoop) :
      Retires s (.rejected failure)
  | counts (h : s.stop = .awaitingLoop) : Retires s .counting
  | deletes (h : s.stop = .counting) : Retires s .deleting
  | resolves (h : s.stop = .counting) : Retires s .resolved
  | deleted (h : s.stop = .deleting) : Retires s .resolved

/-- The marks once the tick or the creation of the group in progress is over: a tick that
ends so has failed. -/
def After (s : LoopState) (trace : List LoopMark) : Prop :=
  s.phase = .ticking ∧ trace = .failed :: s.trace ∨ s.phase = .recreating ∧ trace = s.trace

/-- Everything a turn can do. -/
inductive Turn (options : ResolvedOptions) (s : LoopState) (a : Answer) : LoopState → Prop where
  | goesOn (x : Worker) (hphase : s.phase = .ticking)
      (hrank : x.phase.rank < s.worker.phase.rank) : Turn options s a { s with worker := x }
  | begins (x : Worker) (failures : ℕ) (hphase : s.phase = .ticking ∨ ∃ d, s.phase = .pausing d)
      (hrunning : s.stopping = false) :
      Turn options s a ⟨x, .ticking, s.stopping, failures, s.stop, .tick :: s.trace⟩
  | recreates (hphase : s.phase = .ticking) :
      Turn options s a { s with phase := .recreating, trace := .failed :: s.trace }
  | pauses (failures : ℕ) (delayMs : ℤ) (trace : List LoopMark) (hafter : s.After trace)
      (hrunning : s.stopping = false)
      (hbounds : 0 ≤ delayMs ∧ delayMs ≤ (options.maxErrorBackoffMs : ℕ)) :
      Turn options s a
        ⟨s.worker, .pausing delayMs, s.stopping, failures, s.stop, .paused delayMs :: trace⟩
  | ends (x : Worker) (failures : ℕ) (trace : List LoopMark) (halive : s.phase.alive = true)
      (htrace : trace = s.trace ∨ s.After trace) (hstopping : s.stopping = true) :
      Turn options s a ⟨x, .ended, s.stopping, failures, s.stop, trace⟩
  | dies (failure : Failure) (hphase : s.phase = .recreating) (hfail : a.failure = some failure) :
      Turn options s a { s with phase := .died failure }
  | retires (stop : StopPhase) (hover : s.phase.alive = false) (hretires : s.Retires stop) :
      Turn options s a { s with stop := stop }

variable {s : LoopState}

lemma turn_head (x failures reading) (hphase : s.phase = .ticking ∨ ∃ d, s.phase = .pausing d) :
    Turn options s a
      (head options { s with worker := x, consecutiveFailures := failures } reading) := by
  unfold head
  split_ifs with hstopping
  · refine Turn.ends x failures s.trace ?_ (.inl rfl) hstopping
    rcases hphase with hphase | ⟨d, hphase⟩ <;> rw [hphase] <;> rfl
  · exact Turn.begins _ failures hphase (by simpa using hstopping)

lemma turn_pause {trace} (random) (haft : s.After trace) :
    Turn options s a (pause options { s with trace := trace } random) := by
  unfold pause
  split_ifs with hstop
  · refine Turn.ends s.worker _ trace ?_ (.inr haft) hstop
    rcases haft with ⟨hph, -⟩ | ⟨hph, -⟩ <;> rw [hph] <;> rfl
  · obtain ⟨hnon, hle⟩ := fullJitterDelay_bounds (s.consecutiveFailures + 1) random
      (Nat.cast_nonneg (options.errorBackoffMs : ℕ))
      (Nat.cast_nonneg (options.maxErrorBackoffMs : ℕ))
    exact Turn.pauses _ _ trace haft (by simpa using hstop) ⟨hnon, by exact_mod_cast hle⟩

lemma turn_retire (hover : s.phase.alive = false) : Turn options s a (s.retire a) := by
  unfold retire
  cases hstop : s.stop with
  | awaitingLoop =>
    dsimp only
    split
    · exact Turn.retires _ hover (.rejects _ ‹_› hstop)
    · exact Turn.retires _ hover (.counts hstop)
  | counting =>
    split_ifs
    · exact Turn.retires _ hover (.deletes hstop)
    · exact Turn.retires _ hover (.resolves hstop)
  | deleting => exact Turn.retires _ hover (.deleted hstop)
  | _ => exact Turn.retires _ hover (.stays (by simp [hstop]))

lemma turn_answer (decode : StreamEntry → Except Text E) (options s a) :
    Turn options s a (s.answer decode options a) := by
  unfold answer
  cases hph : s.phase with
  | ticking =>
    cases hx : s.worker.answer decode options a with
    | error failure =>
      dsimp only [tickFailed]
      split_ifs
      · exact Turn.recreates hph
      · exact turn_pause a.random (.inl ⟨hph, rfl⟩)
    | ok x =>
      dsimp only
      -- an idle worker has finished its tick, every other one has come forward
      split
      · exact turn_head x 0 a.reading (.inl hph)
      · next hidle =>
          rw [← hph]
          refine Turn.goesOn x hph ?_
          rcases rank_answer hx with hsame | hlt
          · rw [Worker.answer, hsame] at hx
            cases hx
            exact absurd hsame hidle
          · exact hlt
  | recreating =>
    cases hfail : a.failure with
    | none => exact turn_pause a.random (.inr ⟨hph, rfl⟩)
    | some failure => exact Turn.dies failure hph hfail
  | pausing delayMs =>
    exact turn_head s.worker s.consecutiveFailures a.reading (.inr ⟨delayMs, hph⟩)
  | _ => exact turn_retire (by rw [hph]; rfl)

/-- Where the loop is, on its way to the next tick or, after `stop`, to its end. -/
def stage (s : LoopState) : ℕ :=
  match s.phase with
  | .ticking => 6
  | .recreating => 5
  | .pausing _ => 4
  | _ =>
    match s.stop with
    | .awaitingLoop => 3
    | .counting => 2
    | .deleting => 1
    | _ => 0

def rank (s : LoopState) : ℕ ×ₗ ℕ ×ₗ ℕ := toLex (s.stage, s.worker.phase.rank)

end LoopState

/-- A failed tick is followed by a pause, which is no longer than the ceiling allows. -/
def PauseFollows (options : ResolvedOptions) (newer older : LoopMark) : Prop :=
  match older with
  | .failed => ∃ delayMs, newer = .paused delayMs ∧ 0 ≤ delayMs ∧
      delayMs ≤ (options.maxErrorBackoffMs : ℕ)
  | _ => True

/-- What holds of the loop whatever the answers are. A pause is due as long as the newest
mark is a failure, and then no tick is in progress. -/
structure LoopInv (options : ResolvedOptions) (s : LoopState) : Prop where
  called : s.stopping = false ↔ s.stop = .notCalled
  waits : s.phase.alive = true → s.stop = .notCalled ∨ s.stop = .awaitingLoop
  runs : s.stopping = false → s.phase ≠ .ended
  due : s.trace.head? = some .failed → s.phase ≠ .ticking ∧ ∀ delayMs, s.phase ≠ .pausing delayMs
  chain : s.trace.IsChain (PauseFollows options)

variable {s t : LoopState}

lemma pauseFollows_of_not_failed {trace : List LoopMark} (newer) (h : trace.head? ≠ some .failed) :
    ∀ older ∈ trace.head?, PauseFollows options newer older := by
  intro older holder
  have hhead : trace.head? = some older := holder
  cases older with
  | failed => exact absurd hhead h
  | tick => trivial
  | paused delayMs => trivial

/-- No failure is the newest mark of a tick in progress or of a pause. -/
lemma not_failed (h : LoopInv options s)
    (hph : s.phase = .ticking ∨ ∃ d, s.phase = .pausing d) : s.trace.head? ≠ some .failed := by
  intro hfail
  rcases hph with hph | ⟨d, hph⟩
  · exact (h.due hfail).1 hph
  · exact (h.due hfail).2 d hph

lemma chain_after {trace} (h : LoopInv options s) (haft : s.After trace) :
    trace.IsChain (PauseFollows options) := by
  rcases haft with ⟨hph, rfl⟩ | ⟨-, rfl⟩
  · exact h.chain.cons (pauseFollows_of_not_failed .failed (not_failed h (.inl hph)))
  · exact h.chain

lemma loopInv_turn (h : LoopInv options s) (ht : LoopState.Turn options s a t) :
    LoopInv options t := by
  cases ht with
  | goesOn x hph hrank => exact ⟨h.called, h.waits, h.runs, h.due, h.chain⟩
  | begins x failures hph hrun =>
    refine ⟨h.called, fun _ => .inl (h.called.mp hrun), fun _ => nofun, nofun, ?_⟩
    exact h.chain.cons (pauseFollows_of_not_failed .tick (not_failed h hph))
  | recreates hph =>
    refine ⟨h.called, fun _ => h.waits (by rw [hph]; rfl), fun _ => nofun,
      fun _ => ⟨nofun, fun _ => nofun⟩, chain_after h (.inl ⟨hph, rfl⟩)⟩
  | pauses failures delayMs trace haft hrun hboun =>
    refine ⟨h.called, fun _ => .inl (h.called.mp hrun), fun _ => nofun, nofun, ?_⟩
    refine (chain_after h haft).cons ?_
    intro older _
    cases older with
    | failed => exact ⟨delayMs, rfl, hboun⟩
    | tick => trivial
    | paused earlier => trivial
  | ends x failures trace halive htrace hstop =>
    refine ⟨h.called, nofun, fun hrun => ?_, fun _ => ⟨nofun, fun _ => nofun⟩, ?_⟩
    · rw [show s.stopping = false from hrun] at hstop
      cases hstop
    · rcases htrace with rfl | haft
      · exact h.chain
      · exact chain_after h haft
  | dies failure hph hfail =>
    exact ⟨h.called, nofun, fun _ => nofun, fun _ => ⟨nofun, fun _ => nofun⟩, h.chain⟩
  | retires stop hover hret =>
    refine ⟨?_, fun halive => ?_, h.runs, h.due, h.chain⟩
    · cases hret <;> simp_all [h.called]
    · rw [show s.phase.alive from halive] at hover
      cases hover

lemma loopInv_callStop (h : LoopInv options s) : LoopInv options s.callStop := by
  refine ⟨⟨nofun, nofun⟩, fun _ => .inr rfl, nofun, ?_, h.chain⟩
  intro hfail
  obtain ⟨htic, hpaus⟩ := h.due hfail
  unfold LoopState.callStop
  cases hph : s.phase <;> simp_all

lemma loopInv_start (options reading) : LoopInv options (.start options reading) :=
  ⟨⟨fun _ => rfl, fun _ => rfl⟩, fun _ => .inl rfl, fun _ => nofun, nofun, isChain_singleton _⟩

lemma stopping_turn (ht : LoopState.Turn options s a t) : t.stopping = s.stopping := by
  cases ht <;> rfl

lemma trace_turn (ht : LoopState.Turn options s a t) : s.trace <:+ t.trace := by
  have haft : ∀ trace, s.After trace → s.trace <:+ trace := by
    rintro trace (⟨-, rfl⟩ | ⟨-, rfl⟩)
    · exact suffix_cons _ _
    · exact suffix_refl _
  cases ht with
  | begins x failures hph hrun => exact suffix_cons _ _
  | recreates hph => exact suffix_cons _ _
  | pauses failures delayMs trace h hrun hboun =>
    exact (haft trace h).trans (suffix_cons _ _)
  | ends x failures trace halive htrace hstop =>
    rcases htrace with rfl | h
    · exact suffix_refl _
    · exact haft trace h
  | _ => exact suffix_refl _

/-- The promise of the loop is not rejected, nor that of `stop`. -/
def Undying (s : LoopState) : Prop :=
  (∀ failure, s.phase ≠ .died failure) ∧ ∀ failure, s.stop ≠ .rejected failure

lemma undying_callStop (h : Undying s) : Undying s.callStop := by
  refine ⟨?_, fun _ => nofun⟩
  intro failure
  unfold LoopState.callStop
  have hdied := h.1
  cases hphase : s.phase <;> simp_all

/-- A turn ends in one of three ways: the loop begins a tick, it comes nearer to its next
tick or its end, or it is over and `stop` has resolved. -/
def Progresses (s t : LoopState) : Prop :=
  (s.stopping = false ∧ t.ticks = s.ticks + 1) ∨ t.rank < s.rank ∨ s.stop = .resolved

lemma ended_of_over (hundying : Undying s) (hover : s.phase.alive = false) : s.phase = .ended := by
  have hdied := hundying.1
  cases hphase : s.phase <;> simp_all [LoopPhase.alive]

/-- A turn that finds its group, or creates it again, leaves the loop alive. -/
lemma progresses_turn (h : LoopInv options s) (hund : Undying s)
    (hok : s.phase = .recreating → a.failure = none) (ht : LoopState.Turn options s a t) :
    Undying t ∧ Progresses s t := by
  cases ht with
  | goesOn x hph hrank => exact ⟨hund, .inr (.inl (rank_lt_of_rest hrank))⟩
  | begins x failures hph hrun =>
    exact ⟨⟨fun _ => nofun, hund.2⟩, .inl ⟨hrun, countP_cons_of_pos rfl⟩⟩
  | recreates hph =>
    refine ⟨⟨fun _ => nofun, hund.2⟩, .inr (.inl (rank_lt_of_stage ?_))⟩
    simp [LoopState.stage, hph]
  | pauses failures delayMs trace haft hrun hboun =>
    refine ⟨⟨fun _ => nofun, hund.2⟩, .inr (.inl (rank_lt_of_stage ?_))⟩
    rcases haft with ⟨hph, -⟩ | ⟨hph, -⟩ <;> simp [LoopState.stage, hph]
  | ends x failures trace halive htrace hstop =>
    refine ⟨⟨fun _ => nofun, hund.2⟩, .inr (.inl (rank_lt_of_stage ?_))⟩
    unfold LoopState.stage
    cases hph : s.phase <;> cases s.stop <;> simp_all [LoopPhase.alive]
  | dies failure hph hfail =>
    rw [hok hph] at hfail
    cases hfail
  | retires stop hover hret =>
    have hended := ended_of_over hund hover
    -- the loop only ends once `stop` has been called
    have hcal : s.stop ≠ .notCalled := fun hnot => h.runs (h.called.mpr hnot) hended
    have hrej := hund.2
    refine ⟨⟨hund.1, ?_⟩, ?_⟩
    · cases hret <;> simp_all
    · unfold Progresses
      simp only [LoopState.rank, LoopState.stage]
      cases hret <;> simp_all [rank_lt_of_stage]

/-- What a loop that survives every outage does: it goes on until `stop` is called, begins
one tick after another, pauses after every failure, and `stop` then resolves. -/
structure LoopSurvives (options : ResolvedOptions) (stopAt : Option ℕ) (run : ℕ → LoopState) :
    Prop where
  alive : ∀ k, (∀ j, stopAt = some j → k ≤ j) → (run k).phase.alive = true
  ticks_on : stopAt = none → ∀ n, ∃ k, n ≤ (run k).ticks
  pauses : ∀ k, (run k).trace.IsChain (PauseFollows options)
  stops : ∀ j, stopAt = some j → ∃ k, j < k ∧ (run k).stop = .resolved
  never_rejects : ∀ k failure, (run k).stop ≠ .rejected failure

section Run

variable {E : Type} (decode : StreamEntry → Except Text E) (options : ResolvedOptions)
  (reading : ℤ) (answers : ℕ → Answer) (stopAt : Option ℕ)

/-- Whenever the group is created again inside the loop, Redis answers. -/
def RecreationsSucceed : Prop :=
  ∀ k, stopAt ≠ some k → (loopRun decode options reading answers stopAt k).phase = .recreating →
    (answers k).failure = none

/-- The states of a run: the first, the one after the call of `stop`, and one turn each. -/
structure IsRun (run : ℕ → LoopState) : Prop where
  first : run 0 = .start options reading
  stop : ∀ k, stopAt = some k → run (k + 1) = (run k).callStop
  next : ∀ k, stopAt ≠ some k → run (k + 1) = (run k).answer decode options (answers k)

lemma isRun_loopRun :
    IsRun decode options reading answers stopAt (loopRun decode options reading answers stopAt) :=
  ⟨rfl, fun k h => by simp [loopRun, h], fun k h => by simp [loopRun, h]⟩

variable {decode options reading answers stopAt} {run : ℕ → LoopState}
  (hrun : IsRun decode options reading answers stopAt run) {k : ℕ}
include hrun

lemma IsRun.turn (h : stopAt ≠ some k) :
    LoopState.Turn options (run k) (answers k) (run (k + 1)) := by
  rw [hrun.next k h]
  exact LoopState.turn_answer decode options _ (answers k)

lemma loopInv_run (k) : LoopInv options (run k) := by
  induction k with
  | zero =>
    rw [hrun.first]
    exact loopInv_start options reading
  | succ k ih =>
    by_cases hstop : stopAt = some k
    · rw [hrun.stop k hstop]
      exact loopInv_callStop ih
    · exact loopInv_turn ih (hrun.turn hstop)

lemma stopping_run (k) : (run k).stopping ↔ ∃ j, stopAt = some j ∧ j < k := by
  induction k with
  | zero => simp [hrun.first, LoopState.start, LoopState.head]
  | succ k ih =>
    by_cases hstop : stopAt = some k
    · rw [hrun.stop k hstop]
      exact ⟨fun _ => ⟨k, hstop, Nat.lt_succ_self k⟩, fun _ => rfl⟩
    · rw [stopping_turn (hrun.turn hstop), ih]
      refine exists_congr fun j => and_congr_right fun hj => ?_
      have hne : j ≠ k := fun hjk => hstop (hjk ▸ hj)
      omega

lemma ticks_mono : Monotone fun k => (run k).ticks := by
  refine monotone_nat_of_le_succ ?_
  intro k
  by_cases hstop : stopAt = some k
  · rw [hrun.stop k hstop]
    exact le_rfl
  · exact (trace_turn (hrun.turn hstop)).sublist.countP_le

section Recreated

variable (hok : ∀ k, stopAt ≠ some k → (run k).phase = .recreating → (answers k).failure = none)
include hok

lemma undying_run (k) : Undying (run k) := by
  induction k with
  | zero =>
    rw [hrun.first]
    exact ⟨fun _ => nofun, fun _ => nofun⟩
  | succ k ih =>
    by_cases hstop : stopAt = some k
    · rw [hrun.stop k hstop]
      exact undying_callStop ih
    · exact (progresses_turn (loopInv_run hrun k) ih (hok k hstop) (hrun.turn hstop)).1

lemma progresses_run (hstop : stopAt ≠ some k) : Progresses (run k) (run (k + 1)) :=
  (progresses_turn (loopInv_run hrun k) (undying_run hrun hok k) (hok k hstop) (hrun.turn hstop)).2

/-- Without a `stop`, ticks follow one another for ever. -/
lemma ticks_unbounded (hnone : stopAt = none) (n) : ∃ k, n ≤ (run k).ticks := by
  have hnever : ∀ k, stopAt ≠ some k := fun k => by simp [hnone]
  induction n with
  | zero => exact ⟨0, Nat.zero_le _⟩
  | succ n ih =>
    obtain ⟨start, hstart⟩ := ih
    obtain ⟨k, hk, htick⟩ := Machine.eventually_of_rank (fun k => (run k).rank)
      (fun k => (run (k + 1)).ticks = (run k).ticks + 1) (fun k => by
        rcases progresses_run hrun hok (hnever k) with htick | hrank | hdone
        · exact .inl htick.2
        · exact .inr hrank
        · have hrunn : (run k).stopping = false := by
            rw [Bool.eq_false_iff, Ne, stopping_run hrun]
            simp [hnone]
          rw [(loopInv_run hrun k).called.mp hrunn] at hdone
          cases hdone) start
    have hmono : (run start).ticks ≤ (run k).ticks := ticks_mono hrun hk
    exact ⟨k + 1, by omega⟩

/-- After a `stop` the loop comes to its end, and `stop` resolves. -/
lemma stop_resolves {j} (hj : stopAt = some j) : ∃ k, j < k ∧ (run k).stop = .resolved := by
  obtain ⟨k, _, hdone⟩ := Machine.eventually_of_rank (fun k => (run (j + 1 + k)).rank)
    (fun k => (run (j + 1 + k)).stop = .resolved) (fun k => by
      have hlater : stopAt ≠ some (j + 1 + k) := by
        rw [hj, Ne, Option.some_inj]
        omega
      rcases progresses_run hrun hok hlater with htick | hrank | hdone
      · have hstop := (stopping_run hrun (j + 1 + k)).mpr ⟨j, hj, by omega⟩
        rw [htick.1] at hstop
        cases hstop
      · exact .inr hrank
      · exact .inl hdone) 0
  exact ⟨j + 1 + k, by omega, hdone⟩

end Recreated

/-- A group that cannot be created again ends the loop, and `stop` rejects if it has been
called already. -/
lemma not_survives_of_failure {failure} (hstop : stopAt ≠ some k)
    (hph : (run k).phase = .recreating) (hfail : (answers k).failure = some failure) :
    ¬ LoopSurvives options stopAt run := by
  have hdied : run (k + 1) = { run k with phase := .died failure } := by
    simp [hrun.next k hstop, LoopState.answer, hph, hfail]
  intro hsur
  by_cases hpre : ∀ j, stopAt = some j → k + 1 ≤ j
  · have halive := hsur.alive (k + 1) hpre
    rw [hdied] at halive
    cases halive
  · push Not at hpre
    obtain ⟨j, hj, hlt⟩ := hpre
    have hjk : j ≠ k := fun h => hstop (h ▸ hj)
    -- `stop` waits for the loop, so the next turn rejects it
    have hstopp := (stopping_run hrun k).mpr ⟨j, hj, by omega⟩
    have hwaits : (run k).stop = .awaitingLoop := by
      refine ((loopInv_run hrun k).waits (by rw [hph]; rfl)).resolve_left ?_
      rw [← (loopInv_run hrun k).called, hstopp]
      exact nofun
    refine hsur.never_rejects (k + 2) failure ?_
    have hlater : stopAt ≠ some (k + 1) := by
      rw [hj, Ne, Option.some_inj]
      omega
    simp [hrun.next _ hlater, hdied, LoopState.answer, LoopState.retire, hwaits]

omit hrun in
/-- The loop survives exactly the outages in which Redis answers whenever a missing group
is created again. -/
theorem loop_survives_iff :
    LoopSurvives options stopAt (loopRun decode options reading answers stopAt) ↔
      RecreationsSucceed decode options reading answers stopAt := by
  have hrun := isRun_loopRun decode options reading answers stopAt
  constructor
  · intro hsur k hstop hph
    by_contra hne
    obtain ⟨failure, hfail⟩ := Option.ne_none_iff_exists'.mp hne
    exact not_survives_of_failure hrun hstop hph hfail hsur
  · intro hok
    refine ⟨?_, ticks_unbounded hrun hok, fun k => (loopInv_run hrun k).chain,
      fun j => stop_resolves hrun hok, fun k => (undying_run hrun hok k).2⟩
    intro k hpre
    by_contra hover
    refine (loopInv_run hrun k).runs ?_
      (ended_of_over (undying_run hrun hok k) (Bool.eq_false_iff.mpr hover))
    rw [Bool.eq_false_iff, Ne, stopping_run hrun]
    rintro ⟨j, hj, hlt⟩
    have := hpre j hj
    omega

end Run

/-- The group is gone when the first tick begins, and Redis with it when the group is
created again. -/
def failoverAnswers : ℕ → Answer
  | 0 => { failure := some ⟨true, "NOGROUP No such key".toList, "NOGROUP No such key".toList⟩ }
  | 1 => { failure := some ⟨true, "ECONNREFUSED".toList, "ECONNREFUSED".toList⟩ }
  | _ => {}

/-- The loop dies in its first tick, and `stop` rejects. -/
theorem failover_ends_loop :
    resolveOptions { key := ['s'], group := ['g'], consumer := ['a'] } =
        .ok (defaultOptions ['a']) ∧
      ¬ LoopSurvives (defaultOptions ['a']) none
        (loopRun (fun _ => (.ok () : Except Text Unit)) (defaultOptions ['a']) 0 failoverAnswers
          none) ∧
      (loopRun (fun _ => (.ok () : Except Text Unit)) (defaultOptions ['a']) 0 failoverAnswers
        (some 2) 4).stop = .rejected ⟨true, "ECONNREFUSED".toList, "ECONNREFUSED".toList⟩ := by
  refine ⟨resolveOptions_default (by decide), ?_, rfl⟩
  exact not_survives_of_failure (isRun_loopRun _ _ _ _ _) (k := 1) nofun rfl rfl

end BoilerplateExpress.Redis

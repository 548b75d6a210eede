import Mathlib.Tactic

/-!
# Graceful shutdown

`runTask` and `run` of `shutdown/graceful-shutdown.ts`. Instants are counted from the start of
`run`, where the timer of the budget is set. A task that settles at the instant the budget is
spent is late, because the signal resolves `expired` before it reaches the task. The timer is
unref'd; the process is assumed to live until it fires, and the logger and the lifecycle not to
throw. What the loggers are told and how long a task took are left out.
-/
namespace BoilerplateExpress.Shutdown

open List

/-- What a call of `run` does: a task that returns nothing settles at once. -/
inductive Behaviour where
  | throws
  | settles (delay : ℕ) (ok : Bool)
  | hangs

structure ShutdownTask where
  name : String
  /-- Started at this instant. -/
  run : ℕ → Behaviour

structure ShutdownPhase where
  name : String
  tasks : List ShutdownTask

inductive ShutdownTaskOutcome where
  | completed
  | failed
  | timedOut
  | skipped
  deriving DecidableEq

structure ShutdownTaskResult where
  phase : String
  task : String
  outcome : ShutdownTaskOutcome

/-- A call of `runTask`, with whether the task was started and when the result was there. -/
structure TaskRun where
  result : ShutdownTaskResult
  started : Bool
  endsAt : ℕ

def runTask (phase : ShutdownPhase) (budget now : ℕ) (task : ShutdownTask) : TaskRun :=
  if budget ≤ now then ⟨⟨phase.name, task.name, .skipped⟩, false, now⟩
  else
    match task.run now with
    | .throws => ⟨⟨phase.name, task.name, .failed⟩, true, now⟩
    | .hangs => ⟨⟨phase.name, task.name, .timedOut⟩, true, budget⟩
    | .settles delay ok =>
      if now + delay < budget then
        ⟨⟨phase.name, task.name, if ok then .completed else .failed⟩, true, now + delay⟩
      else ⟨⟨phase.name, task.name, .timedOut⟩, true, budget⟩

structure PhaseRun where
  startsAt : ℕ
  tasks : List TaskRun

/-- When the results of all tasks are there. -/
def PhaseRun.endsAt (ran : PhaseRun) : ℕ :=
  max ran.startsAt ((ran.tasks.map TaskRun.endsAt).foldr max 0)

def runPhases (budget : ℕ) : ℕ → List ShutdownPhase → List PhaseRun
  | _, [] => []
  | now, phase :: phases =>
    let ran : PhaseRun := ⟨now, phase.tasks.map (runTask phase budget now)⟩
    ran :: runPhases budget ran.endsAt phases

structure ShutdownReport where
  clean : Bool
  reason : String
  tasks : List ShutdownTaskResult

/-- The report, with the instant it is there. -/
def run (phases : List ShutdownPhase) (budget : ℕ) (reason : String) : ShutdownReport × ℕ :=
  let ran := runPhases budget 0 phases
  let results := ran.flatMap fun phase => phase.tasks.map TaskRun.result
  (⟨!results.any (fun result => result.outcome ≠ .completed), reason, results⟩,
    (ran.map PhaseRun.endsAt).foldr max 0)

/-- What `runTask` makes of a task: it is not started after the budget is spent, its result is
there by then, and a result that is there before is that of a task that has settled. -/
structure TaskRun.Bounded (run : TaskRun) (now budget : ℕ) : Prop where
  started : run.started → now < budget
  endsAt : run.endsAt ≤ max now budget
  settled : run.endsAt < budget → run.result.outcome ∈ [.completed, .failed]

lemma runTask_bounded (phase budget now task) :
    (runTask phase budget now task).Bounded now budget := by
  unfold runTask
  split_ifs with hspent
  · exact ⟨by simp, le_max_left _ _, fun h => absurd hspent (not_le.mpr h)⟩
  · rw [not_le] at hspent
    cases task.run now with
    | throws => exact ⟨fun _ => hspent, le_max_left _ _, by simp⟩
    | hangs => exact ⟨fun _ => hspent, le_max_right _ _, by simp⟩
    | settles delay ok =>
      dsimp only
      by_cases hin : now + delay < budget
      · rw [if_pos hin]
        exact ⟨fun _ => hspent, le_max_of_le_right hin.le, by cases ok <;> simp⟩
      · rw [if_neg hin]
        exact ⟨fun _ => hspent, le_max_right _ _, by simp⟩

lemma PhaseRun.endsAt_le {budget} {ran : PhaseRun} (hstart : ran.startsAt ≤ budget)
    (h : ∀ task ∈ ran.tasks, task.Bounded ran.startsAt budget) : ran.endsAt ≤ budget := by
  refine max_le hstart (List.max_le_of_forall_le _ _ (forall_mem_map.mpr fun task htask => ?_))
  exact (h task htask).endsAt.trans (max_le hstart le_rfl)

lemma runPhases_bounded {now budget phases ran} (hnow : now ≤ budget)
    (h : ran ∈ runPhases budget now phases) : now ≤ ran.startsAt ∧ ran.endsAt ≤ budget ∧
      ∀ task ∈ ran.tasks, task.Bounded ran.startsAt budget := by
  induction phases generalizing now with
  | nil => cases h
  | cons phase phases ih =>
    have htasks : ∀ task ∈ phase.tasks.map (runTask phase budget now), task.Bounded now budget :=
      forall_mem_map.mpr fun task _ => runTask_bounded phase budget now task
    have hends : PhaseRun.endsAt ⟨now, _⟩ ≤ budget := PhaseRun.endsAt_le hnow htasks
    rcases mem_cons.mp h with rfl | h
    · exact ⟨le_rfl, hends, htasks⟩
    · obtain ⟨hstart, hran⟩ := ih hends h
      exact ⟨(le_max_left _ _).trans hstart, hran⟩

/-- A phase starts when the results of the phases before it are there. -/
lemma runPhases_pairwise {now budget phases} (hnow : now ≤ budget) :
    (runPhases budget now phases).Pairwise fun ran later => ran.endsAt ≤ later.startsAt := by
  induction phases generalizing now with
  | nil => exact .nil
  | cons phase phases ih =>
    obtain ⟨-, hends, -⟩ := runPhases_bounded hnow
      (show _ ∈ runPhases budget now (phase :: phases) from mem_cons_self)
    exact .cons (fun later h => (runPhases_bounded hends h).1) (ih hends)

lemma runTask_named (phase budget now task) :
    (runTask phase budget now task).result.phase = phase.name ∧
      (runTask phase budget now task).result.task = task.name := by
  unfold runTask
  repeat' split
  all_goals exact ⟨rfl, rfl⟩

lemma results_named (budget now phases) :
    ((runPhases budget now phases).flatMap fun ran => ran.tasks.map TaskRun.result).map
      (fun result => (result.phase, result.task)) =
    phases.flatMap fun phase => phase.tasks.map fun task => (phase.name, task.name) := by
  induction phases generalizing now with
  | nil => rfl
  | cons phase phases ih =>
    rw [runPhases, flatMap_cons, map_append, ih, flatMap_cons]
    simp [Function.comp_def, runTask_named]

/-- Whatever the tasks do, phases are run in order, no task is started after the budget is spent,
and the report is there by then, with one result for each task, in order. -/
theorem shutdown_ordered_and_bounded (phases : List ShutdownPhase) (budget : ℕ) (reason : String) :
    (runPhases budget 0 phases).Pairwise (fun earlier later =>
      (∃ task ∈ later.tasks, task.started) → ∀ task ∈ earlier.tasks,
        task.result.outcome ∈ [.completed, .failed] ∧ task.endsAt ≤ later.startsAt) ∧
    (∀ ran ∈ runPhases budget 0 phases, ∀ task ∈ ran.tasks,
      task.started → ran.startsAt < budget) ∧
    (run phases budget reason).2 ≤ budget ∧
    (run phases budget reason).1.tasks.map (fun result => (result.phase, result.task)) =
      phases.flatMap (fun phase => phase.tasks.map fun task => (phase.name, task.name)) ∧
    ((run phases budget reason).1.clean ↔
      ∀ result ∈ (run phases budget reason).1.tasks, result.outcome = .completed) := by
  have hnow : 0 ≤ budget := Nat.zero_le budget
  refine ⟨(runPhases_pairwise hnow).imp_of_mem ?_, ?_, ?_, results_named _ _ _, ?_⟩
  · rintro earlier later hear hlater hends ⟨task, htask, hstart⟩ other hoth
    have hbound := (runPhases_bounded hnow hear).2.2 other hoth
    have hlate := ((runPhases_bounded hnow hlater).2.2 task htask).started hstart
    have hle : other.endsAt ≤ later.startsAt :=
      (le_max_of_le_right (List.le_max_of_le (mem_map_of_mem hoth) le_rfl)).trans hends
    exact ⟨hbound.settled (hle.trans_lt hlate), hle⟩
  · exact fun ran h task htask => ((runPhases_bounded hnow h).2.2 task htask).started
  · refine List.max_le_of_forall_le _ _ (forall_mem_map.mpr fun ran hran => ?_)
    exact (runPhases_bounded hnow hran).2.1
  · simp only [run, Bool.not_eq_true', any_eq_false, decide_eq_true_eq, ne_eq, not_not]

end BoilerplateExpress.Shutdown

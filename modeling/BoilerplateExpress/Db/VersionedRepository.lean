import BoilerplateExpress.Machine
import BoilerplateExpress.Users.LastAdmin

/-!
# Conditional writes of one row

`updateWithVersion` and `deleteWithVersion` of `db/versioned-repository.ts` on one row, under
`READ COMMITTED`. Each call is one statement in a transaction of its own. The statement reads
the snapshot taken at its start; its `UPDATE` or `DELETE` waits for the row lock and then looks
at the newest committed version again. Nothing in the program reads the version that an ended
call remembers.
-/
namespace BoilerplateExpress.Db

open Users (Precondition)

/-- A row of a versioned table, its other columns by name. -/
structure VersionedRow (ν : Type) where
  columns : Text → ν
  version : ℕ

/-- The outcomes of both methods. -/
inductive Outcome (ν : Type) where
  | updated (row : VersionedRow ν)
  | deleted
  | missing
  | conflict (currentVersion : ℕ)

inductive Write (ν : Type) where
  | update (data : List (Text × ν))
  | delete

structure Call (ν : Type) where
  write : Write ν
  precondition : Precondition

section Statement

variable {ν : Type}

/-- `BaseRepository.immutableColumns` and `version`. -/
def immutableColumns (hasTimestamps : Bool) : List Text :=
  (if hasTimestamps then ["id".toList, "created_at".toList, "updated_at".toList]
    else ["id".toList]) ++ ["version".toList]

/-- The `SET` clauses, in order; the trigger bumps the version. -/
def setRow (hasTimestamps : Bool) (data : List (Text × ν)) (now : ν) (row : VersionedRow ν) :
    VersionedRow ν where
  columns :=
    let written := (data.filter (fun e => e.1 ∉ immutableColumns hasTimestamps)).foldl
      (fun columns e => Function.update columns e.1 e.2) row.columns
    if hasTimestamps then Function.update written "updated_at".toList now else written
  version := row.version + 1

/-- The row after the write, `none` once it is deleted. -/
def Write.apply (hasTimestamps : Bool) (now : ν) (row : VersionedRow ν) :
    Write ν → Option (VersionedRow ν)
  | .update data => some (setRow hasTimestamps data now row)
  | .delete => none

/-- The first row of the two branches: the one the write returned, and else the one of the
snapshot. -/
def statementAnswer (written : Bool) (next snapshot : Option (VersionedRow ν)) : Outcome ν :=
  if written then
    match next with
    | some row => .updated row
    | none => .deleted
  else
    match snapshot with
    | some row => .conflict row.version
    | none => .missing

end Statement

inductive CallPhase (ν : Type) where
  | idle
  /-- The snapshot meets the precondition; the row lock is awaited. -/
  | waiting (snapshot : VersionedRow ν)
  /-- The row is written and locked until the transaction ends. -/
  | written (next : Option (VersionedRow ν)) (outcome : Outcome ν) (decidedOn : VersionedRow ν)
  | ended (outcome : Outcome ν) (decidedOn : Option (VersionedRow ν))
  | failed

structure RowState (κ ν : Type) where
  row : Option (VersionedRow ν)
  lockedBy : Option κ
  calls : κ → CallPhase ν

inductive RowAction (κ ν : Type) where
  | start (k : κ)
  | acquire (k : κ) (now : ν)
  | commit (k : κ)
  | rollback (k : κ)
  /-- The statement is cancelled while it waits. -/
  | cancel (k : κ)

namespace RowState

variable {κ ν : Type} [DecidableEq κ]

def setCall (s : RowState κ ν) (k : κ) (phase : CallPhase ν) : RowState κ ν :=
  { s with calls := Function.update s.calls k phase }

/-- The row is free: the `WHERE` clause is evaluated on its newest version. -/
def acquire (hasTimestamps : Bool) (call : Call ν) (s : RowState κ ν) (k : κ) (now : ν)
    (snapshot : VersionedRow ν) : RowState κ ν :=
  match s.row with
  | none => s.setCall k (.ended (statementAnswer false none (some snapshot)) none)
  | some row =>
    if call.precondition.holds row.version then
      let next := call.write.apply hasTimestamps now row
      { s with lockedBy := some k }.setCall k
        (.written next (statementAnswer true next (some snapshot)) row)
    else s.setCall k (.ended (statementAnswer false none (some snapshot)) (some row))

def step (hasTimestamps : Bool) (requests : κ → Call ν) (s : RowState κ ν) :
    RowAction κ ν → Option (RowState κ ν)
  | .start k =>
    match s.calls k with
    | .idle =>
      match s.row with
      | none => some (s.setCall k (.ended (statementAnswer false none none) none))
      | some row =>
        if (requests k).precondition.holds row.version then
          some (s.setCall k (.waiting row))
        else
          some (s.setCall k (.ended (statementAnswer false none (some row)) (some row)))
    | _ => none
  | .acquire k now =>
    match s.calls k, s.lockedBy with
    | .waiting snapshot, none => some (s.acquire hasTimestamps (requests k) k now snapshot)
    | _, _ => none
  | .commit k =>
    match s.calls k with
    | .written next outcome row =>
      some ({ s with row := next, lockedBy := none }.setCall k (.ended outcome (some row)))
    | _ => none
  | .rollback k =>
    match s.calls k with
    | .written _ outcome row =>
      some ({ s with lockedBy := none }.setCall k (.ended outcome (some row)))
    | _ => none
  | .cancel k =>
    match s.calls k with
    | .waiting _ => some (s.setCall k .failed)
    | _ => none

def init (row : Option (VersionedRow ν)) : RowState κ ν := ⟨row, none, fun _ => .idle⟩

end RowState

/-- A conflict is not reported with a version that the caller named, and a call that found
the row deleted says that it is missing. -/
structure Call.Reports {ν : Type} (call : Call ν) (outcome : Outcome ν)
    (decidedOn : Option (VersionedRow ν)) : Prop where
  conflict : ∀ version, outcome = .conflict version →
    ∀ named, call.precondition = .versions named → version ∉ named
  deleted : decidedOn = none → outcome = .missing

namespace RowState

variable {κ ν : Type}

def ConflictsReportWinner (requests : κ → Call ν) (s : RowState κ ν) : Prop :=
  ∀ k outcome decidedOn, s.calls k = .ended outcome decidedOn →
    (requests k).Reports outcome decidedOn

/-- When a call gets the row, its newest version still meets the precondition. -/
def stillMeets (requests : κ → Call ν) (s : RowState κ ν) : RowAction κ ν → Bool
  | .acquire k _ => s.row.any (fun row => (requests k).precondition.holds row.version)
  | _ => true

/-- A call waits only if its snapshot met the precondition, and what it has written is no
conflict. -/
structure CallInv (requests : κ → Call ν) (s : RowState κ ν) : Prop where
  waiting : ∀ k snapshot, s.calls k = .waiting snapshot →
    (requests k).precondition.holds snapshot.version = true
  written : ∀ k next outcome row, s.calls k = .written next outcome row →
    ∀ version, outcome ≠ .conflict version

/-- What a step does to the call it is about. -/
inductive Moves (requests : κ → Call ν) (s : RowState κ ν) :
    RowAction κ ν → κ → CallPhase ν → Prop where
  | waits (k : κ) (row : VersionedRow ν) (hholds : (requests k).precondition.holds row.version = true) :
      Moves requests s (.start k) k (.waiting row)
  | absent (k : κ) : Moves requests s (.start k) k (.ended .missing none)
  | refused (k : κ) (row : VersionedRow ν)
      (hfails : (requests k).precondition.holds row.version = false) :
      Moves requests s (.start k) k (.ended (.conflict row.version) (some row))
  | writes (k : κ) (now : ν) (next : Option (VersionedRow ν)) (outcome : Outcome ν)
      (row : VersionedRow ν) (hmeets : stillMeets requests s (.acquire k now) = true)
      (houtcome : ∀ version, outcome ≠ .conflict version) :
      Moves requests s (.acquire k now) k (.written next outcome row)
  | loses (k : κ) (now : ν) (snapshot : VersionedRow ν) (hcall : s.calls k = .waiting snapshot)
      (hfails : stillMeets requests s (.acquire k now) = false) :
      Moves requests s (.acquire k now) k (.ended (.conflict snapshot.version) s.row)
  | commits (k : κ) (next : Option (VersionedRow ν)) (outcome : Outcome ν) (row : VersionedRow ν)
      (hcall : s.calls k = .written next outcome row) :
      Moves requests s (.commit k) k (.ended outcome (some row))
  | rollsBack (k : κ) (next : Option (VersionedRow ν)) (outcome : Outcome ν) (row : VersionedRow ν)
      (hcall : s.calls k = .written next outcome row) :
      Moves requests s (.rollback k) k (.ended outcome (some row))
  | cancels (k : κ) : Moves requests s (.cancel k) k .failed

variable [DecidableEq κ]

variable {hasTimestamps : Bool} {s : RowState κ ν}

lemma moves_acquire {k snapshot} (requests) (now) (hcall : s.calls k = .waiting snapshot) :
    ∃ phase, (s.acquire hasTimestamps (requests k) k now snapshot).calls =
        Function.update s.calls k phase ∧ Moves requests s (.acquire k now) k phase := by
  unfold acquire
  cases hrow : s.row with
  | none =>
    refine ⟨_, rfl, ?_⟩
    rw [← hrow]
    exact .loses k now snapshot hcall (by simp [stillMeets, hrow])
  | some row =>
    cases hholds : (requests k).precondition.holds row.version with
    | true =>
      simp only [hholds]
      refine ⟨_, rfl, ?_⟩
      refine .writes k now _ _ row (by simp [stillMeets, hrow, hholds]) ?_
      intro version
      cases (requests k).write with
      | update data => exact nofun
      | delete => exact nofun
    | false =>
      simp only [hholds]
      refine ⟨_, rfl, ?_⟩
      rw [← hrow]
      exact .loses k now snapshot hcall (by simp [stillMeets, hrow, hholds])

variable {requests : κ → Call ν} {t : RowState κ ν} {action : RowAction κ ν}

/-- A step moves one call, and no call that has ended. -/
lemma moves_of_step (h : step hasTimestamps requests s action = some t) :
    ∃ k phase, t.calls = Function.update s.calls k phase ∧
      (∀ outcome decidedOn, s.calls k ≠ .ended outcome decidedOn) ∧
      Moves requests s action k phase := by
  cases action <;> simp only [step] at h
  case start k =>
    split at h
    · next hcall =>
        have hopen : ∀ outcome decidedOn, s.calls k ≠ .ended outcome decidedOn := by
          intro outcome decidedOn
          rw [hcall]
          exact nofun
        split at h
        · cases h
          exact ⟨k, _, rfl, hopen, .absent k⟩
        · next row hrow =>
            split_ifs at h with hholds
            · cases h
              exact ⟨k, _, rfl, hopen, .waits k row hholds⟩
            · cases h
              exact ⟨k, _, rfl, hopen, .refused k row (by simpa using hholds)⟩
    · cases h
  case acquire k now =>
    split at h
    · next snapshot hcall _ =>
        cases h
        obtain ⟨phase, hcalls, hmoves⟩ := moves_acquire requests now hcall
        refine ⟨k, phase, hcalls, ?_, hmoves⟩
        intro outcome decidedOn
        rw [hcall]
        exact nofun
    · cases h
  case commit k =>
    split at h
    · next next outcome row hcall =>
        cases h
        refine ⟨k, _, rfl, ?_, .commits k next outcome row hcall⟩
        intro outcome' decidedOn
        rw [hcall]
        exact nofun
    · cases h
  case rollback k =>
    split at h
    · next next outcome row hcall =>
        cases h
        refine ⟨k, _, rfl, ?_, .rollsBack k next outcome row hcall⟩
        intro outcome' decidedOn
        rw [hcall]
        exact nofun
    · cases h
  case cancel k =>
    split at h
    · next snapshot hcall =>
        cases h
        refine ⟨k, _, rfl, ?_, .cancels k⟩
        intro outcome decidedOn
        rw [hcall]
        exact nofun
    · cases h

omit [DecidableEq κ] in
lemma callInv_init (requests : κ → Call ν) (row : Option (VersionedRow ν)) :
    CallInv requests (init row : RowState κ ν) := ⟨nofun, nofun⟩

lemma callInv_step (h : CallInv requests s)
    (hstep : step hasTimestamps requests s action = some t) : CallInv requests t := by
  obtain ⟨k, phase, hcalls, _, hmoves⟩ := moves_of_step hstep
  have hwait : ∀ snapshot, phase = .waiting snapshot →
      (requests k).precondition.holds snapshot.version := by
    rintro snapshot rfl
    cases hmoves with
    | waits _ _ hholds => exact hholds
  have hwr : ∀ next outcome row, phase = .written next outcome row →
      ∀ version, outcome ≠ .conflict version := by
    rintro next outcome row rfl
    cases hmoves with
    | writes _ _ _ _ _ _ hout => exact hout
  constructor
  · intro k' snapshot hph
    rw [hcalls, Function.update_apply] at hph
    split_ifs at hph with hk
    · rw [hk]
      exact hwait snapshot hph
    · exact h.waiting k' snapshot hph
  · intro k' next outcome row hph
    rw [hcalls, Function.update_apply] at hph
    split_ifs at hph with hk
    · exact hwr next outcome row hph
    · exact h.written k' next outcome row hph

omit [DecidableEq κ] in
/-- A call that does not lose the row while it waits reports rightly. -/
lemma reports_of_moves {k} {outcome} {decidedOn}
    (h : CallInv requests s) (hok : stillMeets requests s action = true)
    (hmoves : Moves requests s action k (.ended outcome decidedOn)) :
    (requests k).Reports outcome decidedOn := by
  cases hmoves with
  | absent => exact ⟨nofun, fun _ => rfl⟩
  | refused _ row hfails =>
    refine ⟨?_, nofun⟩
    rintro version ⟨⟩ named hnamed
    rw [hnamed] at hfails
    simpa [Precondition.holds] using hfails
  | loses _ now snapshot hcall hfails =>
    rw [hok] at hfails
    cases hfails
  | commits _ next _ row hcall =>
    exact ⟨fun version hv => absurd hv (h.written k next outcome _ hcall version), nofun⟩
  | rollsBack _ next _ row hcall =>
    exact ⟨fun version hv => absurd hv (h.written k next outcome _ hcall version), nofun⟩

lemma reportWinner_step (h : CallInv requests s ∧ ConflictsReportWinner requests s)
    (hok : stillMeets requests s action) (hstep : step hasTimestamps requests s action = some t) :
    CallInv requests t ∧ ConflictsReportWinner requests t := by
  refine ⟨callInv_step h.1 hstep, ?_⟩
  obtain ⟨k, phase, hcalls, _, hmoves⟩ := moves_of_step hstep
  intro k' outcome decidedOn hph
  rw [hcalls, Function.update_apply] at hph
  split_ifs at hph with hk
  · rw [hk]
    exact reports_of_moves h.1 hok (hph ▸ hmoves)
  · exact h.2 k' outcome decidedOn hph

/-- A call that loses the row while it waits reports the version it had named, or a conflict
with a row that is gone. -/
lemma not_reports_of_loss {call : Call ν} {snapshot : VersionedRow ν} {row}
    (hsnap : call.precondition.holds snapshot.version)
    (hfails : row.any (fun row => call.precondition.holds row.version) = false) :
    ¬ call.Reports (.conflict snapshot.version) row := by
  intro hrep
  cases hprec : call.precondition with
  | versions named =>
    refine hrep.conflict snapshot.version rfl named hprec ?_
    rw [hprec] at hsnap
    simpa [Precondition.holds] using hsnap
  | any =>
    cases row with
    | none => exact absurd (hrep.deleted rfl) nofun
    | some row =>
      rw [hprec] at hfails
      simp [Precondition.holds] at hfails

lemma misreports_of_step (h : CallInv requests s) (hok : ¬ stillMeets requests s action)
    (hstep : step hasTimestamps requests s action = some t) :
    ¬ ConflictsReportWinner requests t := by
  obtain ⟨k, phase, hcalls, _, hmoves⟩ := moves_of_step hstep
  cases hmoves with
  | loses _ now snapshot hcall hfails =>
    intro hrep
    refine not_reports_of_loss (h.waiting k snapshot hcall) hfails (hrep k _ _ ?_)
    rw [hcalls, Function.update_self]
  | writes _ now next outcome row hmeets => exact absurd hmeets hok
  | _ => exact absurd rfl hok

lemma misreport_lasts (h : ¬ ConflictsReportWinner requests s)
    (hstep : step hasTimestamps requests s action = some t) :
    ¬ ConflictsReportWinner requests t := by
  obtain ⟨k, phase, hcalls, hopen, _⟩ := moves_of_step hstep
  intro hrep
  refine h ?_
  intro k' outcome decidedOn hph
  refine hrep k' outcome decidedOn ?_
  have hk : k' ≠ k := by
    rintro rfl
    exact hopen outcome decidedOn hph
  rw [hcalls, Function.update_of_ne hk]
  exact hph

end RowState

open RowState in
/-- The conflicts of a run report the state that won just if every call that gets the row
finds that its newest version still meets the precondition. -/
theorem conflicts_report_winner_iff {κ ν : Type} [DecidableEq κ] (hasTimestamps : Bool)
    (requests : κ → Call ν) (row : Option (VersionedRow ν)) (run : List (RowAction κ ν))
    (s : RowState κ ν) (hexec : Machine.exec (step hasTimestamps requests) (init row) run = some s) :
    s.ConflictsReportWinner requests ↔ Machine.Guarded (step hasTimestamps requests)
      (fun s action => stillMeets requests s action = true) (init row) run := by
  have hiff := Machine.guarded_iff_not_marked
    (fun s action => stillMeets requests s action = true) (CallInv requests)
    (fun s => ¬ s.ConflictsReportWinner requests) ?_ (fun _ _ _ => misreport_lasts)
    (callInv_init requests row) (not_not.mpr nofun) hexec
  · rw [hiff, not_not]
  · intro s action t hs hstep
    refine ⟨callInv_step hs hstep, fun hpre => ?_⟩
    rw [not_not] at hpre ⊢
    constructor
    · exact fun hok => (reportWinner_step ⟨hs, hpre⟩ hok hstep).2
    · exact fun haft => by_contra fun hok => misreports_of_step hs hok hstep haft

/-- A row at its first version, and two calls on it. -/
def firstVersion : VersionedRow Unit := ⟨fun _ => (), 1⟩

def twoCalls (first second : Call Unit) : Bool → Call Unit := fun k => if k then second else first

/-- An update of the row that `If-Match: "1"` guards. -/
def updateFirst : Call Unit := ⟨.update [("email".toList, ())], .versions [1]⟩

def deleteFirst : Call Unit := ⟨.delete, .versions [1]⟩

/-- Both statements start, and the second gets the row after the first has committed. -/
def overtaken : List (RowAction Bool Unit) :=
  [.start false, .start true, .acquire false (), .commit false, .acquire true ()]

/-- The second statement starts after the first has committed. -/
def inTurn : List (RowAction Bool Unit) :=
  [.start false, .acquire false (), .commit false, .start true]

open RowState in
theorem sequential_conflict_reports_winner :
    ∃ s, Machine.exec (step true (twoCalls updateFirst deleteFirst)) (init (some firstVersion))
        inTurn = some s ∧
      (∃ row, s.calls true = .ended (.conflict 2) (some row)) ∧
      s.ConflictsReportWinner (twoCalls updateFirst deleteFirst) := by
  refine ⟨_, rfl, ⟨_, rfl⟩, ?_⟩
  exact (conflicts_report_winner_iff true (twoCalls updateFirst deleteFirst) (some firstVersion)
    inTurn _ rfl).mpr (by decide +kernel)

open RowState in
/-- The loser is told version 1, which it had named, although the row is at version 2 or
deleted. -/
theorem overtaken_call_reports_snapshot :
    (∃ s, Machine.exec (step true (twoCalls updateFirst updateFirst)) (init (some firstVersion))
        overtaken = some s ∧
      (∃ row, s.calls true = .ended (.conflict 1) (some row) ∧ row.version = 2) ∧
      ¬ s.ConflictsReportWinner (twoCalls updateFirst updateFirst)) ∧
    ∃ s, Machine.exec (step true (twoCalls deleteFirst updateFirst)) (init (some firstVersion))
        overtaken = some s ∧
      s.row.isNone = true ∧ s.calls true = .ended (.conflict 1) none ∧
      ¬ s.ConflictsReportWinner (twoCalls deleteFirst updateFirst) := by
  constructor
  · refine ⟨_, rfl, ⟨_, rfl, rfl⟩, ?_⟩
    intro h
    exact (h true _ _ rfl).conflict 1 rfl [1] rfl (by decide)
  · refine ⟨_, rfl, rfl, rfl, ?_⟩
    intro h
    exact absurd ((h true _ _ rfl).deleted rfl) nofun

end BoilerplateExpress.Db

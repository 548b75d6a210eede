import BoilerplateExpress.Db.Session

/-!
# Transactions on a pooled connection

`db/transaction.ts`: the statements around the callback and the release of the connection.

The callback is any program of statements. It sees every answer, failures included, and may
go on after one.
-/
namespace BoilerplateExpress.Db.Pooled

open Async (request requestAll catching)
open List

structure TransactionOptions where
  isolationLevel : Option IsolationLevel := none
  lockTimeoutMs : Option ℚ := none
  deadlockTimeoutMs : Option ℚ := none

def beginStatement (options : TransactionOptions) : Statement := .begin options.isolationLevel

def localSetting (name : String) : Option ℚ → Except RangeError (List Statement)
  | none => .ok []
  | some ms =>
    if ms.den = 1 ∧ 0 ≤ ms then .ok [.setLocal name ms.num.toNat]
    else .error ⟨"withTransaction: " ++ name ++
      " must be given as a non-negative integer of milliseconds, received ", ms⟩

/-- The `SET LOCAL` statements, in the order they are sent. -/
def localSettingStatements (options : TransactionOptions) : Except RangeError (List Statement) := do
  let lock ← localSetting "lock_timeout" options.lockTimeoutMs
  let deadlock ← localSetting "deadlock_timeout" options.deadlockTimeoutMs
  return lock ++ deadlock

variable {Row X T : Type}

/-- A caller's function of the transaction client. -/
abbrev Callback (Row X T : Type) := Async Statement (Answer Row X) (Failure X) T

/-- A call that holds a connection. -/
abbrev Call (Row X T : Type) := Async Request (Answer Row X) (Failure X) T

def send (q : Statement) : Call Row X (Rows Row) := request (.query .wrapper q)

def callback (fn : Callback Row X T) : Call Row X T := fn.mapQuery (.query .callback)

/-- What stands inside the `try`. -/
def transact (fn : Callback Row X T) (options : TransactionOptions) (settings : List Statement) :
    Call Row X T := do
  let _ ← send (beginStatement options)
  requestAll (settings.map (.query .wrapper))
  let result ← callback fn
  let _ ← send .commit
  return result

/-- The failure of the ROLLBACK itself is suppressed. -/
def rollback (error : Failure X) : Call Row X T :=
  .ask (.query .wrapper .rollback) (fun _ => .done (.error error))

/-- `try`, `catch` and `finally`. -/
def transactAndRelease (fn : Callback Row X T) (options : TransactionOptions)
    (settings : List Statement) : Call Row X T :=
  (catching (transact fn options settings) rollback).bind fun outcome =>
    .ask (.release none) (fun _ => .done outcome)

def withTransaction (fn : Callback Row X T) (options : TransactionOptions) : Call Row X T :=
  match localSettingStatements options with
  | .error error => .done (.error (.range error))
  | .ok settings => do
    let _ ← request .connect
    transactAndRelease fn options settings

/-! ### The connection at its release -/

/-- The exchange is the wrapper's ROLLBACK, and leaves the block open that it should end. -/
def LeavesOpen (e : Exchange Row) : Prop :=
  e.query = .query .wrapper .rollback ∧ e.before.block ≠ none ∧ e.choice.takesEffect = false

instance : DecidablePred (LeavesOpen : Exchange Row → Prop) :=
  fun _ => inferInstanceAs (Decidable (_ ∧ _))

lemma block_after_rollback (s fate) :
    (serve s (.query .wrapper .rollback) fate : Session × Answer Row X).1.block = none ↔
      ¬ LeavesOpen (⟨s, .query .wrapper .rollback, fate⟩ : Exchange Row) := by
  rw [serve, s.block_rollback fate]
  simp only [LeavesOpen, not_and, Bool.not_eq_false]
  tauto

/-- The request is a statement. -/
def IsQuery (r : Request) : Prop := ∃ sender q, r = .query sender q

/-- A statement that is not the wrapper's ROLLBACK. -/
def Tries (r : Request) : Prop := IsQuery r ∧ r ≠ .query .wrapper .rollback

variable {settings : List Statement}

lemma tries_transact (fn : Callback Row X T) (options) (hset : ∀ q ∈ settings, q ≠ .rollback) :
    (transact fn options settings).All Tries := by
  have hsend (q : Statement) (hq : q ≠ .rollback) : Tries (.query .wrapper q) :=
    ⟨⟨_, _, rfl⟩, fun h => hq (Request.query.inj h).2⟩
  refine Async.all_andThen (Async.all_request (hsend _ (by simp [beginStatement]))) (fun _ => ?_)
  refine Async.all_andThen (Async.all_requestAll ?_) (fun _ => ?_)
  · intro r hr
    obtain ⟨q, hq, rfl⟩ := mem_map.mp hr
    exact hsend q (hset q hq)
  · refine Async.all_andThen (Script.all_mapQuery (Script.all_of_forall ?_ fn)) (fun _ => ?_)
    · exact fun q => ⟨⟨_, q, rfl⟩, fun h => by cases h⟩
    · exact Async.all_andThen (Async.all_request (hsend _ (by simp))) (fun _ => trivial)

lemma transact_ends (fn : Callback Row X T) (options settings) :
    Script.Triple serve (fun _ => True) (transact fn options settings)
      (fun r s _ => ∀ v, r = .ok v → s.block = none) := by
  refine Async.triple_andThen (Script.triple_true _) (fun _ _ => ?_) (fun _ _ _ _ _ h => by cases h)
  refine Async.triple_andThen (Script.triple_true _) (fun _ _ => ?_) (fun _ _ _ _ _ h => by cases h)
  refine Async.triple_andThen (Script.triple_true _) (fun v _ => ?_) (fun _ _ _ _ _ h => by cases h)
  have hcom : Script.Triple serve (fun _ => True) (send .commit : Call Row X (Rows Row))
      (fun r s _ => ∀ rows, r = .ok rows → s.block = none) :=
    Async.triple_request (fun s fate _ rows h => s.block_of_commit_ok fate h)
  refine Async.triple_andThen hcom (fun rows log => ?_) (fun _ _ _ _ _ h => by cases h)
  exact Script.triple_done (fun s hs _ _ => hs rows rfl)

lemma mem_localSettingStatements {options q} (h : localSettingStatements options = .ok settings)
    (hq : q ∈ settings) : ∃ name ms, q = .setLocal name ms := by
  have hone (name : String) (value : Option ℚ) (qs : List Statement)
      (hqs : localSetting name value = .ok qs) (hq : q ∈ qs) :
      ∃ name ms, q = .setLocal name ms := by
    cases value with
    | none =>
      cases hqs
      cases hq
    | some ms =>
      rw [localSetting] at hqs
      split_ifs at hqs
      cases hqs
      exact ⟨name, _, mem_singleton.mp hq⟩
  obtain ⟨lock, hlock, h⟩ := bind_eq_ok h
  obtain ⟨deadlock, hdead, h⟩ := bind_eq_ok h
  cases h
  rcases mem_append.mp hq with hq | hq
  · exact hone _ _ lock hlock hq
  · exact hone _ _ deadlock hdead hq

lemma not_leavesOpen {log : List (Exchange Row)} (h : ∀ e ∈ log, Tries e.query) :
    ∀ e ∈ log, ¬ LeavesOpen e := fun e he hopen => (h e he).2 hopen.1

/-- After the `try` and its `catch` no block is open, unless the ROLLBACK has left it so. -/
lemma catching_transact (fn : Callback Row X T) (options) (hset : ∀ q ∈ settings, q ≠ .rollback) :
    Script.Triple serve (fun _ => True) (catching (transact fn options settings) rollback)
      (fun _ s log => ((∀ e ∈ log, ¬ LeavesOpen e) ↔ s.block = none) ∧
        ∀ e ∈ log, IsQuery e.query) := by
  refine Async.triple_catching ((Script.triple_all (tries_transact fn options hset)).and
    (transact_ends fn options settings)) ?_ ?_
  · rintro v s log ⟨hlog, hblock⟩
    exact ⟨iff_of_true (not_leavesOpen hlog) (hblock v rfl), fun e he => (hlog e he).1⟩
  · intro error log
    refine Script.triple_ask (fun s fate hs => Script.triple_done ?_)
    rintro _ rfl
    simp only [forall_mem_append, forall_mem_singleton]
    refine ⟨?_, fun e he => (hs.1 e he).1, _, _, rfl⟩
    rw [and_iff_right (not_leavesOpen hs.1)]
    exact (block_after_rollback s fate).symm

/-- A connection that is released for reuse has no block open. -/
def ReleasedClean (log : List (Exchange Row)) : Prop :=
  ∀ e ∈ log, e.query = .release none → e.before.block = none

lemma releasedClean_of_isQuery {log : List (Exchange Row)} (h : ∀ e ∈ log, IsQuery e.query) :
    ReleasedClean log := by
  intro e he hrelease
  obtain ⟨sender, q, hquery⟩ := h e he
  rw [hquery] at hrelease
  cases hrelease

lemma releasedClean_append {log log' : List (Exchange Row)} :
    ReleasedClean (log ++ log') ↔ ReleasedClean log ∧ ReleasedClean log' := forall_mem_append

lemma connect_released {P} :
    Script.Triple serve P (request .connect : Call Row X (Rows Row))
      (fun _ s log => P s ∧ ReleasedClean log) :=
  Async.triple_request (fun s fate hs => ⟨hs, by simp [ReleasedClean]⟩)

lemma withTransaction_released (fn : Callback Row X T) (options) :
    Script.Triple serve (fun _ => True) (withTransaction fn options)
      (fun _ _ log => (∀ e ∈ log, ¬ LeavesOpen e) ↔ ReleasedClean log) := by
  unfold withTransaction
  split
  · exact Script.triple_done (fun s _ => by simp [ReleasedClean])
  · rename_i settings hsettings
    have hset : ∀ q ∈ settings, q ≠ .rollback := by
      intro q hq
      obtain ⟨name, ms, rfl⟩ := mem_localSettingStatements hsettings hq
      exact Statement.noConfusion
    have hconnect : Script.Triple serve (fun _ => True) (request .connect : Call Row X (Rows Row))
        (fun _ _ log => (∀ e ∈ log, ¬ LeavesOpen e) ∧ ReleasedClean log) :=
      Async.triple_request (fun s fate _ => by simp [LeavesOpen, ReleasedClean])
    refine Async.triple_andThen hconnect (fun _ connected => ?_)
      (fun _ _ _ h => iff_of_true h.1 h.2)
    refine Script.triple_of_fact (fun s hs => hs) (fun hcon => ?_)
    refine Script.triple_bind ((catching_transact fn options hset).mono (fun _ _ => trivial)
      (fun _ _ _ h => h)) (fun outcome log => ?_)
    refine Script.triple_ask (fun s fate hs => Script.triple_done ?_)
    intro _ _
    rw [releasedClean_append, releasedClean_append, forall_mem_append, forall_mem_append,
      and_iff_right hcon.1, and_iff_right hcon.2, hs.1,
      and_iff_right (releasedClean_of_isQuery hs.2)]
    simp [LeavesOpen, ReleasedClean]

/-! ### Resolved and committed -/

lemma withTransaction_pending (fn : Callback Row X T) (options) :
    Script.Triple serve (fun _ => True) (withTransaction fn options)
      (fun r s _ => ∀ v, r = .ok v → s.pending = []) := by
  unfold withTransaction
  split
  · exact Script.triple_done (fun s _ v h => by cases h)
  · rename_i settings _
    refine Async.triple_andThen (Script.triple_true _) (fun _ _ => ?_)
      (fun _ _ _ _ v h => by cases h)
    have hends : Script.Triple serve (fun _ => True)
        (catching (transact fn options settings) rollback : Call Row X T)
        (fun r s _ => ∀ v, r = .ok v → s.block = none) :=
      Async.triple_catching (transact_ends fn options settings) (fun _ _ _ h => h)
        (fun error _ => Script.triple_ask
          (fun _ _ _ => Script.triple_done (fun _ _ v h => by cases h)))
    refine Script.triple_bind hends (fun outcome _ => ?_)
    refine Script.triple_ask (fun s fate hs => Script.triple_done ?_)
    rintro _ rfl v hv
    exact Session.pending_of_block_none (hs v hv)

/-- If the transaction resolves, every write that the callback issued successfully is
committed, provided that no statement was refused and no ROLLBACK sent while the open block
held such a write; and only then, where the session has seen no moment that is still to come. -/
theorem resolved_writes_committed (fn : Callback Row X T) (options : TransactionOptions)
    (fates : ℕ → Fate Row) (s : Session) (v : T)
    (h : (Script.run serve (withTransaction fn options) fates s).result = .ok v) :
    let call := Script.run serve (withTransaction fn options) fates s
    let Committed := ∀ w ∈ call.log, Succeeded X w → w.before.clock ∈ call.state.committed
    (KeepsWrites X call.log → Committed) ∧ (s.Dated → Committed → KeepsWrites X call.log) := by
  have hlinked := Script.linked_run (serve : Session → Request → Fate Row → Session × Answer Row X)
    (withTransaction fn options) fates s
  refine ⟨all_committed hlinked (withTransaction_pending fn options fates s trivial v h), ?_⟩
  intro hs hcommitted e he hdiscards w hw hok hpending
  exact not_committed_of_discarded hlinked hs he hdiscards hpending (hcommitted w hw hok)

/-- A session as the pool hands it out. -/
def freshSession : Session := ⟨0, [], none, fun _ => 0⟩

/-- The second insert fails, and the callback goes on as if it had not. -/
def swallowing : Callback Unit Unit Unit :=
  .ask (.change "INSERT a") fun _ => .ask (.change "INSERT b") fun _ => .done (.ok ())

def secondRefused (i : ℕ) : Fate Unit := if i = 3 then .refused "23505" else .served true ()

theorem swallowed_failure_loses_write :
    ¬ ∀ (fn : Callback Unit Unit Unit) (options : TransactionOptions) (fates : ℕ → Fate Unit) v,
      (Script.run serve (withTransaction fn options) fates freshSession).result = .ok v →
      ∀ w ∈ (Script.run serve (withTransaction fn options) fates freshSession).log,
        Succeeded Unit w → w.before.clock ∈
          (Script.run serve (withTransaction fn options) fates freshSession).state.committed := by
  intro h
  have hw := h swallowing {} secondRefused () rfl _ (mem_of_getElem? (i := 2) rfl)
    ⟨"INSERT a", rfl, _, rfl⟩
  cases hw

theorem answered_inserts_committed :
    (Script.run serve (withTransaction swallowing {}) (fun _ => .served true ())
      freshSession).result = .ok () ∧
    ∀ w ∈ (Script.run serve (withTransaction swallowing {}) (fun _ => .served true ())
      freshSession).log, Succeeded Unit w → w.before.clock ∈ [1, 2] := by
  refine ⟨rfl, (resolved_writes_committed swallowing {} (fun _ => .served true ())
    freshSession () rfl).1 ?_⟩
  have hnone : ∀ e ∈ (Script.run serve (withTransaction swallowing {}) (fun _ => .served true ())
      freshSession).log, ¬ Discards e := by decide
  exact fun e he hd => absurd hd (hnone e he)

end BoilerplateExpress.Db.Pooled

import BoilerplateExpress.Db.AdvisoryLock

/-!
# The transaction state of a released connection

Both calls end by giving their connection back. Without an error it is used again as it is,
with whatever block the server has open on it.
-/
namespace BoilerplateExpress.Db.Pooled

open List

variable {Row X T : Type}

/-- An exchange after which a block stays open that nothing of the call will end: a ROLLBACK
without effect, or a BEGIN that the server carries out while the caller sees it fail. -/
def StaysOpen (e : Exchange Row) : Prop :=
  LeavesOpen e ∨ e.query = .query .wrapper (.begin none) ∧ e.choice.unheard = true

instance : DecidablePred (StaysOpen : Exchange Row → Prop) :=
  fun e => inferInstanceAs (Decidable (LeavesOpen e ∨ _ ∧ _))

lemma takeLock_ends {P} (key mode settings) :
    Script.Triple serve P (takeLock key mode settings : Script Request (Answer Row X) _)
      (fun r s _ => r.2 = .ok () → s.block = none) := by
  refine Script.triple_bind (Script.triple_true _) (fun r _ => ?_)
  cases r with
  | error error => exact Script.triple_done (fun _ _ h => by cases h)
  | ok _ =>
    refine Script.triple_bind (Script.triple_true _) (fun r _ => ?_)
    cases r with
    | error error => exact Script.triple_done (fun _ _ h => by cases h)
    | ok rows =>
      have hcommit : Script.Triple serve (fun _ => True) (send .commit : Call Row X (Rows Row))
          (fun r s _ => ∀ rows, r = .ok rows → s.block = none) :=
        Async.triple_request (fun s fate _ rows h => s.block_of_commit_ok fate h)
      refine Script.triple_bind hcommit (fun answer _ => Script.triple_done ?_)
      intro s hs h
      cases answer with
      | error error => cases h
      | ok rows => exact hs rows rfl

lemma begin_block :
    Script.Triple serve (fun s => s.block = none) (send (.begin none) : Call Row X (Rows Row))
      (fun r s log => ∀ error, r = .error error → (∀ e ∈ log, ¬ StaysOpen e) → s.block = none) := by
  refine Async.triple_request (fun s fate hs error hr hnone => ?_)
  have hheard := (not_or.mp (hnone _ mem_cons_self)).2
  have hrej : s.rejects (.begin none) = false := by simp [Session.rejects, hs]
  simp only [serve, Session.query, hrej] at hr ⊢
  rcases fate with ⟨granted, rows⟩ | code | (_ | granted | _)
  · cases hr
  · simp [Session.after, Session.refuse, Session.abort, Session.tick, hs]
  · exact hs
  · exact absurd ⟨rfl, rfl⟩ hheard
  · simp [Session.after, Session.refuse, Session.abort, Session.tick, hs]

lemma acquire_block (key mode settings) :
    Script.Triple serve (fun s => s.block = none)
      (acquire key mode settings : Script Request (Answer Row X) _)
      (fun _ s log => (∀ e ∈ log, ¬ StaysOpen e) → s.block = none) := by
  refine Script.triple_bind begin_block (fun r begun => ?_)
  cases r with
  | error error => exact Script.triple_done (fun s hs h => hs error rfl (by simpa using h))
  | ok rows =>
    refine Script.triple_bind (takeLock_ends key mode settings) (fun r taken => ?_)
    obtain ⟨held, outcome⟩ := r
    cases outcome with
    | ok _ => exact Script.triple_done (fun s hs _ => hs rfl)
    | error error =>
      refine Script.triple_ask (fun s fate hs => Script.triple_done ?_)
      rintro _ rfl h
      simp only [forall_mem_append, forall_mem_singleton] at h
      exact (block_after_rollback s fate).mpr (not_or.mp h.2.2).1

/-- The request opens no block and ends none. -/
def Quiet : Request → Prop
  | .query _ q => q.isTransactionControl = false
  | _ => True

lemma block_of_quiet {r s} (hr : Quiet r) (hs : s.block = none) (fate) :
    (serve s r fate : Session × Answer Row X).1.block = none := by
  cases r with
  | query sender q => exact (s.block_none_iff q fate hr).mpr hs
  | release error => cases error <;> first | exact hs | rfl
  | _ => exact hs

variable {fn : Callback Row X T}

/-- From the lock on nothing opens a block: the callback has no transaction control. -/
lemma quiet_rest (key) (hfn : fn.All (·.isTransactionControl = false)) (held outcome) :
    ((runHolding fn held outcome).bind fun result => releaseLock key held result).All Quiet := by
  refine Script.all_bind ?_ (fun result => ?_)
  · cases outcome with
    | error error => trivial
    | ok _ =>
      cases held with
      | false => trivial
      | true =>
        refine ⟨trivial, fun _ => Script.all_bind (Script.all_mapQuery hfn) (fun _ => ?_)⟩
        exact ⟨trivial, fun _ => trivial⟩
  · refine Script.all_bind ?_ (fun _ => ⟨trivial, fun _ => trivial⟩)
    cases held with
    | false => trivial
    | true =>
      refine Script.all_bind (Script.all_bind (Async.all_request rfl) (fun r => ?_))
        (fun _ => trivial)
      cases r <;> trivial

lemma withAdvisorySessionLock_released (key) (hfn : fn.All (·.isTransactionControl = false))
    (options) :
    Script.Triple serve (fun s => s.block = none) (withAdvisorySessionLock key fn options)
      (fun _ _ log => (∀ e ∈ log, ¬ StaysOpen e) → ReleasedClean log) := by
  unfold withAdvisorySessionLock
  split
  · exact Script.triple_done (fun s _ _ => by simp [ReleasedClean])
  · rename_i settings _
    refine Async.triple_andThen connect_released (fun _ connected => ?_) (fun _ _ _ h _ => h.2)
    refine Script.triple_of_fact (F := ReleasedClean connected) (fun s hs => hs.2)
      (fun hcon => ?_)
    have hall : (acquire key options.wait settings : Script Request (Answer Row X) _).All IsQuery :=
      (wrapped_acquire key options.wait settings).mono (fun r h => ⟨_, h.choose, h.choose_spec⟩)
    refine Script.triple_bind (((acquire_block key options.wait settings).mono
      (fun s hs => hs.1) (fun _ _ _ h => h)).and (Script.triple_all hall)) (fun r acquired => ?_)
    refine Script.triple_of_fact (F := ReleasedClean acquired)
      (fun s hs => releasedClean_of_isQuery hs.2) (fun hacq => ?_)
    -- what holds of the block after the acquisition holds until the release
    refine (Script.triple_invariant (quiet_rest key hfn r.1 r.2)
      (I := fun s => (∀ e ∈ acquired, ¬ StaysOpen e) → s.block = none)
      (fun s q fate hq hs h => block_of_quiet hq (hs h) fate)).mono (fun s hs => hs.1) ?_
    rintro _ s log ⟨_, hlog⟩ hnone
    simp only [forall_mem_append] at hnone
    exact releasedClean_append.mpr ⟨hcon, releasedClean_append.mpr
      ⟨hacq, fun e he _ => (hlog e he).1 hnone.2.1⟩⟩

/-- For both calls, whatever fails: a connection that is released for reuse has no open block if
each ROLLBACK ended the block that it met, and for the session lock, whose BEGIN has no
ROLLBACK, if no failed BEGIN was carried out. For the transaction the condition is exact. -/
theorem released_outside_transaction (fn : Callback Row X T) (options : TransactionOptions)
    (key : AdvisoryLockKey) (lockOptions : AdvisorySessionLockOptions) (fates : ℕ → Fate Row)
    (s : Session) (hfn : fn.All (·.isTransactionControl = false)) (hs : s.block = none) :
    let transaction := Script.run serve (withTransaction fn options) fates s
    let locked := Script.run serve (withAdvisorySessionLock key fn lockOptions) fates s
    ((∀ e ∈ transaction.log, ¬ LeavesOpen e) ↔ ReleasedClean transaction.log) ∧
      ((∀ e ∈ locked.log, ¬ StaysOpen e) → ReleasedClean locked.log) :=
  ⟨withTransaction_released fn options fates s trivial,
    withAdvisorySessionLock_released key hfn lockOptions fates s hs⟩

/-- The ROLLBACK of a failed transaction is carried out, and so is that of a failed lock. -/
theorem released_after_rollback :
    ReleasedClean (Script.run serve (withTransaction failing {}) (fun _ => .served true ())
      freshSession).log ∧
    ReleasedClean (Script.run serve (withAdvisorySessionLock sampleKey failing {})
      (fun i => if i = 2 then .refused "57014" else .served true ()) freshSession).log :=
  ⟨(released_outside_transaction failing {} sampleKey {} (fun _ => .served true ())
      freshSession trivial rfl).1.mp (by decide), (released_outside_transaction failing {} sampleKey {}
      (fun i => if i = 2 then .refused "57014" else .served true ()) freshSession trivial
      rfl).2 (by decide)⟩

/-- The driver gives up on the ROLLBACK, and the connection goes back with its block open. -/
theorem released_inside_transaction :
    (¬ ∀ (fn : Callback Unit Unit Unit) (options : TransactionOptions) (fates : ℕ → Fate Unit)
      (s : Session), fn.All (·.isTransactionControl = false) → s.block = none →
        ReleasedClean (Script.run serve (withTransaction fn options) fates s).log) ∧
    ¬ ∀ (key : AdvisoryLockKey) (fn : Callback Unit Unit Unit)
      (options : AdvisorySessionLockOptions) (fates : ℕ → Fate Unit) (s : Session),
      fn.All (·.isTransactionControl = false) → s.block = none →
        ReleasedClean (Script.run serve (withAdvisorySessionLock key fn options) fates s).log := by
  constructor
  · intro h
    have hclean := h failing {} (fun i => if i = 2 then .lost .untouched else .served true ())
      freshSession trivial rfl
    have hblock := hclean _ (mem_of_getElem? (i := 3) rfl) rfl
    cases hblock
  · intro h
    have hclean := h sampleKey failing {}
      (fun i => if i = 2 then .refused "57014" else if i = 3 then .lost .untouched
        else .served true ()) freshSession trivial rfl
    have hblock := hclean _ (mem_of_getElem? (i := 4) rfl) rfl
    cases hblock

end BoilerplateExpress.Db.Pooled

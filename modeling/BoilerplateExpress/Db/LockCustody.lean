import BoilerplateExpress.Db.AdvisoryLock

/-!
# Who holds the session lock

The count of an advisory lock along `withAdvisorySessionLock`. The flag `held` and the count
agree at every step between two statements, as long as a failed statement leaves the locks of
the session as they are.
-/
namespace BoilerplateExpress.Db.Pooled

open Async (request requestAll)
open List

variable {Row X T : Type}

/-- A statement that fails has no effect on the session's locks. -/
abbrev CleanFate (Row : Type) := { fate : Fate Row // fate.unheard = false }

def serveCleanly (s : Session) (r : Request) (fate : CleanFate Row) : Session × Answer Row X :=
  serve s r fate.1

def tookLock (mode : LockWait) : Answer Row X → Bool
  | .ok rows => acquired mode rows
  | .error _ => false

lemma locks_lockStatement (mode name) (s : Session) (fate : CleanFate Row) :
    (s.query (lockStatement mode name) fate.1 : Session × Answer Row X).1.locks name =
      s.locks name + (tookLock mode
        (s.query (lockStatement mode name) fate.1 : Session × Answer Row X).2).toNat := by
  obtain ⟨fate, hclean⟩ := fate
  rw [Session.query]
  split_ifs
  · rcases fate with ⟨granted, rows⟩ | code | happened <;> rfl
  · rcases fate with ⟨granted, rows⟩ | code | (_ | granted | _)
    · cases mode with
      | wait => simp [lockStatement, Session.after, Session.execute, Session.setLock, Session.tick,
          Session.answer, tookLock, acquired]
      | nowait => cases granted <;> simp [lockStatement, Session.after, Session.execute,
          Session.setLock, Session.tick, Session.answer, Session.grants, Session.reply, tookLock,
          acquired, Rows.isTrue]
    · cases mode <;> exact congrFun s.locks_abort name
    · rfl
    · cases hclean
    · cases mode <;> exact congrFun s.locks_abort name

lemma locks_unlock (name) (s : Session) (fate : CleanFate Row) :
    (s.query (.advisoryUnlock name) fate.1 : Session × Answer Row X).1.locks name +
        (tookLock .nowait
          (s.query (.advisoryUnlock name) fate.1 : Session × Answer Row X).2).toNat =
      s.locks name := by
  obtain ⟨fate, hclean⟩ := fate
  rw [Session.query]
  split_ifs
  · rcases fate with ⟨granted, rows⟩ | code | happ <;> rfl
  · rcases fate with ⟨granted, rows⟩ | code | (_ | granted | _)
    · cases hgr : s.grants granted (.advisoryUnlock name) with
      | false => simp [Session.after, Session.execute, hgr, Session.tick, Session.answer,
          Session.reply, tookLock, acquired, Rows.isTrue]
      | true =>
        have hheld : 0 < s.locks name := by
          simp only [Session.grants, Bool.and_eq_true, decide_eq_true_eq] at hgr
          exact hgr.2
        simp [Session.after, Session.execute, hgr, Session.setLock, Session.tick,
          Session.answer, Session.reply, tookLock, acquired, Rows.isTrue]
        omega
    · exact congrFun s.locks_abort name
    · rfl
    · cases hclean
    · exact congrFun s.locks_abort name

/-- The session is left with the same count of this lock. -/
def Untouching (name : LockName) (r : Request) : Prop :=
  match r with
  | .query _ q => q.touches name = false
  | .release error => error = none
  | _ => True

lemma locks_untouching {name n} (s r fate) (hr : Untouching name r) (hs : s.locks name = n) :
    (serveCleanly s r fate : Session × Answer Row X).1.locks name = n := by
  rcases r with _ | ⟨sender, q⟩ | _ | _ | _ | error
  · exact hs
  · exact (s.locks_of_not_touches q fate.1 hr).trans hs
  · exact hs
  · exact hs
  · exact hs
  · obtain rfl : error = none := hr
    exact hs

section Locks

variable {name : LockName} {n : ℕ}

lemma triple_untouching {R : Type} {p : Script Request (Answer Row X) R}
    (hp : p.All (Untouching name)) :
    Script.Triple (serveCleanly : Session → Request → CleanFate Row → _)
      (fun s => s.locks name = n) p (fun _ s log => s.locks name = n ∧
        ∀ e ∈ log, e.before.locks name = n) := by
  refine (Script.triple_invariant hp locks_untouching).mono (fun _ h => h) ?_
  rintro r s log ⟨hs, hlog⟩
  exact ⟨hs, fun e he => (hlog e he).1⟩

end Locks

lemma takeLock_locks {settings} (key mode) (hset : ∀ q ∈ settings, ∃ name ms, q = .setLocal name ms)
    (n) :
    Script.Triple (serveCleanly : Session → Request → CleanFate Row → _)
      (fun s => s.locks key.lockName = n)
      (takeLock key mode settings : Script Request (Answer Row X) _)
      (fun r s _ => s.locks key.lockName = n + r.1.toNat) := by
  have hsend : (requestAll (settings.map (.query .wrapper)) : Call Row X Unit).All
      (Untouching key.lockName) := by
    refine Async.all_requestAll ?_
    intro r hr
    obtain ⟨q, hq, rfl⟩ := mem_map.mp hr
    obtain ⟨name, ms, rfl⟩ := hset q hq
    rfl
  refine Script.triple_bind (triple_untouching hsend) (fun r _ => ?_)
  cases r with
  | error error => exact Script.triple_done (fun s hs => hs.1)
  | ok _ =>
    have hlock : Script.Triple serveCleanly (fun s => s.locks key.lockName = n)
        (send (lockStatement mode key.lockName) : Call Row X (Rows Row))
        (fun (r : Answer Row X) s _ => s.locks key.lockName = n + (tookLock mode r).toNat) :=
      Async.triple_request (fun s fate hs => by
        have hcnt := locks_lockStatement (X := X) mode key.lockName s fate
        rw [hs] at hcnt
        exact hcnt)
    refine Script.triple_bind (hlock.mono (fun s hs => hs.1) (fun _ _ _ h => h)) (fun r _ => ?_)
    cases r with
    | error error => exact Script.triple_done (fun s hs => hs)
    | ok rows =>
      have hcom : (send .commit : Call Row X (Rows Row)).All (Untouching key.lockName) :=
        Async.all_request rfl
      refine Script.triple_bind (triple_untouching hcom) (fun answer _ => ?_)
      exact Script.triple_done (fun s hs => hs.1)

/-- The flag says whether the session has taken the lock, also when the COMMIT failed. -/
lemma acquire_locks {settings} (key mode) (hset : ∀ q ∈ settings, ∃ name ms, q = .setLocal name ms)
    (n) :
    Script.Triple (serveCleanly : Session → Request → CleanFate Row → _)
      (fun s => s.locks key.lockName = n)
      (acquire key mode settings : Script Request (Answer Row X) _)
      (fun r s _ => s.locks key.lockName = n + r.1.toNat) := by
  have hbegin : (send (.begin none) : Call Row X (Rows Row)).All (Untouching key.lockName) :=
    Async.all_request rfl
  refine Script.triple_bind (triple_untouching hbegin) (fun r _ => ?_)
  cases r with
  | error error => exact Script.triple_done (fun s hs => hs.1)
  | ok _ =>
    refine Script.triple_bind ((takeLock_locks key mode hset n).mono (fun s hs => hs.1)
      (fun _ _ _ h => h)) (fun r _ => ?_)
    obtain ⟨held, outcome⟩ := r
    cases outcome with
    | ok _ => exact Script.triple_done (fun s hs => hs)
    | error error =>
      refine Script.triple_ask (fun s fate hs => Script.triple_done ?_)
      rintro _ rfl
      exact locks_untouching s (.query .wrapper .rollback) fate rfl hs

def isRelease : Request → Bool
  | .release _ => true
  | _ => false

/-- How often the log gives a connection back. -/
def releases (log : List (Script.Exchange Session Request (CleanFate Row))) : ℕ :=
  log.countP (fun e => isRelease e.query)

/-- How often the log takes a connection from the pool. -/
def connections (log : List (Script.Exchange Session Request (CleanFate Row))) : ℕ :=
  log.countP (fun e => e.query = .connect && e.choice.1.takesEffect)

/-- What a part of the log says of the connection and of the lock, taken `n` times before the
call: how often a connection is taken and given back, and that the callback runs with the lock
and a connection is reused without it. -/
structure NoLeak (name : LockName) (n taken released : ℕ)
    (log : List (Script.Exchange Session Request (CleanFate Row))) : Prop where
  connections : connections log = taken
  releases : releases log = released
  holding : ∀ e ∈ log, Holding e.query → e.before.locks name = n + 1
  reused : ∀ e ∈ log, e.query = .release none → e.before.locks name = n

section NoLeak

variable {name : LockName} {n : ℕ} {log log' : List (Script.Exchange Session Request (CleanFate Row))}

lemma NoLeak.append {taken released taken' released'} (h : NoLeak name n taken released log)
    (h' : NoLeak name n taken' released' log') :
    NoLeak name n (taken + taken') (released + released') (log ++ log') where
  connections := countP_append.trans (congrArg₂ _ h.connections h'.connections)
  releases := countP_append.trans (congrArg₂ _ h.releases h'.releases)
  holding := forall_mem_append.mpr ⟨h.holding, h'.holding⟩
  reused := forall_mem_append.mpr ⟨h.reused, h'.reused⟩

/-- Statements take no connection and give none back. -/
lemma noLeak_of_statements (h : ∀ e ∈ log, Wrapped e.query ∨
    Holding e.query ∧ e.before.locks name = n + 1) : NoLeak name n 0 0 log := by
  have hquiet {e : Script.Exchange Session Request (CleanFate Row)} (he : e ∈ log) :
      isRelease e.query = false ∧ e.query ≠ .connect ∧
        (Holding e.query → e.before.locks name = n + 1) := by
    rcases h e he with ⟨q, hq⟩ | ⟨hq, hlocks⟩
    · simp [hq, isRelease, Holding]
    · rcases hq with hq | hq | ⟨q, hq⟩ <;> simp [hq, isRelease, hlocks]
  refine ⟨?_, ?_, fun e he => (hquiet he).2.2, ?_⟩
  · exact countP_eq_zero.mpr (fun e he => by simp [(hquiet he).2.1])
  · exact countP_eq_zero.mpr (fun e he => by simp [(hquiet he).1])
  · intro e he hrel
    have hnot := (hquiet he).1
    simp [hrel, isRelease] at hnot

end NoLeak

lemma runHolding_locks {key : AdvisoryLockKey} {fn : Callback Row X T}
    (hfn : fn.All (·.touches key.lockName = false)) (held outcome n) :
    Script.Triple (serveCleanly : Session → Request → CleanFate Row → _)
      (fun s => s.locks key.lockName = n + held.toNat) (runHolding fn held outcome)
      (fun _ s log => s.locks key.lockName = n + held.toNat ∧ NoLeak key.lockName n 0 0 log) := by
  cases outcome with
  | error error => exact Script.triple_done (fun s hs => ⟨hs, noLeak_of_statements (by simp)⟩)
  | ok _ =>
    cases held with
    | false => exact Script.triple_done (fun s hs => ⟨hs, noLeak_of_statements (by simp)⟩)
    | true =>
      have hall : (runHolding fn true (.ok ())).All
          (fun r => Untouching key.lockName r ∧ Holding r) := by
        refine ⟨⟨trivial, .inl rfl⟩, fun _ => Script.all_bind (Script.all_mapQuery ?_) ?_⟩
        · exact hfn.mono (fun q hq => ⟨hq, .inr (.inr ⟨q, rfl⟩)⟩)
        · exact fun _ => ⟨⟨trivial, .inr (.inl rfl)⟩, fun _ => trivial⟩
      refine (Script.triple_invariant hall (fun s r fate hr hs =>
        locks_untouching s r fate hr.1 hs)).mono (fun _ h => h) ?_
      rintro r s log ⟨hs, hlog⟩
      exact ⟨hs, noLeak_of_statements (fun e he => .inr ⟨(hlog e he).2.2, (hlog e he).1⟩)⟩

lemma stillHeld_locks (key held n) :
    Script.Triple (serveCleanly : Session → Request → CleanFate Row → _)
      (fun s => s.locks key.lockName = n + held.toNat)
      (stillHeld key held : Script Request (Answer Row X) Bool)
      (fun held s log => s.locks key.lockName = n + held.toNat ∧
        NoLeak key.lockName n 0 0 log) := by
  cases held with
  | false => exact Script.triple_done (fun s hs => ⟨hs, noLeak_of_statements (by simp)⟩)
  | true =>
    refine Script.triple_ask (fun s fate hs => ?_)
    have hcnt := locks_unlock (X := X) key.lockName s fate
    rw [hs] at hcnt
    simp only [serveCleanly, serve]
    generalize (s.query (.advisoryUnlock key.lockName) fate.1 : Session × Answer Row X) = served
      at hcnt ⊢
    obtain ⟨t, answer⟩ := served
    have hdone (released : Bool) (h : tookLock .nowait answer = released) :
        t.locks key.lockName = n + (!released).toNat ∧ NoLeak key.lockName n 0 0
          [(⟨s, .query .wrapper (.advisoryUnlock key.lockName), fate⟩ :
            Script.Exchange Session Request (CleanFate Row))] := by
      refine ⟨?_, noLeak_of_statements (forall_mem_singleton.mpr (.inl ⟨_, rfl⟩))⟩
      simp only [h] at hcnt
      cases released <;> simp only [Bool.toNat_false, Bool.not_true, Bool.not_false]
        at hcnt ⊢ <;> omega
    cases answer with
    | error error => exact Script.triple_done (by rintro _ rfl; exact hdone false rfl)
    | ok rows => exact Script.triple_done (by rintro _ rfl; exact hdone _ rfl)

/-- The connection is released once, and for reuse only without the lock. -/
lemma releaseLock_locks (key held outcome n) :
    Script.Triple (serveCleanly : Session → Request → CleanFate Row → _)
      (fun s => s.locks key.lockName = n + held.toNat) (releaseLock key held outcome : Call Row X T)
      (fun _ _ log => NoLeak key.lockName n 0 1 log) := by
  refine Script.triple_bind (stillHeld_locks key held n) (fun held log => ?_)
  refine Script.triple_ask (fun s fate hs => Script.triple_done ?_)
  intro t _
  have hlast : NoLeak key.lockName n 0 1 [⟨s, .release (releaseError key held), fate⟩] := by
    refine ⟨rfl, rfl, by simp [Holding], forall_mem_singleton.mpr (fun hquery => ?_)⟩
    cases held with
    | true => simp [releaseError] at hquery
    | false => exact hs.1
  exact hs.2.append hlast

lemma connect_locks (name n) :
    Script.Triple (serveCleanly : Session → Request → CleanFate Row → _)
      (fun s => s.locks name = n) (request .connect : Call Row X (Rows Row))
      (fun (r : Answer Row X) s log => s.locks name = n ∧ NoLeak name n r.toBool.toNat 0 log) := by
  refine Async.triple_request (fun s fate hs => ⟨hs, ?_, rfl, by simp [Holding], by simp⟩)
  obtain ⟨fate, hclean⟩ := fate
  rcases fate with ⟨granted, rows⟩ | code | (_ | granted | _)
  · rfl
  · rfl
  · rfl
  · cases hclean
  · rfl

/-- A call that gets a connection gives it back, and one that gets none has none to give. -/
lemma withAdvisorySessionLock_locks {key} {fn : Callback Row X T}
    (hfn : fn.All (·.touches key.lockName = false)) (options n) :
    Script.Triple (serveCleanly : Session → Request → CleanFate Row → _)
      (fun s => s.locks key.lockName = n) (withAdvisorySessionLock key fn options)
      (fun _ _ log => ∃ got ≤ 1, NoLeak key.lockName n got got log) := by
  unfold withAdvisorySessionLock
  split
  · exact Script.triple_done (fun s _ => ⟨0, by simp, noLeak_of_statements (by simp)⟩)
  · rename_i settings hset
    refine Async.triple_andThen (connect_locks key.lockName n) (fun _ connected => ?_)
      (fun _ s log h => ⟨0, by simp, h.2⟩)
    refine Script.triple_of_fact (fun s hs => hs.2) (fun hcon => ?_)
    refine Script.triple_bind (((acquire_locks key options.wait
      (fun q hq => mem_localSettingStatements hset hq) n).mono (fun s hs => hs.1)
      (fun _ _ _ h => h)).and (Script.triple_all (wrapped_acquire key options.wait settings)))
      (fun r acquired => ?_)
    obtain ⟨held, outcome⟩ := r
    refine Script.triple_of_fact (fun s hs => hs.2) (fun hacq => ?_)
    refine Script.triple_bind ((runHolding_locks hfn held outcome n).mono (fun s hs => hs.1)
      (fun _ _ _ h => h)) (fun result ran => ?_)
    refine Script.triple_of_fact (fun s hs => hs.2) (fun hran => ?_)
    refine (releaseLock_locks key held result n).mono (fun s hs => hs.1) ?_
    intro _ s log hrel
    have hquiet : NoLeak key.lockName n 0 0 acquired :=
      noLeak_of_statements (fun e he => .inl (hacq e he))
    exact ⟨1, le_rfl, hcon.append (hquiet.append (hran.append hrel))⟩

/-- Whatever fails, as long as a failed statement leaves the locks as they are: the connection
is released once, the callback runs while the session has taken the lock, and a connection that
is released for reuse has given it back. -/
theorem session_lock_never_leaks (key : AdvisoryLockKey) (fn : Callback Row X T)
    (options : AdvisorySessionLockOptions) (hfn : fn.All (·.touches key.lockName = false))
    (fates : ℕ → CleanFate Row) (s : Session) :
    let call := Script.run serveCleanly (withAdvisorySessionLock key fn options) fates s
    connections call.log ≤ 1 ∧ releases call.log = connections call.log ∧
      (∀ e ∈ call.log, Holding e.query →
        e.before.locks key.lockName = s.locks key.lockName + 1) ∧
      ∀ e ∈ call.log, e.query = .release none →
        e.before.locks key.lockName = s.locks key.lockName := by
  obtain ⟨got, hgot, hcall⟩ :=
    withAdvisorySessionLock_locks hfn options (s.locks key.lockName) fates s rfl
  exact ⟨hcall.connections.trans_le hgot, hcall.releases.trans hcall.connections.symm,
    hcall.holding, hcall.reused⟩

/-- A lock taken without waiting, and a callback that fails while it is held. -/
theorem session_lock_given_back :
    (failing : Callback Unit Unit Unit).All (·.touches sampleKey.lockName = false) ∧
    releases (Script.run serveCleanly (withAdvisorySessionLock sampleKey failing {})
      (fun _ => ⟨.served true (), rfl⟩) freshSession).log = 1 ∧
    ∀ e ∈ (Script.run serveCleanly (withAdvisorySessionLock sampleKey failing {})
      (fun _ => ⟨.served true (), rfl⟩) freshSession).log,
      e.query = .release none → e.before.locks (1, 7) = 0 :=
  have hcall := session_lock_never_leaks sampleKey failing {} trivial
    (fun _ => ⟨.served true (), rfl⟩) freshSession
  ⟨trivial, hcall.2.1.trans rfl, hcall.2.2.2⟩

end BoilerplateExpress.Db.Pooled

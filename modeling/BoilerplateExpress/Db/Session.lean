import BoilerplateExpress.Errors
import BoilerplateExpress.Script

/-!
# A session of the database, as one pooled connection sees it

The transaction state of the server: no block, a running block or an aborted one, with the
writes of the block and those that are committed, and the advisory locks the session holds.
A write is known by the clock at which it was sent.

A statement is served, refused by the server or lost. A refused statement aborts the block it
stands in, and in an aborted block every statement fails until COMMIT or ROLLBACK, of which
COMMIT reports no error. A lost statement is one the driver gives up on: the caller sees a
failure, and the server has carried it out, refused it or never seen it.
-/
namespace BoilerplateExpress.Db.Pooled

open List

inductive IsolationLevel where
  | readCommitted
  | repeatableRead
  | serializable
  deriving DecidableEq, Repr

/-- The two integers an advisory lock is known by. -/
abbrev LockName := ℤ × ℤ

inductive Statement where
  | begin (level : Option IsolationLevel)
  | setLocal (name : String) (ms : ℕ)
  | commit
  | rollback
  | select (sql : String)
  | change (sql : String)
  | advisoryLock (name : LockName)
  | tryAdvisoryLock (name : LockName)
  | advisoryUnlock (name : LockName)
  deriving DecidableEq, Repr

namespace Statement

def isTransactionControl : Statement → Bool
  | .begin _ | .commit | .rollback => true
  | _ => false

/-- What an aborted block still accepts. -/
def endsBlock : Statement → Bool
  | .commit | .rollback => true
  | _ => false

/-- The statement takes or gives back this advisory lock. -/
def touches (name : LockName) : Statement → Bool
  | .advisoryLock n | .tryAdvisoryLock n | .advisoryUnlock n => n == name
  | _ => false

end Statement

/-- What a promise of this code may reject with. -/
inductive Failure (X : Type) where
  | range (error : RangeError)
  | database (code : String)
  | driver
  | thrown (value : X)
  deriving DecidableEq, Repr

inductive Rows (Row : Type) where
  | flag (value : Bool)
  | data (rows : Row)
  deriving DecidableEq, Repr

abbrev Answer (Row X : Type) := Except (Failure X) (Rows Row)

/-- What became of a statement that the driver gave up on. -/
inductive Lost where
  | untouched
  | applied (granted : Bool)
  | refused
  deriving DecidableEq, Repr

/-- `granted` says whether a lock was free, or whether an unlock found it held. -/
inductive Fate (Row : Type) where
  | served (granted : Bool) (rows : Row)
  | refused (code : String)
  | lost (happened : Lost)
  deriving DecidableEq, Repr

namespace Fate

variable {Row : Type}

def takesEffect : Fate Row → Bool
  | .served _ _ | .lost (.applied _) => true
  | _ => false

/-- The statement fails for the caller and is carried out all the same. -/
def unheard : Fate Row → Bool
  | .lost (.applied _) => true
  | _ => false

def isRefused : Fate Row → Bool
  | .refused _ | .lost .refused => true
  | _ => false

end Fate

inductive Block where
  | running (writes : List ℕ)
  | aborted
  deriving DecidableEq

structure Session where
  clock : ℕ
  committed : List ℕ
  block : Option Block
  locks : LockName → ℕ

namespace Session

/-- The writes that the open block would commit. -/
def pending (s : Session) : List ℕ :=
  match s.block with
  | some (.running writes) => writes
  | _ => []

/-- The block ends and its writes are committed. -/
def commitBlock (s : Session) : Session :=
  { s with committed := s.committed ++ s.pending, block := none }

/-- A write is committed at once when no block is open. -/
def change (s : Session) : Session :=
  match s.block with
  | some (.running writes) => { s with block := some (.running (writes ++ [s.clock])) }
  | _ => { s with committed := s.committed ++ [s.clock] }

def setLock (s : Session) (name : LockName) (count : ℕ) : Session :=
  { s with locks := Function.update s.locks name count }

/-- What a statement does when the server carries it out. -/
def execute (s : Session) (granted : Bool) : Statement → Session
  | .begin _ => if s.block = none then { s with block := some (.running []) } else s
  | .setLocal _ _ => s
  | .commit => s.commitBlock
  | .rollback => { s with block := none }
  | .select _ => s
  | .change _ => s.change
  | .advisoryLock name => s.setLock name (s.locks name + 1)
  | .tryAdvisoryLock name => if granted then s.setLock name (s.locks name + 1) else s
  | .advisoryUnlock name => if granted then s.setLock name (s.locks name - 1) else s

/-- A refused statement aborts the block it stands in. -/
def abort (s : Session) : Session :=
  match s.block with
  | some (.running _) => { s with block := some .aborted }
  | _ => s

/-- A refused COMMIT ends the block and commits nothing. -/
def refuse (s : Session) : Statement → Session
  | .commit => { s with block := none }
  | .rollback => s
  | _ => s.abort

/-- An unlock of a lock that the session does not hold finds it not held. -/
def grants (s : Session) (granted : Bool) : Statement → Bool
  | .advisoryUnlock name => granted && 0 < s.locks name
  | _ => granted

def reply {Row : Type} (s : Session) (granted : Bool) (rows : Row) : Statement → Rows Row
  | .tryAdvisoryLock _ => .flag granted
  | .advisoryUnlock name => .flag (s.grants granted (.advisoryUnlock name))
  | _ => .data rows

variable {Row X : Type}

/-- In an aborted block a statement fails before it is looked at. -/
def rejects (s : Session) (q : Statement) : Bool := s.block = some .aborted && !q.endsBlock

def after (s : Session) (q : Statement) : Fate Row → Session
  | .served granted _ | .lost (.applied granted) => s.execute (s.grants granted q) q
  | .refused _ | .lost .refused => s.refuse q
  | .lost .untouched => s

def answer (s : Session) (q : Statement) : Fate Row → Answer Row X
  | .served granted rows => .ok (s.reply granted rows q)
  | .refused code => .error (.database code)
  | .lost _ => .error .driver

/-- `in_failed_sql_transaction`, if the caller hears of it. -/
def abortedAnswer : Fate Row → Answer Row X
  | .lost _ => .error .driver
  | _ => .error (.database "25P02")

def tick (s : Session) : Session := { s with clock := s.clock + 1 }

/-- One statement on the wire. -/
def query (s : Session) (q : Statement) (fate : Fate Row) : Session × Answer Row X :=
  if s.rejects q then (s.tick, abortedAnswer fate) else ((s.after q fate).tick, s.answer q fate)

/-! ### What one statement leaves -/

section Query

variable (s : Session) (q : Statement) (fate : Fate Row)

lemma block_change : s.change.block = none ↔ s.block = none := by
  rcases hblock : s.block with _ | (writes | _) <;> simp [change, hblock]

lemma block_abort : s.abort.block = none ↔ s.block = none := by
  rcases hblock : s.block with _ | (writes | _) <;> simp [abort, hblock]

lemma locks_abort : s.abort.locks = s.locks := by
  rcases hblock : s.block with _ | (writes | _) <;> simp [abort, hblock]

lemma pending_of_block_none {s : Session} (h : s.block = none) : s.pending = [] := by
  simp [pending, h]

lemma rejects_of_endsBlock (h : q.endsBlock) : s.rejects q = false := by simp [rejects, h]

/-- A COMMIT that is answered leaves no block open, not even an aborted one. -/
theorem block_of_commit_ok {rows}
    (h : (s.query .commit fate : Session × Answer Row X).2 = .ok rows) :
    (s.query .commit fate : Session × Answer Row X).1.block = none := by
  rw [query, if_neg (by simp [s.rejects_of_endsBlock .commit rfl])] at h ⊢
  cases fate with
  | served granted rows => rfl
  | refused code => cases h
  | lost happ => cases h

lemma block_rollback :
    (s.query .rollback fate : Session × Answer Row X).1.block = none ↔
      s.block = none ∨ fate.takesEffect := by
  rw [query, if_neg (by simp [s.rejects_of_endsBlock .rollback rfl])]
  rcases fate with ⟨granted, rows⟩ | code | (_ | granted | _) <;>
    simp [after, tick, execute, refuse, Fate.takesEffect]

/-- What holds whether a statement is executed, refused or lost, holds after every query. -/
lemma query_rule {p : Session → Prop} (hexec : ∀ granted, p (s.execute granted q).tick)
    (href : p (s.refuse q).tick) (hnone : p s.tick) :
    p (s.query q fate : Session × Answer Row X).1 := by
  rw [query]
  split_ifs
  · exact hnone
  · rcases fate with ⟨granted, rows⟩ | code | (_ | granted | _)
    exacts [hexec _, href, hnone, hexec _, href]

lemma block_none_iff (hq : q.isTransactionControl = false) :
    (s.query q fate : Session × Answer Row X).1.block = none ↔ s.block = none := by
  have hexec (granted : Bool) : (s.execute granted q).block = none ↔ s.block = none := by
    cases q with
    | begin level => cases hq
    | commit => cases hq
    | rollback => cases hq
    | change sql => exact s.block_change
    | tryAdvisoryLock name => cases granted <;> rfl
    | advisoryUnlock name => cases granted <;> rfl
    | _ => rfl
  have href : (s.refuse q).block = none ↔ s.block = none := by
    cases q <;> first | (cases hq; done) | exact s.block_abort
  exact s.query_rule q fate (p := (·.block = none ↔ s.block = none)) hexec href Iff.rfl

lemma locks_of_not_touches {name} (hq : q.touches name = false) :
    (s.query q fate : Session × Answer Row X).1.locks name = s.locks name := by
  have hchan : s.change.locks = s.locks := by
    rcases hblock : s.block with _ | (writes | _) <;> simp [change, hblock]
  have hset (other : LockName) (hoth : (other == name) = false) (count : ℕ) :
      (s.setLock other count).locks name = s.locks name :=
    Function.update_of_ne (fun h => by simp [h] at hoth) _ _
  have hexec (granted : Bool) : (s.execute granted q).locks name = s.locks name := by
    cases q with
    | begin level =>
      rw [execute]
      split_ifs <;> rfl
    | change sql => exact congrFun hchan name
    | advisoryLock other => exact hset other hq _
    | tryAdvisoryLock other =>
      cases granted
      · rfl
      · exact hset other hq _
    | advisoryUnlock other =>
      cases granted
      · rfl
      · exact hset other hq _
    | _ => rfl
  have href : (s.refuse q).locks name = s.locks name := by
    cases q <;> first | rfl | exact congrFun s.locks_abort name
  exact s.query_rule q fate (p := (·.locks name = s.locks name)) hexec href rfl

end Query

/-! ### Writes -/

/-- The write is committed, or would be by a COMMIT. -/
def Holds (s : Session) (stamp : ℕ) : Prop := stamp ∈ s.pending ∨ stamp ∈ s.committed

/-- The statement throws away what the block has written. -/
def discards (q : Statement) (fate : Fate Row) : Bool :=
  match q with
  | .rollback => fate.takesEffect
  | _ => fate.isRefused

/-- What a statement that discards nothing does to the writes. -/
inductive Moves (s t : Session) : Prop
  | kept (hc : t.committed = s.committed) (hp : t.pending = s.pending)
  | staged (hc : t.committed = s.committed) (hp : t.pending = s.pending ++ [s.clock])
  | posted (hc : t.committed = s.committed ++ [s.clock]) (hp : t.pending = s.pending)
  | settled (hc : t.committed = s.committed ++ s.pending) (hp : t.pending = [])

section Writes

variable (s : Session) (q : Statement) (fate : Fate Row)

lemma moves_change : Moves s s.change.tick := by
  rcases hblock : s.block with _ | (writes | _)
  · exact .posted (by simp [change, tick, hblock]) (by simp [change, tick, pending, hblock])
  · exact .staged (by simp [change, tick, hblock]) (by simp [change, tick, pending, hblock])
  · exact .posted (by simp [change, tick, hblock]) (by simp [change, tick, pending, hblock])

lemma moves_execute (granted) (hq : q ≠ .rollback) : Moves s (s.execute granted q).tick := by
  cases q with
  | begin level =>
    refine .kept ?_ ?_ <;> simp only [execute]
    · split_ifs <;> rfl
    · split_ifs with hblock
      · simp [tick, pending, hblock]
      · rfl
  | commit => exact .settled rfl rfl
  | rollback => exact absurd rfl hq
  | change sql => exact s.moves_change
  | tryAdvisoryLock name => cases granted <;> exact .kept rfl rfl
  | advisoryUnlock name => cases granted <;> exact .kept rfl rfl
  | _ => exact .kept rfl rfl

lemma query_moves (h : discards q fate = false) :
    Moves s (s.query q fate : Session × Answer Row X).1 := by
  rw [query]
  split_ifs
  · exact .kept rfl rfl
  · by_cases hq : q = .rollback
    · subst hq
      rcases fate with ⟨granted, rows⟩ | code | (_ | granted | _)
      · cases h
      · exact .kept rfl rfl
      · exact .kept rfl rfl
      · cases h
      · exact .kept rfl rfl
    · rcases fate with ⟨granted, rows⟩ | code | (_ | granted | _)
      · exact s.moves_execute q _ hq
      · cases q <;> simp_all [discards, Fate.isRefused]
      · exact .kept rfl rfl
      · exact s.moves_execute q _ hq
      · cases q <;> simp_all [discards, Fate.isRefused]

lemma query_drops (h : discards q fate) :
    (s.query q fate : Session × Answer Row X).1.committed = s.committed ∧
      (s.query q fate : Session × Answer Row X).1.pending = [] := by
  have habort : s.abort.committed = s.committed ∧ s.abort.pending = [] := by
    rcases hblock : s.block with _ | (writes | _) <;> simp [abort, pending, hblock]
  rw [query]
  split_ifs with hrej
  · have hblock : s.block = some .aborted := by simp_all [rejects]
    exact ⟨rfl, by simp [tick, pending, hblock]⟩
  · rcases fate with ⟨granted, rows⟩ | code | (_ | granted | _)
    · cases q <;> first | (cases h; done) | exact ⟨rfl, rfl⟩
    · cases q <;> first | (cases h; done) | exact ⟨rfl, rfl⟩ | exact habort
    · cases q <;> cases h
    · cases q <;> first | (cases h; done) | exact ⟨rfl, rfl⟩
    · cases q <;> first | (cases h; done) | exact ⟨rfl, rfl⟩ | exact habort

variable {s} {stamp : ℕ}

lemma holds_or_discards (h : s.Holds stamp) :
    (s.query q fate : Session × Answer Row X).1.Holds stamp ∨
      discards q fate ∧ stamp ∈ s.pending := by
  cases hd : discards q fate with
  | true =>
    rcases h with h | h
    · exact .inr ⟨rfl, h⟩
    · exact .inl (.inr (by rwa [(s.query_drops q fate hd).1]))
  | false =>
    refine .inl ?_
    unfold Holds at h ⊢
    cases s.query_moves (X := X) q fate hd with
    | kept hc hp => rwa [hc, hp]
    | staged hc hp =>
      rw [hc, hp, mem_append]
      exact h.imp_left .inl
    | posted hc hp =>
      rw [hc, hp, mem_append]
      exact h.imp_right .inl
    | settled hc hp =>
      rw [hc, mem_append]
      exact .inr h.symm

lemma holds_of_change_ok {sql rows}
    (h : (s.query (.change sql) fate : Session × Answer Row X).2 = .ok rows) :
    (s.query (.change sql) fate : Session × Answer Row X).1.Holds s.clock := by
  rw [query] at h ⊢
  split_ifs at h ⊢ with hrej
  · rcases fate with ⟨granted, rows⟩ | code | happ <;> cases h
  · rcases fate with ⟨granted, rows⟩ | code | happ
    · rcases hblock : s.block with _ | (writes | _) <;>
        simp [after, execute, change, tick, Holds, pending, hblock]
    · cases h
    · cases h

/-- The committed writes and those of the open block. -/
def writes (s : Session) : List ℕ := s.committed ++ s.pending

/-- Every write has a moment of its own, before the present one. -/
def Dated (s : Session) : Prop := s.writes.Nodup ∧ ∀ stamp ∈ s.writes, stamp < s.clock

lemma clock_query : (s.query q fate : Session × Answer Row X).1.clock = s.clock + 1 := by
  have habort : s.abort.clock = s.clock := by
    rcases hblock : s.block with _ | (writes | _) <;> simp [abort, hblock]
  have hexec (granted : Bool) : (s.execute granted q).clock = s.clock := by
    cases q with
    | begin level =>
      rw [execute]
      split_ifs <;> rfl
    | change sql => rcases hblock : s.block with _ | (writes | _) <;> simp [execute, change, hblock]
    | tryAdvisoryLock name => cases granted <;> rfl
    | advisoryUnlock name => cases granted <;> rfl
    | _ => rfl
  have href : (s.refuse q).clock = s.clock := by
    cases q <;> first | rfl | exact habort
  exact s.query_rule q fate (p := (·.clock = s.clock + 1)) (fun granted => by rw [tick, hexec])
    (by rw [tick, href]) rfl

lemma writes_query :
    (s.query q fate : Session × Answer Row X).1.writes <+~ s.writes ++ [s.clock] := by
  unfold writes
  cases hd : discards q fate with
  | true =>
    rw [(s.query_drops q fate hd).1, (s.query_drops q fate hd).2, append_nil, append_assoc]
    exact (sublist_append_left _ _).subperm
  | false =>
    cases s.query_moves (X := X) q fate hd with
    | kept hc hp =>
      rw [hc, hp]
      exact (sublist_append_left _ _).subperm
    | staged hc hp => rw [hc, hp, append_assoc]
    | posted hc hp =>
      rw [hc, hp, append_assoc, append_assoc]
      exact (perm_append_comm.append_left _).subperm
    | settled hc hp =>
      rw [hc, hp, append_nil]
      exact (sublist_append_left _ _).subperm

end Writes

end Session

/-! ### A call and its connection -/

inductive Sender where
  | wrapper
  | callback
  deriving DecidableEq

/-- What a call does with the pool and its connection, and the pauses it makes. `enter` and
`leave` have no effect: the callback is called, and has settled. -/
inductive Request where
  | connect
  | query (sender : Sender) (statement : Statement)
  | enter
  | leave
  | sleep (ms : ℤ)
  | release (error : Option String)
  deriving DecidableEq

/-- A connection that is released with an error is destroyed, and its session ends. -/
def Session.destroy (s : Session) : Session := { s with block := none, locks := fun _ => 0 }

def connectAnswer {Row X : Type} : Fate Row → Answer Row X
  | .served _ rows => .ok (.data rows)
  | _ => .error .driver

def serve {Row X : Type} (s : Session) (request : Request) (fate : Fate Row) :
    Session × Answer Row X :=
  match request with
  | .connect => (s, connectAnswer fate)
  | .query _ q => s.query q fate
  | .enter | .leave | .sleep _ | .release none => (s, .ok (.flag true))
  | .release (some _) => (s.destroy, .ok (.flag true))

abbrev Exchange (Row : Type) := Script.Exchange Session Request (Fate Row)

/-- The exchange throws away what the open block has written. -/
def Discards {Row : Type} (e : Exchange Row) : Prop :=
  (match e.query with
  | .query _ q => Session.discards q e.choice
  | .release (some _) => true
  | _ => false) = true

instance {Row : Type} : DecidablePred (Discards : Exchange Row → Prop) :=
  fun _ => inferInstanceAs (Decidable (_ = true))

/-- A write of the callback that is answered, not refused. -/
def Succeeded {Row : Type} (X : Type) (e : Exchange Row) : Prop :=
  ∃ sql, e.query = .query .callback (.change sql) ∧
    ∃ rows, (serve e.before e.query e.choice : Session × Answer Row X).2 = .ok rows

section Log

variable {Row X : Type} {s t : Session} {log : List (Exchange Row)} {stamp : ℕ}

abbrev Linked (X : Type) {Row : Type} : Session → List (Exchange Row) → Session → Prop :=
  Script.Linked (serve : Session → Request → Fate Row → Session × Answer Row X)

variable {e : Exchange Row}

lemma holds_serve (h : e.before.Holds stamp) :
    (serve e.before e.query e.choice : Session × Answer Row X).1.Holds stamp ∨
      Discards e ∧ stamp ∈ e.before.pending := by
  rcases e with ⟨s, _ | ⟨sender, q⟩ | _ | _ | _ | (_ | error), fate⟩
  · exact .inl h
  · exact Session.holds_or_discards q fate h
  · exact .inl h
  · exact .inl h
  · exact .inl h
  · exact .inl h
  · rcases h with h | h
    · exact .inr ⟨rfl, h⟩
    · exact .inl (.inr h)

lemma holds_or_discarded (h : Linked X s log t) (hstamp : s.Holds stamp) :
    t.Holds stamp ∨ ∃ e ∈ log, Discards e ∧ stamp ∈ e.before.pending := by
  induction h with
  | nil s => exact .inl hstamp
  | @cons s t q c log rest ih =>
    rcases holds_serve (e := ⟨s, q, c⟩) hstamp with hnext | hlost
    · rcases ih hnext with hend | ⟨e, he, hlost⟩
      · exact .inl hend
      · exact .inr ⟨e, mem_cons_of_mem _ he, hlost⟩
    · exact .inr ⟨_, mem_cons_self, hlost⟩

lemma succeeded_holds_or_discarded {w} (h : Linked X s log t) (hw : w ∈ log) (hok : Succeeded X w) :
    t.Holds w.before.clock ∨ ∃ e ∈ log, Discards e ∧ w.before.clock ∈ e.before.pending := by
  induction h with
  | nil s => cases hw
  | @cons s t q c log rest ih =>
    rcases mem_cons.mp hw with rfl | hw
    · obtain ⟨sql, rfl, rows, hrows⟩ := hok
      have hheld := Session.holds_of_change_ok c hrows
      rcases holds_or_discarded rest hheld with hend | ⟨e, he, hlost⟩
      · exact .inl hend
      · exact .inr ⟨e, mem_cons_of_mem _ he, hlost⟩
    · rcases ih hw with hend | ⟨e, he, hlost⟩
      · exact .inl hend
      · exact .inr ⟨e, mem_cons_of_mem _ he, hlost⟩

/-- No exchange discards a block that holds an answered write of the callback. -/
def KeepsWrites (X : Type) {Row : Type} (log : List (Exchange Row)) : Prop :=
  ∀ e ∈ log, Discards e → ∀ w ∈ log, Succeeded X w → w.before.clock ∉ e.before.pending

lemma all_committed (h : Linked X s log t) (ht : t.pending = []) (hkept : KeepsWrites X log) :
    ∀ w ∈ log, Succeeded X w → w.before.clock ∈ t.committed := by
  intro w hw hok
  rcases succeeded_holds_or_discarded h hw hok with hend | ⟨e, he, hd, hstamp⟩
  · rw [Session.Holds, ht] at hend
    exact hend.resolve_left not_mem_nil
  · exact absurd hstamp (hkept e he hd w hw hok)

lemma serve_writes (s : Session) (r : Request) (fate : Fate Row) :
    let t := (serve s r fate : Session × Answer Row X).1
    t.clock = s.clock + 1 ∧ t.writes <+~ s.writes ++ [s.clock] ∨
      t.clock = s.clock ∧ t.writes <+~ s.writes := by
  rcases r with _ | ⟨sender, q⟩ | _ | _ | _ | (_ | error)
  · exact .inr ⟨rfl, .refl _⟩
  · exact .inl ⟨Session.clock_query q fate, Session.writes_query q fate⟩
  · exact .inr ⟨rfl, .refl _⟩
  · exact .inr ⟨rfl, .refl _⟩
  · exact .inr ⟨rfl, .refl _⟩
  · exact .inr ⟨rfl, .refl _⟩
  · refine .inr ⟨rfl, Sublist.subperm ?_⟩
    exact Sublist.append (.refl _) (nil_sublist _)

lemma nodup_of_subperm {l l' : List ℕ} (h : l <+~ l') (hl : l'.Nodup) : l.Nodup := by
  obtain ⟨kept, hperm, hsub⟩ := h
  exact hperm.nodup_iff.mp (hsub.nodup hl)

lemma dated_serve (hs : s.Dated) (r fate) :
    (serve s r fate : Session × Answer Row X).1.Dated := by
  have hnew : (s.writes ++ [s.clock]).Nodup := by
    refine nodup_append.mpr ⟨hs.1, nodup_singleton _, fun stamp hstamp clock hclock => ?_⟩
    have hlt := hs.2 stamp hstamp
    have heq := mem_singleton.mp hclock
    omega
  rcases serve_writes (X := X) s r fate with ⟨hclock, hwrites⟩ | ⟨hclock, hwrites⟩
  · refine ⟨nodup_of_subperm hwrites hnew, fun stamp hstamp => ?_⟩
    rw [hclock]
    rcases mem_append.mp (hwrites.subset hstamp) with hold | hnow
    · exact Nat.lt_succ_of_lt (hs.2 stamp hold)
    · exact Nat.lt_succ_of_le (mem_singleton.mp hnow).le
  · refine ⟨nodup_of_subperm hwrites hs.1, fun stamp hstamp => ?_⟩
    exact hclock ▸ hs.2 stamp (hwrites.subset hstamp)

lemma gone_of_linked (h : Linked X s log t) (hlt : stamp < s.clock) (hgone : stamp ∉ s.writes) :
    stamp ∉ t.writes := by
  induction h with
  | nil s => exact hgone
  | @cons s t r fate log rest ih =>
    rcases serve_writes (X := X) s r fate with ⟨hclock, hwrites⟩ | ⟨hclock, hwrites⟩
    · refine ih (hclock ▸ Nat.lt_succ_of_lt hlt) (fun hstamp => ?_)
      rcases mem_append.mp (hwrites.subset hstamp) with hold | hnow
      · exact hgone hold
      · exact hlt.ne (mem_singleton.mp hnow)
    · exact ih (hclock ▸ hlt) (fun hstamp => hgone (hwrites.subset hstamp))

lemma not_committed_of_discarded (h : Linked X s log t) (hs : s.Dated) (he : e ∈ log)
    (hd : Discards e) (hstamp : stamp ∈ e.before.pending) : stamp ∉ t.committed := by
  induction h with
  | nil s => cases he
  | @cons s t r fate log rest ih =>
    rcases mem_cons.mp he with rfl | he
    · have hdrop : (serve s r fate : Session × Answer Row X).1.writes = s.committed := by
        rcases r with _ | ⟨sender, q⟩ | _ | _ | _ | (_ | error) <;> first | (cases hd; done) | skip
        · have hdrops := Session.query_drops (X := X) s q fate hd
          rw [serve, Session.writes, hdrops.1, hdrops.2, append_nil]
        · exact append_nil _
      have hlt : stamp < (serve s r fate : Session × Answer Row X).1.clock := by
        have hbefore := hs.2 stamp (mem_append_right _ hstamp)
        rcases serve_writes (X := X) s r fate with ⟨hclock, -⟩ | ⟨hclock, -⟩ <;> omega
      have hgone := gone_of_linked rest hlt
        (hdrop ▸ fun hcom => (nodup_append.mp hs.1).2.2 _ hcom _ hstamp rfl)
      exact fun hcom => hgone (mem_append_left _ hcom)
    · exact ih (dated_serve hs r fate) he

end Log

end BoilerplateExpress.Db.Pooled

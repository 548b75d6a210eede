import BoilerplateExpress.Users.AdminLocking

/-!
# Waiting for row locks

The transactions of `AdminLocking` wait for rows: a scan for the next row of its snapshot, and a
write statement for its target. `lockWhereArrayContains` locks in the order of the ids, so scans
alone never wait in a circle. The target is locked last. If it is no administrator in the
snapshot of its own transaction, it is out of order, and it may be a row that the scan of another
transaction holds.
-/
namespace BoilerplateExpress.Users

open List

/-- A relation has no cycle if some rank grows along each edge that is followed by two more. -/
theorem not_transGen_self {α β : Type*} [Preorder β] {R} (rank : α → β)
    (h : ∀ a b c d, R a b → R b c → R c d → rank a < rank b) (a) : ¬ Relation.TransGen R a a := by
  have hgrows : ∀ b c d, Relation.TransGen R a b → R b c → R c d → rank a < rank b := by
    intro b c d hpath
    induction hpath generalizing c d with
    | single hab => exact fun hbc hcd => h _ _ _ _ hab hbc hcd
    | tail hpath hedge ih =>
      intro hbc hcd
      exact (ih _ _ hedge hbc).trans (h _ _ _ _ hedge hbc hcd)
  intro hcycle
  obtain ⟨b, hab, hrest⟩ := Relation.TransGen.head'_iff.mp hcycle
  rcases Relation.ReflTransGen.cases_head hrest with rfl | ⟨c, hbc, -⟩
  · exact lt_irrefl _ (hgrows _ _ _ hcycle hab hab)
  · exact lt_irrefl _ (hgrows _ _ _ hcycle hab hbc)

/-- The row that the current statement locks next. -/
def Tx.awaits (x : Tx) : Option Text :=
  match x.phase with
  | .scanning (id :: _) => some id
  | .writing _ => some x.request.target
  | _ => none

/-- `tx` waits for a row that `other` has locked. -/
def Blocked (s : DbState) (tx other : ℕ) : Prop :=
  ∃ x id, s.txs.get tx = some x ∧ x.awaits = some id ∧ s.locks.get id = some other ∧ other ≠ tx

/-- Transactions wait for each other in a circle. -/
def Deadlocked (s : DbState) : Prop := ∃ tx, Relation.TransGen (Blocked s) tx tx

def Tx.todo (x : Tx) : List Text :=
  match x.phase with
  | .scanning todo => todo
  | _ => []

/-- The rows that the scan of a transaction has locked or is going to lock. -/
def wanted (s : DbState) (tx : ℕ) (x : Tx) : List Text :=
  (s.locks.entries.filter (fun e => decide (e.2 = tx))).map Prod.fst ++ x.todo

variable {s : DbState} {tx : ℕ} {id : Text}

lemma mem_wanted {x} : id ∈ wanted s tx x ↔ s.locks.get id = some tx ∨ id ∈ x.todo := by
  simp [wanted, OrderedMap.get_eq_some]

/-- The transaction has locked the administrators, or is about to, and has not got at its target
yet. -/
def Tx.acquiring (x : Tx) : Bool :=
  x.request.locksAdmins &&
    match x.phase with
    | .scanning _ => true
    | .checked => true
    | .writing _ => true
    | _ => false

/-- The target is among the rows of the transaction's own scan, or above them all, or it is no row
of the other scan. -/
def InOrderWith (target : Text) (own other : List Text) : Prop :=
  target ∈ own ∨ (∀ id ∈ own, id < target) ∨ target ∉ other

instance (target : Text) (own other : List Text) : Decidable (InOrderWith target own other) :=
  inferInstanceAs (Decidable (_ ∨ _ ∨ _))

/-- A transaction that locks the administrators starts when its target and those of the open ones
are in order with each other's scans. -/
def StartsInOrder (s : DbState) : TxAction → Prop
  | .start _ request => request.locksAdmins = true → ∀ e ∈ s.txs.entries, e.2.acquiring = true →
      InOrderWith request.target (adminIds s.rows) (wanted s e.1 e.2) ∧
      InOrderWith e.2.request.target (wanted s e.1 e.2) (adminIds s.rows)
  | _ => True

instance (s : DbState) : ∀ a, Decidable (StartsInOrder s a)
  | .start .. => by dsimp only [StartsInOrder]; infer_instance
  | .lockNext .. | .check .. | .startWrite .. | .write .. | .commit .. | .abort .. => isTrue trivial

lemma InOrderWith.mono {target own other own' other'} (h : InOrderWith target own other)
    (hown : ∀ id ∈ own', id ∈ own) (htarget : target ∈ own → target ∈ own')
    (hother : ∀ id ∈ other', id ∈ other) : InOrderWith target own' other' := by
  rcases h with hmem | habove | hnot
  · exact .inl (htarget hmem)
  · exact .inr (.inl fun id hid => habove id (hown id hid))
  · exact .inr (.inr fun hmem => hnot (hother target hmem))

/-- What a transaction holds while it waits. -/
def TxOrder (s : DbState) (tx : ℕ) (x : Tx) : Prop :=
  match x.phase with
  | .scanning todo => x.request.locksAdmins = true ∧ todo.Pairwise (· < ·) ∧
      ∀ id, s.locks.get id = some tx → ∀ later ∈ todo, id < later
  | .checked => x.request.locksAdmins = true
  | .writing _ => x.request.locksAdmins = false → ∀ id, s.locks.get id ≠ some tx
  | .written _ => s.locks.get x.request.target = some tx
  | .finished _ => True

structure LockInv (s : DbState) : Prop where
  holders : ∀ id tx, s.locks.get id = some tx → (s.txs.get tx).isSome
  rows : ∀ id tx, s.locks.get id = some tx → (s.rows.get id).isSome
  txs : ∀ tx x, s.txs.get tx = some x → TxOrder s tx x
  pairs : ∀ tx x other y, s.txs.get tx = some x → s.txs.get other = some y → other ≠ tx →
    x.acquiring = true → y.acquiring = true → (s.rows.get x.request.target).isSome →
    InOrderWith x.request.target (wanted s tx x) (wanted s other y)

/-! ## No circle -/

/-- The row a transaction waits for, as a rank. -/
def awaitedBy (s : DbState) (tx : ℕ) : WithBot Text := (s.txs.get tx).bind Tx.awaits

/-- A transaction that waits and holds a lock came through the scan. -/
theorem acquiring_of_holding {x held} (h : LockInv s) (hx : s.txs.get tx = some x)
    (hawaits : x.awaits = some id) (hheld : s.locks.get held = some tx) : x.acquiring := by
  have horder := h.txs tx x hx
  obtain ⟨request, admins, phase⟩ := x
  cases phase with
  | scanning todo => simp [Tx.acquiring, horder.1]
  | writing version =>
    by_contra hnot
    exact horder (by simpa [Tx.acquiring] using hnot) held hheld
  | _ => cases hawaits

/-- Whoever waits for a row behind another one waits for a greater one. -/
theorem awaits_lt {u v w} (h : LockInv s) (htu : Blocked s tx u) (huv : Blocked s u v)
    (hvw : Blocked s v w) : awaitedBy s tx < awaitedBy s u := by
  obtain ⟨x, id, hx, hid, hheld, -⟩ := htu
  obtain ⟨y, id', hy, hid', hheld', hne⟩ := huv
  obtain ⟨z, id'', hz, hid'', -, -⟩ := hvw
  suffices hlt : id < id' by
    simp only [awaitedBy, hx, hy, Option.bind_some, hid, hid']
    exact WithBot.coe_lt_coe.mpr hlt
  have horder := h.txs u y hy
  have hyac := acquiring_of_holding h hy hid' hheld
  have hzac := acquiring_of_holding h hz hid'' hheld'
  obtain ⟨request, admins, phase⟩ := y
  cases phase with
  | scanning todo =>
    cases todo with
    | nil => cases hid'
    | cons next rest =>
      cases hid'
      exact horder.2.2 id hheld _ mem_cons_self
  | writing version =>
    cases hid'
    -- the target is locked by another scan, so it must be above the own one
    rcases h.pairs u _ v z hy hz hne hyac hzac (h.rows _ _ hheld') with
      hown | habove | hnot
    · rw [mem_wanted, hheld'] at hown
      rcases hown with hsame | hnil
      · exact absurd (Option.some.inj hsame) hne
      · cases hnil
    · exact habove id (mem_wanted.mpr (.inl hheld))
    · exact absurd (mem_wanted.mpr (.inl hheld')) hnot
  | _ => cases hid'

lemma not_deadlocked (h : LockInv s) : ¬ Deadlocked s := by
  rintro ⟨tx, hcycle⟩
  exact not_transGen_self (awaitedBy s) (fun _ _ _ _ => awaits_lt h) tx hcycle

/-! ## Steps -/

/-- What transaction `tx` owes to the open transaction `other` in a new state. -/
structure PairOk (s s' : DbState) (tx : ℕ) (x : Tx) (other : ℕ) (y : Tx) : Prop where
  ahead : (s'.rows.get x.request.target).isSome →
    InOrderWith x.request.target (wanted s' tx x) (wanted s other y)
  behind : (s'.rows.get y.request.target).isSome →
    InOrderWith y.request.target (wanted s other y) (wanted s' tx x)

/-- A step of transaction `tx`: the others keep their locks and their state, and rows only go. -/
theorem lockInv_of_frame {s'} (h : LockInv s) (tx) (hlocks : ∀ other id, other ≠ tx →
      (s'.locks.get id = some other ↔ s.locks.get id = some other))
    (htxs : ∀ other, other ≠ tx → s'.txs.get other = s.txs.get other)
    (hrows : ∀ id, (s'.rows.get id).isSome → (s.rows.get id).isSome)
    (hheld : ∀ id other, s'.locks.get id = some other → (s'.rows.get id).isSome)
    (hholds : ∀ id, s'.locks.get id = some tx → (s'.txs.get tx).isSome)
    (hself : ∀ x, s'.txs.get tx = some x → TxOrder s' tx x)
    (hpair : ∀ x, s'.txs.get tx = some x → x.acquiring → ∀ other y, other ≠ tx →
      s.txs.get other = some y → y.acquiring → PairOk s s' tx x other y) : LockInv s' := by
  have hwant : ∀ other y, other ≠ tx → ∀ id, id ∈ wanted s' other y ↔ id ∈ wanted s other y := by
    intro other y hne id
    rw [mem_wanted, mem_wanted, hlocks other id hne]
  refine ⟨?_, hheld, ?_, ?_⟩
  · intro id other hlock
    by_cases hne : other = tx
    · subst hne
      exact hholds id hlock
    · rw [htxs other hne]
      exact h.holders id other ((hlocks other id hne).mp hlock)
  · intro other y hy
    by_cases hne : other = tx
    · subst hne
      exact hself y hy
    · rw [htxs other hne] at hy
      have horder := h.txs other y hy
      obtain ⟨request, admins, phase⟩ := y
      cases phase with
      | scanning todo =>
        exact ⟨horder.1, horder.2.1, fun id hid => horder.2.2 id ((hlocks other id hne).mp hid)⟩
      | writing version =>
        exact fun hfalse id hid => horder hfalse id ((hlocks other id hne).mp hid)
      | written row => exact (hlocks other _ hne).mpr horder
      | _ => exact horder
  · intro t x other y hx hy hne hxa hya hrow
    by_cases ht : t = tx
    · subst ht
      rw [htxs other hne] at hy
      refine ((hpair x hx hxa other y hne hy hya).ahead hrow).mono (fun _ h => h) (fun h => h) ?_
      exact fun id hid => (hwant other y hne id).mp hid
    · rw [htxs t ht] at hx
      by_cases ho : other = tx
      · subst ho
        refine ((hpair y hy hya t x ht hx hxa).behind hrow).mono ?_ ?_ (fun _ h => h)
        · exact fun id hid => (hwant t x ht id).mp hid
        · exact fun hid => (hwant t x ht _).mpr hid
      · rw [htxs other ho] at hy
        refine (h.pairs t x other y hx hy hne hxa hya (hrows _ hrow)).mono ?_ ?_ ?_
        · exact fun id hid => (hwant t x ht id).mp hid
        · exact fun hid => (hwant t x ht _).mpr hid
        · exact fun id hid => (hwant other y ho id).mp hid

lemma lockInv_endTx {rows} (h : LockInv s)
    (hrows : ∀ id, (rows.get id).isSome → (s.rows.get id).isSome)
    (hkeeps : ∀ id other, other ≠ tx → s.locks.get id = some other → (rows.get id).isSome) :
    LockInv ({ s with rows := rows }.endTx tx) := by
  have hlocks : ∀ other id, other ≠ tx →
      (({ s with rows := rows }.endTx tx).locks.get id = some other ↔
        s.locks.get id = some other) := by
    intro other id hne
    simp only [DbState.endTx, OrderedMap.get_filter, Option.filter_eq_some_iff, decide_eq_true_eq]
    exact ⟨fun hlock => hlock.1, fun hlock => ⟨hlock, hne⟩⟩
  have hnone : ∀ id, ({ s with rows := rows }.endTx tx).locks.get id ≠ some tx := by
    intro id hlock
    simp [DbState.endTx] at hlock
  have hgone : ({ s with rows := rows }.endTx tx).txs.get tx = none := by simp [DbState.endTx]
  refine lockInv_of_frame h tx hlocks ?_ hrows ?_ (fun id hlock => absurd hlock (hnone id)) ?_ ?_
  · intro other hne
    simp [DbState.endTx, hne]
  · intro id other hlock
    have hne : other ≠ tx := fun heq => hnone id (heq ▸ hlock)
    exact hkeeps id other hne ((hlocks other id hne).mp hlock)
  · intro x hx
    rw [hgone] at hx
    cases hx
  · intro x hx
    rw [hgone] at hx
    cases hx

lemma lockInv_abort (h : LockInv s) (tx) : LockInv (s.endTx tx) :=
  lockInv_endTx h (fun _ hrow => hrow) (fun id other _ hlock => h.rows id other hlock)

variable {new : Tx}

lemma lockInv_setTx {old} (h : LockInv s) (hold : s.txs.get tx = some old)
    (horder : TxOrder s tx new)
    (hacq : new.acquiring → old.acquiring ∧ new.request = old.request ∧
      new.todo = old.todo) : LockInv (s.setTx tx new) := by
  have hnew : (s.setTx tx new).txs.get tx = some new := by simp [DbState.setTx]
  refine lockInv_of_frame h tx (fun _ _ _ => Iff.rfl) ?_ (fun _ hrow => hrow) h.rows ?_ ?_ ?_
  · intro other hne
    simp [DbState.setTx, hne]
  · intro id _
    rw [hnew]
    rfl
  · intro x hx
    cases hnew.symm.trans hx
    exact horder
  · intro x hx hxa other y hne hy hya
    cases hnew.symm.trans hx
    obtain ⟨holda, hreq, htodo⟩ := hacq hxa
    have hwant : ∀ id, id ∈ wanted (s.setTx tx new) tx new ↔ id ∈ wanted s tx old := by
      intro id
      rw [mem_wanted, mem_wanted, htodo]
      rfl
    refine ⟨?_, ?_⟩
    · intro hrow
      rw [hreq] at hrow ⊢
      exact (h.pairs tx old other y hold hy hne holda hya hrow).mono
        (fun id hid => (hwant id).mp hid) (fun hid => (hwant _).mpr hid) (fun _ hid => hid)
    · intro hrow
      exact (h.pairs other y tx old hy hold hne.symm hya holda hrow).mono (fun _ hid => hid)
        (fun hid => hid) (fun id hid => (hwant id).mp hid)

lemma adminIds_pairwise (rows) : (adminIds rows).Pairwise (· < ·) := by
  have hle : (adminIds rows).Pairwise (· ≤ ·) := pairwise_insertionSort _ _
  exact (hle.and (adminIds_nodup rows)).imp fun h => lt_of_le_of_ne h.1 h.2

lemma lockInv_newTx (h : LockInv s) (hfree : s.txs.get tx = none)
    (horder : (∀ id, s.locks.get id ≠ some tx) → TxOrder s tx new)
    (hpair : new.acquiring → ∀ other y, s.txs.get other = some y → y.acquiring →
      InOrderWith new.request.target new.todo (wanted s other y) ∧
      InOrderWith y.request.target (wanted s other y) new.todo) : LockInv (s.setTx tx new) := by
  have hnone : ∀ id, s.locks.get id ≠ some tx := by
    intro id hlock
    have hopen := h.holders id tx hlock
    rw [hfree] at hopen
    cases hopen
  have hnew : (s.setTx tx new).txs.get tx = some new := by simp [DbState.setTx]
  have hwant : ∀ id, id ∈ wanted (s.setTx tx new) tx new ↔ id ∈ new.todo := by
    intro id
    rw [mem_wanted]
    exact or_iff_right (hnone id)
  refine lockInv_of_frame h tx (fun _ _ _ => Iff.rfl) ?_ (fun _ hrow => hrow) h.rows ?_ ?_ ?_
  · intro other hne
    simp [DbState.setTx, hne]
  · intro id hlock
    exact absurd hlock (hnone id)
  · intro x hx
    cases hnew.symm.trans hx
    exact horder hnone
  · intro x hx hxa other y _ hy hya
    cases hnew.symm.trans hx
    obtain ⟨hahead, hbeh⟩ := hpair hxa other y hy hya
    refine ⟨fun _ => ?_, fun _ => ?_⟩
    · exact hahead.mono (fun id hid => (hwant id).mp hid) (fun hid => (hwant _).mpr hid)
        (fun _ hid => hid)
    · exact hbeh.mono (fun _ hid => hid) (fun hid => hid) (fun id hid => (hwant id).mp hid)

/-- A write statement that starts holds what its transaction held. -/
theorem txOrder_startWrite {request} (rows admins)
    (h : request.locksAdmins = false → ∀ id, s.locks.get id ≠ some tx) :
    TxOrder s tx ⟨request, admins, startWrite rows request⟩ := by
  unfold startWrite
  split
  · trivial
  · split_ifs
    · exact h
    · trivial

lemma todo_startWrite (rows request admins) :
    Tx.todo ⟨request, admins, startWrite rows request⟩ = [] := by
  unfold startWrite
  split
  · rfl
  · split_ifs <;> rfl

lemma lock_locks_ne (hfree : s.lockFree tx id) (other row) (hne : other ≠ tx) :
    (s.lock tx id).locks.get row = some other ↔ s.locks.get row = some other := by
  unfold DbState.lock
  split_ifs with hrow
  · simp only [OrderedMap.get_set]
    split_ifs with heq
    · subst heq
      refine ⟨fun h => absurd (Option.some.inj h).symm hne, fun h => ?_⟩
      exact absurd (hfree other h) hne
    · exact Iff.rfl
  · exact Iff.rfl

lemma lock_locks_self {row} :
    (s.lock tx id).locks.get row = some tx ↔
      s.locks.get row = some tx ∨ row = id ∧ (s.rows.get id).isSome := by
  unfold DbState.lock
  split_ifs with hrow
  · simp only [OrderedMap.get_set]
    split_ifs with heq
    · simp [heq, hrow]
    · simp [heq]
  · simp [hrow]

lemma lockInv_lock (h : LockInv s) (hfree : s.lockFree tx id)
    (horder : TxOrder (s.lock tx id) tx new)
    (hpair : new.acquiring → ∀ other y, other ≠ tx → s.txs.get other = some y →
      y.acquiring → PairOk s ((s.lock tx id).setTx tx new) tx new other y) :
    LockInv ((s.lock tx id).setTx tx new) := by
  have hnew : ((s.lock tx id).setTx tx new).txs.get tx = some new := by simp [DbState.setTx]
  have hrows : ((s.lock tx id).setTx tx new).rows = s.rows := lock_rows s tx id
  refine lockInv_of_frame h tx ?_ ?_ ?_ ?_ ?_ ?_ ?_
  · exact fun other row hne => lock_locks_ne hfree other row hne
  · intro other hne
    simp [DbState.setTx, hne, lock_txs]
  · intro row hrow
    rw [hrows] at hrow
    exact hrow
  · intro row other hlock
    rw [hrows]
    by_cases hne : other = tx
    · subst hne
      rcases lock_locks_self.mp hlock with hheld | ⟨rfl, hrow⟩
      · exact h.rows row other hheld
      · exact hrow
    · exact h.rows row other ((lock_locks_ne hfree other row hne).mp hlock)
  · intro row _
    rw [hnew]
    rfl
  · intro x hx
    cases hnew.symm.trans hx
    exact horder
  · intro x hx hxa other y hne hy hya
    cases hnew.symm.trans hx
    exact hpair hxa other y hne hy hya

/-- The scan wants the same rows after it has locked one, apart from rows deleted before. -/
theorem wanted_lockNext {todo} (s tx) (old new) (hold : old.todo = id :: todo)
    (hnew : new.todo = todo) :
    (∀ row ∈ wanted ((s.lock tx id).setTx tx new) tx new, row ∈ wanted s tx old) ∧
    ∀ row, (s.rows.get row).isSome → row ∈ wanted s tx old →
      row ∈ wanted ((s.lock tx id).setTx tx new) tx new := by
  have hlocks : ((s.lock tx id).setTx tx new).locks = (s.lock tx id).locks := rfl
  simp only [mem_wanted, hold, hnew, hlocks, lock_locks_self, mem_cons]
  refine ⟨?_, ?_⟩
  · rintro row ((hheld | ⟨hid, -⟩) | hlater)
    · exact .inl hheld
    · exact .inr (.inl hid)
    · exact .inr (.inr hlater)
  · rintro row hrow (hheld | rfl | hlater)
    · exact .inl (.inl hheld)
    · exact .inl (.inr ⟨rfl, hrow⟩)
    · exact .inr hlater

lemma lockInv_step {a t} (h : LockInv s) (hguard : StartsInOrder s a)
    (hstep : stepTx s a = some t) : LockInv t := by
  obtain ⟨tx, hmove⟩ := txMove_of_step hstep
  cases hmove with
  | scans hfree hlocks =>
    refine lockInv_newTx h hfree ?_ ?_
    · intro hnone
      exact ⟨hlocks, adminIds_pairwise s.rows, fun id hid => absurd hid (hnone id)⟩
    · intro _ other y hy hya
      exact hguard hlocks (other, y) ((s.txs.get_eq_some other y).mp hy) hya
  | skipsScan hfree hlocks =>
    refine lockInv_newTx h hfree ?_ ?_
    · exact fun hnone => txOrder_startWrite s.rows [] (fun _ => hnone)
    · simp [Tx.acquiring, hlocks]
  | @locks request admins todo id hx hfree =>
    obtain ⟨hlocks, hsort, hbelow⟩ : request.locksAdmins ∧ (id :: todo).Pairwise (· < ·) ∧
        ∀ held, s.locks.get held = some tx → ∀ later ∈ id :: todo, held < later := h.txs tx _ hx
    rw [pairwise_cons] at hsort
    refine lockInv_lock h hfree ⟨hlocks, hsort.2, ?_⟩ ?_
    · intro held hheld later hlater
      rcases lock_locks_self.mp hheld with hpre | ⟨rfl, -⟩
      · exact hbelow held hpre later (mem_cons_of_mem _ hlater)
      · exact hsort.1 later hlater
    · intro _ other y hne hy hya
      obtain ⟨hsub, hkeeps⟩ := wanted_lockNext s tx ⟨request, admins, .scanning (id :: todo)⟩
        ⟨request, admins ++ recheckAdmin s.rows id, .scanning todo⟩ rfl rfl
      have hacq : Tx.acquiring ⟨request, admins, .scanning (id :: todo)⟩ := by
        simp [Tx.acquiring, hlocks]
      have hrows : ((s.lock tx id).setTx tx
          ⟨request, admins ++ recheckAdmin s.rows id, .scanning todo⟩).rows = s.rows :=
        lock_rows s tx id
      refine ⟨?_, ?_⟩
      · intro hrow
        rw [hrows] at hrow
        exact (h.pairs tx _ other y hx hy hne hacq hya hrow).mono hsub (hkeeps _ hrow)
          (fun _ hid => hid)
      · intro hrow
        rw [hrows] at hrow
        exact (h.pairs other y tx _ hy hx hne.symm hya hacq hrow).mono (fun _ hid => hid)
          (fun hid => hid) hsub
  | @checks request admins hx hcheck =>
    have hlocks : request.locksAdmins := (h.txs tx _ hx).1
    refine lockInv_setTx h hx hlocks ?_
    intro _
    exact ⟨by simp [Tx.acquiring, hlocks], rfl, rfl⟩
  | @startsWrite request admins hx =>
    have hlocks : request.locksAdmins := h.txs tx _ hx
    refine lockInv_setTx h hx (txOrder_startWrite s.rows admins ?_) ?_
    · simp [hlocks]
    · intro _
      exact ⟨by simp [Tx.acquiring, hlocks], rfl, todo_startWrite s.rows request admins⟩
  | writes hx hfree =>
    refine lockInv_lock h hfree ?_ ?_
    · unfold finishWrite
      split
      · trivial
      · rename_i row hrow
        split_ifs
        · exact lock_get tx hrow
        · trivial
    · intro hacq
      unfold finishWrite Tx.acquiring at hacq
      split at hacq
      · simp at hacq
      · split_ifs at hacq <;> simp at hacq
  | @commits request admins row hx =>
    have hlock : s.locks.get request.target = some tx := h.txs tx _ hx
    refine lockInv_endTx h ?_ ?_
    · intro id hid
      by_cases htgt : id = request.target
      · rw [htgt]
        exact h.rows _ _ hlock
      · rwa [writeRow_get s.rows row htgt] at hid
    · intro id other hne hheld
      have htgt : id ≠ request.target := by
        rintro rfl
        exact hne (Option.some.inj (hheld.symm.trans hlock))
      rw [writeRow_get s.rows row htgt]
      exact h.rows id other hheld
  | ends => exact lockInv_abort h tx

/-- No transactions wait in a circle in a run in which every transaction that locks the
administrators starts in order with the open ones. -/
theorem no_deadlock_when_in_order (rows : UsersTable) (as : List TxAction) (t : DbState)
    (hguard : Machine.Guarded stepTx StartsInOrder (DbState.start rows) as)
    (hexec : Machine.exec stepTx (DbState.start rows) as = some t) : ¬ Deadlocked t := by
  have hstart : LockInv (DbState.start rows) := by constructor <;> simp [DbState.start]
  exact not_deadlocked (Machine.exec_invariant_of_guarded LockInv
    (fun s a u hs hg hu => lockInv_step hs hg hu) hstart hguard hexec)

/-- Two demotions at once: the second scan waits behind the first. -/
def sampleTwoDemotions : List TxAction :=
  [.start 1 (.updateUser ['b'] ⟨none, some [adminRole]⟩ .any), .write 1, .commit 1,
    .start 2 (.updateUser ['b'] ⟨none, some []⟩ .any), .lockNext 2,
    .start 3 (.updateUser ['a'] ⟨none, some []⟩ .any), .lockNext 2, .check 2, .startWrite 2]

theorem no_deadlock_of_two_demotions :
    ∃ t, Machine.exec stepTx (DbState.start sampleRows) sampleTwoDemotions = some t ∧
      ¬ Deadlocked t := by
  refine Machine.exists_of_seen (fun _ => ()) () (by decide +kernel) ?_
  intro t ht _
  exact no_deadlock_when_in_order sampleRows sampleTwoDemotions t (by decide +kernel) ht

/-- Three users: `b` and `c` are administrators, `a` is none. -/
def sampleThreeUsers : UsersTable where
  entries := [(['a'], ⟨[], [], 1⟩), (['b'], ⟨[], [adminRole], 1⟩), (['c'], ⟨[], [adminRole], 1⟩)]
  nodup := by decide

/-- A delete of `a` holds `b` and `c` when `a` is promoted; a demotion of `c` then locks `a` first
and waits for `b`, and the delete waits for `a`. -/
def samplePromotedTarget : List TxAction :=
  [.start 1 (.removeUser ['a'] .any), .lockNext 1, .lockNext 1, .check 1,
    .start 3 (.updateUser ['a'] ⟨none, some [adminRole]⟩ .any), .write 3, .commit 3,
    .start 2 (.updateUser ['c'] ⟨none, some []⟩ .any), .lockNext 2, .startWrite 1]

/-- The row a transaction waits for, and who holds it. -/
def DbState.waitsFor (s : DbState) (tx : ℕ) : Option ℕ :=
  (s.txs.get tx).bind fun x => x.awaits.bind s.locks.get

lemma blocked_of_waitsFor {other} (h : s.waitsFor tx = some other) (hne : other ≠ tx) :
    Blocked s tx other := by
  obtain ⟨x, hx, hrest⟩ := Option.bind_eq_some_iff.mp h
  obtain ⟨id, hid, hlock⟩ := Option.bind_eq_some_iff.mp hrest
  exact ⟨x, id, hx, hid, hlock, hne⟩

theorem promoted_target_deadlocks :
    ¬ ∀ as t, Machine.exec stepTx (DbState.start sampleThreeUsers) as = some t →
      ¬ Deadlocked t := by
  intro h
  have hfinal : (Machine.exec stepTx (DbState.start sampleThreeUsers) samplePromotedTarget).map
      (fun t => (t.waitsFor 1, t.waitsFor 2)) = some (some 2, some 1) := by decide +kernel
  obtain ⟨t, ht, hwaits⟩ := Option.map_eq_some_iff.mp hfinal
  obtain ⟨hone, htwo⟩ := Prod.mk.inj hwaits
  have hedge : Blocked t 1 2 := blocked_of_waitsFor hone (by decide)
  have hback : Blocked t 2 1 := blocked_of_waitsFor htwo (by decide)
  exact h samplePromotedTarget t ht ⟨1, .tail (.single hedge) hback⟩

end BoilerplateExpress.Users

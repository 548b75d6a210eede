import BoilerplateExpress.Machine
import BoilerplateExpress.Users.LastAdmin

/-!
# Concurrent writes to the users table

The transactions of `updateUser` and `removeUser` (`users/users.controller.ts`) under
READ COMMITTED. A locking scan fixes its rows in the snapshot of its statement and
then locks them one by one in id order; each row is re-checked on its newest
committed version. The write statement looks its row up in a snapshot of its own,
locks it and re-checks it. Locks last to the end of the transaction, and a
transaction may be aborted at any time.

A write is safe when its transaction holds another administrator still, or when its
target holds no admin role to lose.
-/
namespace BoilerplateExpress.Users

open List

inductive WriteOutcome where
  | updated
  | deleted
  | missing
  | conflict (currentVersion : ℕ)
  deriving DecidableEq

inductive Phase where
  /-- The locking scan, with the rows of its snapshot still to be locked. -/
  | scanning (todo : List Text)
  /-- The administrators are locked and `assertAdminRemains` has passed. -/
  | checked
  /-- The write statement found its row at this version and waits for the lock. -/
  | writing (snapshotVersion : ℕ)
  /-- The row is written, not yet committed. -/
  | written (row : Option UserRow)
  /-- The write statement matched nothing. -/
  | finished (outcome : WriteOutcome)

structure Tx where
  request : UserRequest
  admins : List (Text × UserRow)
  phase : Phase

structure DbState where
  rows : UsersTable
  locks : OrderedMap Text ℕ
  txs : OrderedMap ℕ Tx

def DbState.start (rows : UsersTable) : DbState :=
  { rows := rows, locks := OrderedMap.empty, txs := OrderedMap.empty }

/-- The rows a locking scan of the administrators has to lock, in its order. -/
def adminIds (rows : UsersTable) : List Text :=
  ((rows.entries.filter (fun e => e.2.isAdmin)).map Prod.fst).insertionSort (· ≤ ·)

/-- The write statement as it starts: the row it matches in its snapshot, or the
outcome it answers with. -/
def startWrite (rows : UsersTable) (request : UserRequest) : Phase :=
  match rows.get request.target with
  | none => .finished .missing
  | some row =>
    if request.precondition.holds row.version then .writing row.version
    else .finished (.conflict row.version)

/-- The write statement once it has the lock: the newest version is re-checked. A
conflict reports the version of the snapshot. -/
def finishWrite (rows : UsersTable) (request : UserRequest) (snapshotVersion : ℕ) : Phase :=
  match rows.get request.target with
  | none => .finished (.conflict snapshotVersion)
  | some row =>
    if request.precondition.holds row.version then .written (request.apply row)
    else .finished (.conflict snapshotVersion)

inductive TxAction where
  | start (tx : ℕ) (request : UserRequest)
  | lockNext (tx : ℕ)
  | check (tx : ℕ)
  | startWrite (tx : ℕ)
  | write (tx : ℕ)
  | commit (tx : ℕ)
  | abort (tx : ℕ)

namespace DbState

def lockFree (s : DbState) (tx : ℕ) (id : Text) : Prop :=
  ∀ holder, s.locks.get id = some holder → holder = tx

instance (s : DbState) (tx : ℕ) (id : Text) : Decidable (s.lockFree tx id) :=
  match h : s.locks.get id with
  | none => isTrue (fun _ hholder => by rw [h] at hholder; cases hholder)
  | some holder => decidable_of_iff (holder = tx) (by simp [lockFree, h])

/-- A lock exists on a row that exists; a deleted row is skipped. -/
def lock (s : DbState) (tx : ℕ) (id : Text) : DbState :=
  if (s.rows.get id).isSome then { s with locks := s.locks.set id tx } else s

def setTx (s : DbState) (tx : ℕ) (x : Tx) : DbState := { s with txs := s.txs.set tx x }

/-- Ends a transaction and releases its locks. -/
def endTx (s : DbState) (tx : ℕ) : DbState :=
  { s with
    locks := s.locks.filter (fun _ holder => decide (holder ≠ tx))
    txs := s.txs.delete tx }

end DbState

/-- A locked row joins the locked set if it is still an administrator. -/
def recheckAdmin (rows : UsersTable) (id : Text) : List (Text × UserRow) :=
  match rows.get id with
  | none => []
  | some row => if row.isAdmin then [(id, row)] else []

def writeRow (rows : UsersTable) (id : Text) : Option UserRow → UsersTable
  | none => rows.delete id
  | some row => rows.set id row

def stepTx (s : DbState) : TxAction → Option DbState
  | .start tx request =>
    if s.txs.get tx = none then
      let phase := if request.locksAdmins then .scanning (adminIds s.rows)
        else startWrite s.rows request
      some (s.setTx tx ⟨request, [], phase⟩)
    else none
  | .lockNext tx =>
    match s.txs.get tx with
    | some ⟨request, admins, .scanning (id :: todo)⟩ =>
      if s.lockFree tx id then
        some ((s.lock tx id).setTx tx
          ⟨request, admins ++ recheckAdmin s.rows id, .scanning todo⟩)
      else none
    | _ => none
  | .check tx =>
    match s.txs.get tx with
    | some ⟨request, admins, .scanning []⟩ =>
      match assertAdminRemains admins request.target with
      | .ok () => some (s.setTx tx ⟨request, admins, .checked⟩)
      | .error _ => some (s.endTx tx)
    | _ => none
  | .startWrite tx =>
    match s.txs.get tx with
    | some ⟨request, admins, .checked⟩ =>
      some (s.setTx tx ⟨request, admins, startWrite s.rows request⟩)
    | _ => none
  | .write tx =>
    match s.txs.get tx with
    | some ⟨request, admins, .writing snapshotVersion⟩ =>
      if s.lockFree tx request.target then
        some ((s.lock tx request.target).setTx tx
          ⟨request, admins, finishWrite s.rows request snapshotVersion⟩)
      else none
    | _ => none
  | .commit tx =>
    match s.txs.get tx with
    | some ⟨request, _, .written row⟩ =>
      some ({ s with rows := writeRow s.rows request.target row }.endTx tx)
    | some ⟨_, _, .finished _⟩ => some (s.endTx tx)
    | _ => none
  | .abort tx => if s.txs.has tx then some (s.endTx tx) else none

/-- What a step of transaction `tx` does. -/
inductive TxMove (s : DbState) (tx : ℕ) : TxAction → DbState → Prop
  | scans {request} (hfree : s.txs.get tx = none) (hlocks : request.locksAdmins = true) :
      TxMove s tx (.start tx request) (s.setTx tx ⟨request, [], .scanning (adminIds s.rows)⟩)
  | skipsScan {request} (hfree : s.txs.get tx = none) (hlocks : request.locksAdmins = false) :
      TxMove s tx (.start tx request) (s.setTx tx ⟨request, [], startWrite s.rows request⟩)
  | locks {request admins todo id}
      (hx : s.txs.get tx = some ⟨request, admins, .scanning (id :: todo)⟩) (hfree : s.lockFree tx id) :
      TxMove s tx (.lockNext tx) ((s.lock tx id).setTx tx
        ⟨request, admins ++ recheckAdmin s.rows id, .scanning todo⟩)
  | checks {request admins} (hx : s.txs.get tx = some ⟨request, admins, .scanning []⟩)
      (hcheck : assertAdminRemains admins request.target = .ok ()) :
      TxMove s tx (.check tx) (s.setTx tx ⟨request, admins, .checked⟩)
  | startsWrite {request admins} (hx : s.txs.get tx = some ⟨request, admins, .checked⟩) :
      TxMove s tx (.startWrite tx) (s.setTx tx ⟨request, admins, startWrite s.rows request⟩)
  | writes {request admins version} (hx : s.txs.get tx = some ⟨request, admins, .writing version⟩)
      (hfree : s.lockFree tx request.target) :
      TxMove s tx (.write tx) ((s.lock tx request.target).setTx tx
        ⟨request, admins, finishWrite s.rows request version⟩)
  | commits {request admins row} (hx : s.txs.get tx = some ⟨request, admins, .written row⟩) :
      TxMove s tx (.commit tx) ({ s with rows := writeRow s.rows request.target row }.endTx tx)
  | ends {a} : TxMove s tx a (s.endTx tx)

variable {s t : DbState} {tx : ℕ} {a : TxAction} {id : Text} {request : UserRequest}

lemma txMove_of_step (h : stepTx s a = some t) : ∃ tx, TxMove s tx a t := by
  unfold stepTx at h
  split at h
  · split_ifs at h with hfree hlocks
    · cases h
      exact ⟨_, .scans hfree hlocks⟩
    · cases h
      exact ⟨_, .skipsScan hfree (Bool.not_eq_true _ ▸ hlocks)⟩
  · split at h
    · split_ifs at h with hfree
      cases h
      exact ⟨_, .locks ‹_› hfree⟩
    · cases h
  · split at h
    · split at h <;> cases h
      · exact ⟨_, .checks ‹_› ‹_›⟩
      · exact ⟨_, .ends⟩
    · cases h
  · split at h <;> cases h
    exact ⟨_, .startsWrite ‹_›⟩
  · split at h
    · split_ifs at h with hfree
      cases h
      exact ⟨_, .writes ‹_› hfree⟩
    · cases h
  · split at h <;> cases h
    · exact ⟨_, .commits ‹_›⟩
    · exact ⟨_, .ends⟩
  · split_ifs at h
    cases h
    exact ⟨_, .ends⟩

/-- The user holds the admin role in the newest committed version. -/
def IsAdmin (rows : UsersTable) (id : Text) : Prop :=
  ∃ row, rows.get id = some row ∧ row.isAdmin = true

def AdminRemains (s : DbState) : Prop := ∃ id, IsAdmin s.rows id

/-- The transaction locked this row and found an administrator in it. -/
def Holds (s : DbState) (tx : ℕ) (id : Text) : Prop :=
  s.locks.get id = some tx ∧ IsAdmin s.rows id

/-- Committing `row` for the target cannot take the last administrator away. -/
def SafeWrite (s : DbState) (tx : ℕ) (target : Text) (row : Option UserRow) : Prop :=
  (∃ next, row = some next ∧ next.isAdmin = true) ∨ ¬ IsAdmin s.rows target ∨
    ∃ id, id ≠ target ∧ Holds s tx id

/-- What a transaction has established in its phase. -/
def PhaseInv (s : DbState) (tx : ℕ) (x : Tx) : Prop :=
  match x.phase with
  | .scanning todo => (x.admins.map Prod.fst ++ todo).Nodup
  | .checked => assertAdminRemains x.admins x.request.target = .ok ()
  | .writing _ => x.request.locksAdmins = true →
      assertAdminRemains x.admins x.request.target = .ok ()
  | .written row => s.locks.get x.request.target = some tx ∧
      SafeWrite s tx x.request.target row
  | .finished _ => True

structure TxInv (s : DbState) (tx : ℕ) (x : Tx) : Prop where
  held : ∀ admin ∈ x.admins, Holds s tx admin.1
  distinct : (x.admins.map Prod.fst).Nodup
  phase : PhaseInv s tx x

structure DbInv (s : DbState) : Prop where
  admin : AdminRemains s
  txs : ∀ tx x, s.txs.get tx = some x → TxInv s tx x

lemma isAdmin_congr {rows' rows} (h : rows'.get id = rows.get id) : IsAdmin rows' id ↔ IsAdmin rows
    id := by
  rw [IsAdmin, IsAdmin, h]

/-- A step elsewhere that keeps a transaction's locks and the rows under them keeps
everything the transaction has established. -/
lemma txInv_frame (s s' tx x) (hlocks : ∀ id, s.locks.get id = some tx → s'.locks.get id = some tx)
    (hrows : ∀ id, s.locks.get id = some tx → s'.rows.get id = s.rows.get id) (h : TxInv s tx x) :
    TxInv s' tx x := by
  have hholds (id : Text) (hid : Holds s tx id) : Holds s' tx id :=
    ⟨hlocks id hid.1, (isAdmin_congr (hrows id hid.1)).mpr hid.2⟩
  refine ⟨fun admin hadmin => hholds _ (h.held admin hadmin), h.distinct, ?_⟩
  obtain ⟨request, admins, phase⟩ := x
  cases phase with
  | written row =>
    obtain ⟨hlock, hsafe⟩ := h.phase
    refine ⟨hlocks _ hlock, ?_⟩
    rcases hsafe with hnext | htgt | ⟨id, hid, hheld⟩
    · exact .inl hnext
    · exact .inr (.inl ((isAdmin_congr (hrows _ hlock)).not.mpr htgt))
    · exact .inr (.inr ⟨id, hid, hholds id hheld⟩)
  | _ => exact h.phase

/-- A step of transaction `tx`: the others keep their locks, their rows and their
state, and `tx` establishes its own part. -/
lemma dbInv_of_frame (s s' tx) (hs : DbInv s) (hadmin : AdminRemains s')
    (hlocks : ∀ j id, j ≠ tx → s.locks.get id = some j → s'.locks.get id = some j)
    (hrows : ∀ j id, j ≠ tx → s.locks.get id = some j → s'.rows.get id = s.rows.get id)
    (htxs : ∀ j x, j ≠ tx → s'.txs.get j = some x → s.txs.get j = some x)
    (hself : ∀ x, s'.txs.get tx = some x → TxInv s' tx x) : DbInv s' := by
  refine ⟨hadmin, ?_⟩
  intro j x hx
  by_cases hj : j = tx
  · subst hj
    exact hself x hx
  · exact txInv_frame s s' j x (fun id => hlocks j id hj) (fun id => hrows j id hj)
      (hs.txs j x (htxs j x hj hx))

/-- A transaction ends with the rows it leaves behind; nobody else's locked rows differ. -/
lemma dbInv_endTx_of_rows {rows} (hs : DbInv s) (hadmin : ∃ id, IsAdmin rows id)
    (hrows : ∀ j id, j ≠ tx → s.locks.get id = some j → rows.get id = s.rows.get id) :
    DbInv ({ s with rows := rows }.endTx tx) := by
  have hrem : AdminRemains ({ s with rows := rows }.endTx tx) := hadmin
  apply dbInv_of_frame s _ tx hs hrem
  · intro j id hj hlock
    simp [DbState.endTx, hlock, hj]
  · exact hrows
  · intro j x hj hx
    simpa [DbState.endTx, hj] using hx
  · intro x hx
    simp [DbState.endTx] at hx

lemma dbInv_endTx (tx) (hs : DbInv s) : DbInv (s.endTx tx) :=
  dbInv_endTx_of_rows hs hs.admin (fun _ _ _ _ => rfl)

lemma dbInv_setTx (s tx x) (hs : DbInv s) (hx : TxInv s tx x) : DbInv (s.setTx tx x) := by
  apply dbInv_of_frame s (s.setTx tx x) tx hs hs.admin
  · intro j id _ hlock
    exact hlock
  · intro j id _ _
    rfl
  · intro j y hj hy
    simpa [DbState.setTx, hj] using hy
  · intro y hy
    have hxy : x = y := by simpa [DbState.setTx] using hy
    subst hxy
    exact txInv_frame s (s.setTx tx x) tx x (fun _ h => h) (fun _ _ => rfl) hx

lemma dbInv_lock (hs : DbInv s) (hfree : s.lockFree tx id) : DbInv (s.lock tx id) := by
  unfold DbState.lock
  split_ifs with hrow
  · have hkeep (j : ℕ) (other : Text) (hlock : s.locks.get other = some j) :
        (s.locks.set id tx).get other = some j := by
      rw [OrderedMap.get_set]
      split_ifs with hoth
      · subst hoth
        rw [hfree j hlock]
      · exact hlock
    refine ⟨hs.admin, ?_⟩
    intro j x hx
    exact txInv_frame s _ j x (fun other => hkeep j other) (fun _ _ => rfl) (hs.txs j x hx)
  · exact hs

lemma lock_get {row} (tx) (hrow : s.rows.get id = some row) : (s.lock tx id).locks.get id = some
    tx := by
  simp [DbState.lock, hrow]

lemma lock_rows (s : DbState) (tx id) : (s.lock tx id).rows = s.rows := by
  unfold DbState.lock
  split_ifs <;> rfl

lemma lock_txs (s : DbState) (tx id) : (s.lock tx id).txs = s.txs := by
  unfold DbState.lock
  split_ifs <;> rfl

lemma adminIds_nodup (rows) : (adminIds rows).Nodup := by
  have hsub : ((rows.entries.filter (fun e => e.2.isAdmin)).map Prod.fst).Sublist
      (rows.entries.map Prod.fst) := filter_sublist.map _
  exact (perm_insertionSort _ _).nodup_iff.mpr (rows.nodup.sublist hsub)

lemma phaseInv_startWrite {admins} (s tx)
    (h : request.locksAdmins → assertAdminRemains admins request.target = .ok ()) :
    PhaseInv s tx ⟨request, admins, startWrite s.rows request⟩ := by
  unfold startWrite
  split
  · trivial
  · split_ifs
    · exact h
    · trivial

instance (rows : UsersTable) (id : Text) : Decidable (IsAdmin rows id) :=
  decidable_of_iff ((rows.get id).any UserRow.isAdmin = true) (by
    simp [IsAdmin, Option.any_eq_true])

/-- A write that may take the admin role away runs on a scan that locked an
administrator, or on a target that is none at that moment. -/
def ScanLockedAdmin (s : DbState) : TxAction → Prop
  | .write tx => ∀ x ∈ s.txs.get tx, x.request.locksAdmins = true →
      x.admins ≠ [] ∨ ¬ IsAdmin s.rows x.request.target
  | _ => True

instance (s : DbState) (a) : Decidable (ScanLockedAdmin s a) := by
  cases a <;> dsimp only [ScanLockedAdmin] <;> infer_instance

/-- The locks and the check make the write safe. -/
lemma safeWrite_apply {row admins} (hrow : s.rows.get request.target = some row)
    (hheld : ∀ admin ∈ admins, Holds s tx admin.1) (hdist : (admins.map Prod.fst).Nodup)
    (hchec : request.locksAdmins → assertAdminRemains admins request.target = .ok ())
    (hscan : request.locksAdmins → admins ≠ [] ∨ ¬ IsAdmin s.rows request.target) :
    SafeWrite s tx request.target (request.apply row) := by
  by_cases htgt : IsAdmin s.rows request.target
  · cases hlocks : request.locksAdmins with
    | false =>
      obtain ⟨held, hget, hadmin⟩ := htgt
      obtain rfl : row = held := Option.some.inj (hrow.symm.trans hget)
      exact .inl (apply_isAdmin hlocks hadmin)
    | true =>
      have hne : admins ≠ [] := (hscan hlocks).resolve_right (not_not.mpr htgt)
      obtain ⟨admin, hmem, hoth⟩ := assertAdminRemains_other hdist hne (hchec hlocks)
      exact .inr (.inr ⟨admin.1, hoth, hheld admin hmem⟩)
  · exact .inr (.inl htgt)

lemma writeRow_get {target} (rows) (row) (hid : id ≠ target) :
    (writeRow rows target row).get id = rows.get id := by
  cases row with
  | none => simp [writeRow, hid]
  | some row => simp [writeRow, hid]

lemma adminRemains_commit {target} {row} (hadmin : AdminRemains s)
    (hsafe : SafeWrite s tx target row) : ∃ id, IsAdmin (writeRow s.rows target row) id := by
  rcases hsafe with ⟨next, rfl, hnext⟩ | htgt | ⟨id, hid, hheld⟩
  · exact ⟨target, next, by simp [writeRow], hnext⟩
  · obtain ⟨id, hid⟩ := hadmin
    have hne : id ≠ target := fun he => htgt (he ▸ hid)
    exact ⟨id, (isAdmin_congr (writeRow_get s.rows row hne)).mpr hid⟩
  · exact ⟨id, (isAdmin_congr (writeRow_get s.rows row hid)).mpr hheld.2⟩

lemma recheckAdmin_nodup {todo admins} (rows) (h : (admins.map Prod.fst ++ id :: todo).Nodup) :
    ((admins ++ recheckAdmin rows id).map Prod.fst ++ todo).Nodup := by
  have hskip : ((admins ++ []).map Prod.fst ++ todo).Nodup := by
    rw [append_nil]
    exact h.sublist (List.Sublist.append_left (sublist_cons_self _ _) _)
  unfold recheckAdmin
  split
  · exact hskip
  · split_ifs
    · simpa using h
    · exact hskip

lemma holds_of_mem_recheckAdmin {admin} (h : admin ∈ recheckAdmin s.rows id) :
    Holds (s.lock tx id) tx admin.1 := by
  unfold recheckAdmin at h
  split at h
  · cases h
  · rename_i row hrow
    split_ifs at h with hisAd
    · obtain rfl := mem_singleton.mp h
      exact ⟨lock_get tx hrow, row, by rw [lock_rows]; exact hrow, hisAd⟩
    · cases h

lemma dbInv_step (hs : DbInv s) (hguard : ScanLockedAdmin s a) (h : stepTx s a = some t) :
    DbInv t := by
  obtain ⟨tx, hmove⟩ := txMove_of_step h
  cases hmove with
  | scans hfree hlocks =>
    exact dbInv_setTx s tx _ hs ⟨by simp, by simp, by simpa [PhaseInv] using adminIds_nodup s.rows⟩
  | skipsScan hfree hlocks =>
    refine dbInv_setTx s tx _ hs ⟨by simp, by simp, phaseInv_startWrite s tx ?_⟩
    simp [hlocks]
  | locks hx hfree =>
    have hlock := dbInv_lock hs hfree
    have hinv := hlock.txs tx _ (by rw [lock_txs]; exact hx)
    have hnd := recheckAdmin_nodup s.rows hinv.phase
    refine dbInv_setTx _ tx _ hlock ⟨?_, (nodup_append.mp hnd).1, hnd⟩
    intro admin hadmin
    rcases mem_append.mp hadmin with hold | hnew
    · exact hinv.held admin hold
    · exact holds_of_mem_recheckAdmin hnew
  | checks hx hcheck =>
    have hinv := hs.txs tx _ hx
    exact dbInv_setTx s tx _ hs ⟨hinv.held, hinv.distinct, hcheck⟩
  | startsWrite hx =>
    have hinv := hs.txs tx _ hx
    exact dbInv_setTx s tx _ hs
      ⟨hinv.held, hinv.distinct, phaseInv_startWrite s tx (fun _ => hinv.phase)⟩
  | writes hx hfree =>
    have hlock := dbInv_lock hs hfree
    have hinv := hlock.txs tx _ (by rw [lock_txs]; exact hx)
    refine dbInv_setTx _ tx _ hlock ⟨hinv.held, hinv.distinct, ?_⟩
    unfold finishWrite
    split
    · trivial
    · rename_i row hrow
      split_ifs
      · refine ⟨lock_get tx hrow, ?_⟩
        apply safeWrite_apply (by rw [lock_rows]; exact hrow) hinv.held hinv.distinct hinv.phase
        rw [lock_rows]
        exact hguard _ hx
      · trivial
  | commits hx =>
    obtain ⟨hlock, hsafe⟩ := (hs.txs tx _ hx).phase
    apply dbInv_endTx_of_rows hs
    · exact adminRemains_commit hs.admin hsafe
    · intro j id hj hheld
      apply writeRow_get
      intro hid
      rw [hid, hlock] at hheld
      exact hj (Option.some.inj hheld).symm
  | ends => exact dbInv_endTx tx hs

/-- No committed state of a run is without an administrator, if every write that may
take the role away ran on a scan that locked one or on a target that is none. -/
theorem admin_remains_when_scan_locked (rows : UsersTable) (as : List TxAction) (t : DbState)
    (hadmin : AdminRemains (DbState.start rows))
    (hguard : Machine.Guarded stepTx ScanLockedAdmin (DbState.start rows) as)
    (hexec : Machine.exec stepTx (DbState.start rows) as = some t) : AdminRemains t := by
  have hstart : DbInv (DbState.start rows) := ⟨hadmin, by simp [DbState.start]⟩
  exact (Machine.exec_invariant_of_guarded DbInv (fun s a u => dbInv_step) hstart hguard
    hexec).admin

/-- Two users: `a` is the only administrator. -/
def sampleRows : UsersTable where
  entries := [(['a'], ⟨[], [adminRole], 1⟩), (['b'], ⟨[], [], 1⟩)]
  nodup := by decide

/-- Promotes `b`, then demotes `a` in a transaction whose scan sees both. -/
def samplePromoteDemote : List TxAction :=
  [.start 1 (.updateUser ['b'] ⟨none, some [adminRole]⟩ .any), .write 1, .commit 1,
    .start 3 (.updateUser ['a'] ⟨none, some []⟩ .any), .lockNext 3, .lockNext 3, .check 3,
    .startWrite 3, .write 3, .commit 3]

theorem admin_remains_after_promote_demote :
    ∃ t, Machine.exec stepTx (DbState.start sampleRows) samplePromoteDemote = some t ∧
      AdminRemains t := by
  refine Machine.exists_of_seen (fun _ => ()) () (by decide +kernel) ?_
  intro t ht _
  apply admin_remains_when_scan_locked sampleRows samplePromoteDemote t _ (by decide +kernel) ht
  exact ⟨['a'], ⟨[], [adminRole], 1⟩, by decide +kernel, by decide +kernel⟩

/-- A delete of `b` whose scan started while `a` was the only administrator, and
goes on after `b` was promoted and `a` demoted: it locks nobody and deletes `b`. -/
def sampleStaleScan : List TxAction :=
  [.start 2 (.removeUser ['b'] .any)] ++ samplePromoteDemote ++
    [.lockNext 2, .check 2, .startWrite 2, .write 2, .commit 2]

theorem stale_scan_removes_last_admin :
    AdminRemains (DbState.start sampleRows) ∧
      ¬ ∀ as t, Machine.exec stepTx (DbState.start sampleRows) as = some t → AdminRemains t := by
  refine ⟨⟨['a'], ⟨[], [adminRole], 1⟩, by decide +kernel, by decide +kernel⟩, ?_⟩
  intro h
  have hfinal : (Machine.exec stepTx (DbState.start sampleRows) sampleStaleScan).map
      (fun t => t.rows.entries.any (fun e => e.2.isAdmin)) = some false := by decide +kernel
  obtain ⟨t, ht, hnone⟩ := Option.map_eq_some_iff.mp hfinal
  obtain ⟨id, row, hget, hadmin⟩ := h sampleStaleScan t ht
  have hmem := (t.rows.get_eq_some id row).mp hget
  have hany : t.rows.entries.any (fun e => e.2.isAdmin) := any_eq_true.mpr ⟨(id, row), hmem, hadmin⟩
  rw [hany] at hnone
  cases hnone

end BoilerplateExpress.Users

import BoilerplateExpress.Crypto.FieldCipher
import BoilerplateExpress.Machine

/-!
# Encrypted personal data and its key rotation

`users/user-pii.repository.ts` and the pass `rotateUserPiiKeys` of
`users/user-pii.rotation.ts` over one table. A save is one upsert statement. A
rotation reads a page with one statement and then writes its rows back one by one,
each with a statement of its own, so saves fall between any two of them.

Beside the table the state carries the value each field should have: what the last
save that mentioned it said, and what was stored at the start otherwise.
-/
namespace BoilerplateExpress.Users

open Crypto
open List

inductive PiiColumn where
  | phone
  | address
  deriving DecidableEq, Repr

instance : Fintype PiiColumn where
  elems := {.phone, .address}
  complete := by
    intro column
    cases column with
    | phone => simp
    | address => simp

def PiiColumn.name : PiiColumn → Text
  | .phone => "phone_encrypted".toList
  | .address => "address_encrypted".toList

def userPiiTable : Text := "user_pii".toList

/-- A stored row: an envelope or nothing in each column. -/
abbrev UserPiiRow := PiiColumn → Option Bytes

abbrev PiiTable := OrderedMap Text UserPiiRow

/-- A write of one field: not mentioned, `null`, or a value. -/
inductive FieldWrite where
  | omitted
  | cleared
  | value (text : Text)
  deriving DecidableEq

abbrev UserPiiWrite := PiiColumn → FieldWrite

def piiContext (userId : Text) (column : PiiColumn) : FieldContext :=
  ⟨userPiiTable, column.name, userId⟩

def encryptOrNull (cipher : FieldCipher) (userId : Text) (column : PiiColumn)
    (random : FieldCipher.Randomness) : FieldWrite → Except FieldError (Option Bytes)
  | .omitted => .ok none
  | .cleared => .ok none
  | .value text => (cipher.encrypt text (piiContext userId column) random).map some

/-- The row of the upsert: the values to insert if there is no row, and otherwise
`NULL` where the caller cleared and `COALESCE` of the new and the stored value. -/
def upsertRow (write : UserPiiWrite) (excluded : UserPiiRow) : Option UserPiiRow → UserPiiRow
  | none => excluded
  | some stored => fun column =>
    if write column = .cleared then none else (excluded column).or (stored column)

def savePii (cipher : FieldCipher) (table : PiiTable) (userId : Text) (write : UserPiiWrite)
    (random : PiiColumn → FieldCipher.Randomness) : Except FieldError PiiTable := do
  let phone ← encryptOrNull cipher userId .phone (random .phone) (write .phone)
  let address ← encryptOrNull cipher userId .address (random .address) (write .address)
  let excluded : UserPiiRow := fun column =>
    match column with
    | .phone => phone
    | .address => address
  .ok (table.set userId (upsertRow write excluded (table.get userId)))

/-- The decrypted value of one field of one user. -/
def readField (cipher : FieldCipher) (table : PiiTable) (userId : Text) (column : PiiColumn) :
    Except FieldError (Option Text) :=
  match (table.get userId).bind (fun row => row column) with
  | none => .ok none
  | some stored => (cipher.decryptText stored (piiContext userId column)).map some

/-- Keyset pagination: the next rows after the cursor, in id order. -/
def selectPage (table : PiiTable) (cursor : Option Text) (limit : ℕ) : List (Text × UserPiiRow) :=
  ((table.entries.filter (fun e => cursor.all (fun id => decide (id < e.1)))).insertionSort
    (fun e f => e.1 ≤ f.1)).take limit

/-- The new envelope of a field that names a retired key, `none` for the others. -/
def rewrapField (cipher : FieldCipher) (userId : Text) (column : PiiColumn) (wrapIv : Iv) :
    Option Bytes → Except FieldError (Option Bytes)
  | none => .ok none
  | some stored => do
    let stale ← cipher.needsRewrap stored
    if stale then (cipher.rewrap stored (piiContext userId column) wrapIv).map some
    else .ok none

/-- Whether a stored field names a retired key. -/
def staleField (cipher : FieldCipher) : Option Bytes → Bool
  | none => false
  | some stored =>
    match cipher.needsRewrap stored with
    | .ok stale => stale
    | .error _ => false

/-- The columns a rotation writes back for a row it has read. -/
def rewrapRow (cipher : FieldCipher) (userId : Text) (row : UserPiiRow)
    (wrapIv : PiiColumn → Iv) : Except FieldError UserPiiRow := do
  let phone ← rewrapField cipher userId .phone (wrapIv .phone) (row .phone)
  let address ← rewrapField cipher userId .address (wrapIv .address) (row .address)
  .ok (fun column =>
    match column with
    | .phone => phone
    | .address => address)

/-- `UPDATE … WHERE id`: sets the named columns of a row that exists. -/
def updateRow (table : PiiTable) (userId : Text) (update : UserPiiRow) : PiiTable :=
  match table.get userId with
  | none => table
  | some row => table.set userId (fun column => (update column).or (row column))

/-- A full page may have a successor; a short one is the end of the table. -/
def nextCursor (limit : ℕ) (page : List (Text × UserPiiRow)) : Option Text :=
  if page.length = limit then page.getLast?.map Prod.fst else none

structure RotationOptions where
  batchSize : ℕ
  maxPages : Option ℕ

structure RotationProgress where
  pages : ℕ
  scanned : ℕ
  rewrapped : ℕ
  cursor : Option Text
  deriving DecidableEq, Repr

inductive RotationPhase where
  /-- At the head of the page loop. -/
  | selecting
  /-- The page as read, and its rows still to be written back. -/
  | updating (page todo : List (Text × UserPiiRow))
  | finished (complete : Bool)
  | failed

structure PiiState where
  table : PiiTable
  expected : Text → PiiColumn → Except FieldError (Option Text)
  progress : RotationProgress
  phase : RotationPhase

def PiiState.start (cipher : FieldCipher) (table : PiiTable) : PiiState where
  table := table
  expected := readField cipher table
  progress := ⟨0, 0, 0, none⟩
  phase := .selecting

inductive PiiAction where
  | savePii (userId : Text) (write : UserPiiWrite) (random : PiiColumn → FieldCipher.Randomness)
  | rotate (wrapIv : PiiColumn → Iv)

/-- The value a save leaves a field with. -/
def savedValue (old : Except FieldError (Option Text)) :
    FieldWrite → Except FieldError (Option Text)
  | .omitted => old
  | .cleared => .ok none
  | .value text => .ok (some text)

/-- The next statement of the rotation, with the work in front of it. -/
def rotateStep (cipher : FieldCipher) (options : RotationOptions) (s : PiiState)
    (wrapIv : PiiColumn → Iv) : Option PiiState :=
  match s.phase with
  | .selecting =>
    if options.maxPages.all (fun limit => decide (s.progress.pages < limit)) then
      if options.batchSize < 1 then some { s with phase := .failed }
      else
        let page := selectPage s.table s.progress.cursor options.batchSize
        some { s with phase := .updating page page }
    else some { s with phase := .finished s.progress.cursor.isNone }
  | .updating page ((userId, row) :: todo) =>
    match rewrapRow cipher userId row wrapIv with
    | .error _ => some { s with phase := .failed }
    | .ok update =>
      if update .phone = none ∧ update .address = none then
        some { s with phase := .updating page todo }
      else
        some { s with
          table := updateRow s.table userId update
          progress := { s.progress with rewrapped := s.progress.rewrapped + 1 }
          phase := .updating page todo }
  | .updating page [] =>
    let cursor := nextCursor options.batchSize page
    some { s with
      progress := { s.progress with
        pages := s.progress.pages + 1
        scanned := s.progress.scanned + page.length
        cursor := cursor }
      phase := if cursor = none then .finished true else .selecting }
  | .finished _ => none
  | .failed => none

def stepPii (cipher : FieldCipher) (options : RotationOptions) (s : PiiState) :
    PiiAction → Option PiiState
  | .savePii userId write random =>
    match savePii cipher s.table userId write random with
    | .error _ => some s
    | .ok table => some { s with
        table := table
        expected := fun id column =>
          if id = userId then savedValue (s.expected id column) (write column)
          else s.expected id column }
  | .rotate wrapIv => rotateStep cipher options s wrapIv

section

variable {cipher : FieldCipher} {table table' : PiiTable} {userId : Text} {column : PiiColumn}

lemma readField_congr (h : (table'.get userId).bind (fun row => row column) =
      (table.get userId).bind (fun row => row column)) :
    readField cipher table' userId column = readField cipher table userId column := by
  rw [readField, readField, h]

variable {write : UserPiiWrite} {random : PiiColumn → FieldCipher.Randomness}

lemma savePii_stored (h : savePii cipher table userId write random = .ok table') :
    ∃ excluded : UserPiiRow,
      (∀ column, encryptOrNull cipher userId column (random column) (write column) =
        .ok (excluded column)) ∧ (∀ column, (table'.get userId).bind (fun row => row column) =
        if write column = .cleared then none
        else (excluded column).or ((table.get userId).bind (fun row => row column))) ∧
      ∀ id, id ≠ userId → table'.get id = table.get id := by
  obtain ⟨phone, hphone, h⟩ := bind_eq_ok h
  obtain ⟨address, hadd, h⟩ := bind_eq_ok h
  cases h
  have hexc : ∀ column, encryptOrNull cipher userId column (random column) (write column) =
      .ok (match column with | .phone => phone | .address => address) := by
    intro column
    cases column with
    | phone => exact hphone
    | address => exact hadd
  refine ⟨_, hexc, ?_, fun id hid => by simp [hid]⟩
  intro column
  cases hrow : table.get userId with
  | none =>
    split_ifs with hclear
    · have hnone := hexc column
      rw [hclear] at hnone
      simp [upsertRow, ← Except.ok.inj hnone]
    · simp [upsertRow]
  | some row => simp [upsertRow]

lemma readField_savePii (h : savePii cipher table userId write random = .ok table') (id column) :
    readField cipher table' id column =
      if id = userId then savedValue (readField cipher table id column) (write column)
      else readField cipher table id column := by
  obtain ⟨excluded, hexc, hst, hoth⟩ := savePii_stored h
  split_ifs with hid
  · subst hid
    have hcol := hexc column
    have hread := hst column
    cases hwrite : write column with
    | omitted =>
      rw [hwrite] at hcol hread
      exact readField_congr (by simpa [← Except.ok.inj hcol] using hread)
    | cleared =>
      rw [if_pos hwrite] at hread
      simp [readField, hread, savedValue]
    | value text =>
      rw [hwrite] at hcol hread
      obtain ⟨bytes, hbytes, hsome⟩ := map_eq_ok hcol
      have hdec := cipher.decryptText_encrypt hbytes
      simp [readField, hread, ← hsome, savedValue, hdec, Except.map]
  · exact readField_congr (by rw [hoth id hid])

lemma savePii_keeps (h : savePii cipher table userId write random = .ok table') {id}
    (hkeep : id = userId → write column = .omitted) :
    (table'.get id).bind (fun row => row column) = (table.get id).bind (fun row => row column) := by
  obtain ⟨excluded, hexc, hst, hoth⟩ := savePii_stored h
  by_cases hid : id = userId
  · subst hid
    have hcol := hexc column
    rw [hkeep rfl] at hcol
    simp [hst, hkeep rfl, ← Except.ok.inj hcol]
  · rw [hoth id hid]

variable (cipher userId column) in
/-- What the rotation makes of one stored field. -/
inductive FieldRewrapped (wrapIv : Iv) : Option Bytes → Option Bytes → Prop where
  | absent : FieldRewrapped wrapIv none none
  | current {old : Bytes} (hstale : cipher.needsRewrap old = .ok false) :
      FieldRewrapped wrapIv (some old) none
  | stale {old bytes : Bytes} (hstale : cipher.needsRewrap old = .ok true)
      (hrewrap : cipher.rewrap old (piiContext userId column) wrapIv = .ok bytes) :
      FieldRewrapped wrapIv (some old) (some bytes)

lemma rewrapField_eq_ok {wrapIv stored update} :
    rewrapField cipher userId column wrapIv stored = .ok update ↔
      FieldRewrapped cipher userId column wrapIv stored update := by
  constructor
  · intro h
    cases stored with
    | none =>
      cases h
      exact .absent
    | some old =>
      obtain ⟨stale, hstale, h⟩ := bind_eq_ok h
      split_ifs at h with htrue
      · obtain ⟨bytes, hrewrap, rfl⟩ := map_eq_ok h
        exact .stale (htrue ▸ hstale) hrewrap
      · cases h
        exact .current (Bool.eq_false_iff.mpr htrue ▸ hstale)
  · intro h
    cases h with
    | absent => rfl
    | current hstale => simp [rewrapField, hstale]
    | stale hstale hrewrap => simp [rewrapField, hstale, hrewrap, Except.map]

variable {row update : UserPiiRow} {wrapIv : PiiColumn → Iv}

lemma rewrapRow_eq_ok : rewrapRow cipher userId row wrapIv = .ok update ↔
    ∀ column, FieldRewrapped cipher userId column (wrapIv column) (row column) (update column) := by
  constructor
  · intro h
    obtain ⟨phone, hphone, h⟩ := bind_eq_ok h
    obtain ⟨address, hadd, h⟩ := bind_eq_ok h
    cases h
    intro column
    cases column with
    | phone => exact rewrapField_eq_ok.mp hphone
    | address => exact rewrapField_eq_ok.mp hadd
  · intro h
    rw [rewrapRow, rewrapField_eq_ok.mpr (h .phone), ok_bind, rewrapField_eq_ok.mpr (h .address),
      ok_bind]
    congr 1
    funext column
    cases column with
    | phone => rfl
    | address => rfl

/-- A field the rotation writes back named a retired key, and its new envelope
decrypts to what the one it read does. -/
lemma rewrapRow_some {bytes} (h : rewrapRow cipher userId row wrapIv = .ok update)
    (hbytes : update column = some bytes) :
    ∃ old, row column = some old ∧ staleField cipher (row column) ∧
      cipher.decryptText bytes (piiContext userId column) =
        cipher.decryptText old (piiContext userId column) := by
  have hfield := rewrapRow_eq_ok.mp h column
  rw [hbytes] at hfield
  generalize row column = stored at hfield ⊢
  cases hfield with
  | stale hstale hrew =>
    exact ⟨_, rfl, by rw [staleField, hstale], cipher.decryptText_rewrap hrew⟩

end

/-- Rows still to be written back stand in the table as they were read, in every
column the rotation is going to write. -/
def PageFresh (cipher : FieldCipher) (table : PiiTable) (todo : List (Text × UserPiiRow)) : Prop :=
  (todo.map Prod.fst).Nodup ∧
    ∀ e ∈ todo, ∀ column, staleField cipher (e.2 column) = true →
      (table.get e.1).bind (fun row => row column) = e.2 column

def PiiState.todo (s : PiiState) : List (Text × UserPiiRow) :=
  match s.phase with
  | .updating _ todo => todo
  | _ => []

structure PiiInv (cipher : FieldCipher) (s : PiiState) : Prop where
  values : ∀ id column, readField cipher s.table id column = s.expected id column
  page : PageFresh cipher s.table s.todo

/-- A save mentions no field that the rotation has read under a retired key and has
not written back yet. -/
def SaveClearOfPage (cipher : FieldCipher) (s : PiiState) : PiiAction → Prop
  | .savePii userId write _ => ∀ e ∈ s.todo, e.1 = userId → ∀ column,
      staleField cipher (e.2 column) = true → write column = .omitted
  | .rotate _ => True

instance (cipher) (s : PiiState) (a) : Decidable (SaveClearOfPage cipher s a) := by
  cases a <;> dsimp only [SaveClearOfPage] <;> infer_instance

section

variable {cipher : FieldCipher} {options : RotationOptions} {table : PiiTable}
  {cursor : Option Text} {limit : ℕ} {userId : Text} {row update : UserPiiRow}
  {wrapIv : PiiColumn → Iv} {page todo : List (Text × UserPiiRow)} {s t : PiiState}

lemma selectPage_sublist (table cursor limit) :
    ∃ rows : List (Text × UserPiiRow), (selectPage table cursor limit).Sublist rows ∧
      rows.Perm (table.entries.filter (fun e => cursor.all (fun id => decide (id < e.1)))) :=
  ⟨_, take_sublist limit _, perm_insertionSort _ _⟩

lemma get_of_mem_selectPage {e} (h : e ∈ selectPage table cursor limit) :
    table.get e.1 = some e.2 := by
  obtain ⟨rows, hsub, hperm⟩ := selectPage_sublist table cursor limit
  exact (table.get_eq_some e.1 e.2).mpr (mem_of_mem_filter (hperm.mem_iff.mp (hsub.subset h)))

lemma pageFresh_selectPage : PageFresh cipher table (selectPage table cursor limit) := by
  obtain ⟨rows, hsub, hperm⟩ := selectPage_sublist table cursor limit
  have hnd := (hperm.map Prod.fst).nodup_iff.mpr (table.nodup.sublist (filter_sublist.map _))
  refine ⟨hnd.sublist (hsub.map _), ?_⟩
  intro e he column _
  rw [get_of_mem_selectPage he]
  rfl

lemma updateRow_get (table userId update id) :
    (updateRow table userId update).get id =
      if id = userId then (table.get id).map (fun row column => (update column).or (row column))
      else table.get id := by
  unfold updateRow
  cases hrow : table.get userId with
  | _ =>
    by_cases hid : id = userId
    · simp [hid, hrow]
    · simp [hid]

/-- Writing back a row as it was read keeps every value. -/
lemma readField_updateRow (hpage : PageFresh cipher table ((userId, row) :: todo))
    (h : rewrapRow cipher userId row wrapIv = .ok update) (id column) :
    readField cipher (updateRow table userId update) id column =
      readField cipher table id column := by
  by_cases hid : id = userId
  · subst hid
    cases hbytes : update column with
    | none =>
      apply readField_congr
      rw [updateRow_get, if_pos rfl]
      cases hrow : table.get id with
      | none => rfl
      | some stored => simp [hbytes]
    | some bytes =>
      obtain ⟨old, hold, hstale, hdec⟩ := rewrapRow_some h hbytes
      have hst : (table.get id).bind (fun row => row column) = some old :=
        (hpage.2 (id, row) (by simp) column hstale).trans hold
      have hnew : ((updateRow table id update).get id).bind (fun row => row column) =
          some bytes := by
        rw [updateRow_get, if_pos rfl]
        cases hrow : table.get id with
        | none => simp [hrow] at hst
        | some stored => simp [hbytes]
      simp [readField, hnew, hst, hdec]
  · apply readField_congr
    rw [updateRow_get, if_neg hid]

lemma pageFresh_tail {e} (h : PageFresh cipher table (e :: todo)) : PageFresh cipher table
    todo := by
  obtain ⟨hnd, hfresh⟩ := h
  rw [map_cons, nodup_cons] at hnd
  exact ⟨hnd.2, fun d hd => hfresh d (by simp [hd])⟩

lemma pageFresh_updateRow (h : PageFresh cipher table ((userId, row) :: todo)) :
    PageFresh cipher (updateRow table userId update) todo := by
  refine ⟨(pageFresh_tail h).1, ?_⟩
  intro e he column hstale
  have hne : e.1 ≠ userId := by
    intro heq
    exact (nodup_cons.mp h.1).1 (mem_map.mpr ⟨e, he, heq⟩)
  rw [updateRow_get, if_neg hne]
  exact h.2 e (by simp [he]) column hstale

lemma pageFresh_nil : PageFresh cipher table [] := ⟨by simp, by simp⟩

variable (cipher options wrapIv s) in
/-- What the next statement of a rotation does. -/
inductive Rotates : PiiState → Prop where
  | selects (hphase : s.phase = .selecting)
      (hpages : ∀ limit ∈ options.maxPages, s.progress.pages < limit)
      (hbatch : 1 ≤ options.batchSize) :
      Rotates { s with
        phase := .updating (selectPage s.table s.progress.cursor options.batchSize)
          (selectPage s.table s.progress.cursor options.batchSize) }
  | refuses (hphase : s.phase = .selecting) (hbatch : options.batchSize < 1) :
      Rotates { s with phase := .failed }
  | stops {limit : ℕ} (hphase : s.phase = .selecting) (hlimit : options.maxPages = some limit)
      (hpages : limit ≤ s.progress.pages) :
      Rotates { s with phase := .finished s.progress.cursor.isNone }
  | fails {page todo : List (Text × UserPiiRow)} {userId : Text} {row : UserPiiRow}
      {error : FieldError} (hphase : s.phase = .updating page ((userId, row) :: todo))
      (hrewrap : rewrapRow cipher userId row wrapIv = .error error) :
      Rotates { s with phase := .failed }
  | passes {page todo : List (Text × UserPiiRow)} {userId : Text} {row update : UserPiiRow}
      (hphase : s.phase = .updating page ((userId, row) :: todo))
      (hrewrap : rewrapRow cipher userId row wrapIv = .ok update)
      (hnothing : ∀ column, update column = none) :
      Rotates { s with phase := .updating page todo }
  | writes {page todo : List (Text × UserPiiRow)} {userId : Text} {row update : UserPiiRow}
      (hphase : s.phase = .updating page ((userId, row) :: todo))
      (hrewrap : rewrapRow cipher userId row wrapIv = .ok update)
      (hsome : ∃ column, update column ≠ none) :
      Rotates { s with
        table := updateRow s.table userId update
        progress := { s.progress with rewrapped := s.progress.rewrapped + 1 }
        phase := .updating page todo }
  | turns {page : List (Text × UserPiiRow)} (hphase : s.phase = .updating page []) :
      Rotates { s with
        progress := { s.progress with
          pages := s.progress.pages + 1
          scanned := s.progress.scanned + page.length
          cursor := nextCursor options.batchSize page }
        phase := if nextCursor options.batchSize page = none then .finished true
          else .selecting }

lemma rotates_of_rotateStep (h : rotateStep cipher options s wrapIv = some t) :
    Rotates cipher options wrapIv s t := by
  unfold rotateStep at h
  cases hphase : s.phase with
  | selecting =>
    simp only [hphase, Option.all_eq_true, decide_eq_true_eq] at h
    split_ifs at h with hpages hbatch
    · cases h
      exact .refuses hphase hbatch
    · cases h
      exact .selects hphase hpages (not_lt.mp hbatch)
    · cases h
      push Not at hpages
      obtain ⟨limit, hlimit, hle⟩ := hpages
      exact .stops hphase hlimit hle
  | updating page todo =>
    cases todo with
    | nil =>
      simp only [hphase] at h
      cases h
      exact .turns hphase
    | cons e todo =>
      simp only [hphase] at h
      cases hrewrap : rewrapRow cipher e.1 e.2 wrapIv with
      | error error =>
        simp only [hrewrap] at h
        cases h
        exact .fails hphase hrewrap
      | ok update =>
        simp only [hrewrap] at h
        split_ifs at h with hnothing
        · cases h
          refine .passes hphase hrewrap ?_
          intro column
          cases column with
          | phone => exact hnothing.1
          | address => exact hnothing.2
        · cases h
          refine .writes hphase hrewrap ?_
          by_contra hnone
          push Not at hnone
          exact hnothing ⟨hnone .phone, hnone .address⟩
  | _ => simp [hphase] at h

lemma piiInv_rotate (hs : PiiInv cipher s) (h : rotateStep cipher options s wrapIv = some t) :
    PiiInv cipher t := by
  obtain ⟨hvals, hpage⟩ := hs
  unfold PiiState.todo at hpage
  cases rotates_of_rotateStep h with
  | selects => exact ⟨hvals, pageFresh_selectPage⟩
  | passes hph hrew hnot =>
    rw [hph] at hpage
    exact ⟨hvals, pageFresh_tail hpage⟩
  | writes hph hrew hsome =>
    rw [hph] at hpage
    refine ⟨?_, pageFresh_updateRow hpage⟩
    intro id column
    rw [readField_updateRow hpage hrew, hvals]
  | turns hph =>
    refine ⟨hvals, ?_⟩
    split_ifs
    · exact pageFresh_nil
    · exact pageFresh_nil
  | _ => exact ⟨hvals, pageFresh_nil⟩

lemma piiInv_step {a} (hs : PiiInv cipher s) (hclear : SaveClearOfPage cipher s a)
    (h : stepPii cipher options s a = some t) : PiiInv cipher t := by
  cases a with
  | savePii userId write random =>
    simp only [stepPii] at h
    cases hsave : savePii cipher s.table userId write random with
    | error e =>
      rw [hsave] at h
      cases h
      exact hs
    | ok table =>
      rw [hsave] at h
      cases h
      refine ⟨?_, hs.page.1, ?_⟩
      · intro id column
        rw [readField_savePii hsave, hs.values]
      · intro e he column hstale
        rw [savePii_keeps hsave (fun hid => hclear e he hid column hstale)]
        exact hs.page.2 e he column hstale
  | rotate wrapIv => exact piiInv_rotate hs h

end

/-- In every run whose saves stay clear of the fields a rotation is about to write
back, every field decrypts to what the last save said, as if there was no rotation. -/
theorem rotation_keeps_writes (cipher : FieldCipher) (options : RotationOptions) (table : PiiTable)
    (as : List PiiAction) (t : PiiState)
    (hclear : Machine.Guarded (stepPii cipher options) (SaveClearOfPage cipher)
      (PiiState.start cipher table) as)
    (hexec : Machine.exec (stepPii cipher options) (PiiState.start cipher table) as = some t)
    (id : Text) (column : PiiColumn) :
    readField cipher t.table id column = t.expected id column := by
  have hstart : PiiInv cipher (PiiState.start cipher table) := ⟨fun _ _ => rfl, pageFresh_nil⟩
  have hinv := Machine.exec_invariant_of_guarded (PiiInv cipher)
    (fun s a u => piiInv_step) hstart hclear hexec
  exact hinv.values id column

def sampleIv : Iv := ⟨List.replicate 12 0, by simp [ivBytes]⟩

/-- A phone number of the user, saved under `k1`. -/
def samplePhone (aead : Aead) (userId : Text) : Except FieldError Bytes :=
  (phoneCipher aead false).encrypt ['1'] (piiContext userId .phone) phoneRandomness

def phoneRow (aead : Aead) (userId : Text) : UserPiiRow :=
  fun column => if column = .phone then (samplePhone aead userId).toOption else none

/-- One user with a phone number. -/
def sampleTable (aead : Aead) : PiiTable := ⟨[(['u'], phoneRow aead ['u'])], by simp⟩

def clearPhone : UserPiiWrite := fun column => if column = .phone then .cleared else .omitted

/-- A save before the page is read and one after it is written back. -/
def sampleSettledSaves : List PiiAction :=
  [.savePii ['v'] (fun _ => .value ['2']) (fun _ => phoneRandomness),
    .rotate (fun _ => sampleIv), .rotate (fun _ => sampleIv),
    .savePii ['u'] clearPhone (fun _ => phoneRandomness), .rotate (fun _ => sampleIv)]

theorem rotation_keeps_settled_saves :
    ∃ t, Machine.exec (stepPii (phoneCipher checksumAead true) ⟨200, none⟩)
        (PiiState.start (phoneCipher checksumAead true) (sampleTable checksumAead)) sampleSettledSaves =
          some t ∧
      readField (phoneCipher checksumAead true) t.table ['u'] .phone = t.expected ['u'] .phone := by
  refine Machine.exists_of_seen (fun _ => ()) () (by decide +kernel) ?_
  intro t ht _
  exact rotation_keeps_writes (phoneCipher checksumAead true) ⟨200, none⟩ (sampleTable checksumAead)
    sampleSettledSaves t (by decide +kernel) ht ['u'] .phone

/-- The stored phone number names the retired key, and the new ring rewraps it. -/
lemma rewrapField_samplePhone (aead : Aead) {userId} {aad}
    (haad : encodeFieldContext (piiContext userId .phone) = .ok aad) :
    ∃ bytes rewrapped, samplePhone aead userId = .ok bytes ∧
      rewrapField (phoneCipher aead true) userId .phone sampleIv (some bytes) =
        .ok (some rewrapped) := by
  have hbytes := (phoneCipher aead false).encodeEnvelope_wrapDataKey phoneRandomness.dataKey aad
    phoneRandomness.wrapIv ((phoneCipher aead false).sealPayload phoneRandomness.dataKey
      phoneRandomness.iv aad (Text.utf8 ['1']))
  have hdec := (phoneCipher aead false).decodeEnvelope_wrapDataKey hbytes
  have hunw := FieldCipher.unwrapDataKey_wrapDataKey (phoneCipher aead false)
    (phoneCipher aead true) rfl rfl
  refine ⟨?_, ?_, ?_, ?_⟩
  rotate_left 2
  · simp only [samplePhone, FieldCipher.encrypt, haad]
    exact hbytes
  · simp only [rewrapField, FieldCipher.needsRewrap, FieldCipher.rewrap, haad, hdec, hunw,
      bind, Except.bind]
    rfl

/-- A save that clears the phone number between the read of the page and the write
back of its row: the rotation puts the number back. -/
def sampleOverwrite : List PiiAction :=
  [.rotate (fun _ => sampleIv), .savePii ['u'] clearPhone (fun _ => phoneRandomness),
    .rotate (fun _ => sampleIv)]

theorem rotation_restores_cleared_field :
    ¬ ∃ aead : Aead, ∀ as t, Machine.exec (stepPii (phoneCipher aead true) ⟨200, none⟩)
        (PiiState.start (phoneCipher aead true) (sampleTable aead)) as = some t →
      ∀ id column, readField (phoneCipher aead true) t.table id column = t.expected id column := by
  rintro ⟨aead, h⟩
  obtain ⟨aad, haad⟩ : ∃ aad, encodeFieldContext (piiContext ['u'] .phone) = .ok aad := ⟨_, rfl⟩
  obtain ⟨bytes, rewrapped, hbytes, hrewrap⟩ := rewrapField_samplePhone aead haad
  have hphone : (samplePhone aead ['u']).toOption = some bytes := by rw [hbytes]; rfl
  obtain ⟨update, hupdate, hnew⟩ : ∃ update, rewrapRow (phoneCipher aead true) ['u']
      (phoneRow aead ['u']) (fun _ => sampleIv) = .ok update ∧ update .phone = some rewrapped := by
    simp only [rewrapRow, phoneRow, hphone, if_true, hrewrap]
    exact ⟨_, rfl, rfl⟩
  obtain ⟨t, ht, hstored, hexpected⟩ : ∃ t, Machine.exec (stepPii (phoneCipher aead true) ⟨200, none⟩)
        (PiiState.start (phoneCipher aead true) (sampleTable aead)) sampleOverwrite = some t ∧
      (t.table.get ['u']).bind (fun row => row .phone) = some rewrapped ∧
      t.expected ['u'] .phone = .ok none := by
    have hread : stepPii (phoneCipher aead true) ⟨200, none⟩
        (PiiState.start (phoneCipher aead true) (sampleTable aead)) (.rotate (fun _ => sampleIv)) =
        some { PiiState.start (phoneCipher aead true) (sampleTable aead) with
          phase := .updating (sampleTable aead).entries (sampleTable aead).entries } := rfl
    simp only [sampleOverwrite, Machine.exec, hread]
    simp only [stepPii, savePii, clearPhone, encryptOrNull, bind, Except.bind, if_true,
      reduceCtorEq, if_false, Option.bind_some, rotateStep, sampleTable, hupdate, hnew]
    refine ⟨_, rfl, ?_, rfl⟩
    simp [updateRow_get, hnew]
  have hvalue := h sampleOverwrite t ht ['u'] .phone
  rw [hexpected] at hvalue
  simp only [readField, hstored] at hvalue
  cases hdecrypt : (phoneCipher aead true).decryptText rewrapped (piiContext ['u'] .phone) with
  | _ => simp [hdecrypt, Except.map] at hvalue

end BoilerplateExpress.Users

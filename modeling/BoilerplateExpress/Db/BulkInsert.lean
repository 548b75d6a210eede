import BoilerplateExpress.OrderedMap

/-!
# Inserting many rows in one statement

`createMany` of `db/repository.ts`. The column list comes from the first row; the values are
pushed by a loop over the rows and, inside it, the columns, and a placeholder is the number of
values pushed so far. The keys of an object are distinct, so `expected` has as many elements as
there are columns.
-/
namespace BoilerplateExpress.Db

open List

/-- A row to insert, with its keys in the order of `Object.keys`. -/
abbrev InsertRow (ν : Type) := OrderedMap String ν

def InsertRow.keys {ν : Type} (row : InsertRow ν) : List String := row.entries.map Prod.fst

def MAX_BIND_PARAMETERS : ℕ := 65535

/-- `onConflict`; the target of `'ignore'` may be empty. -/
inductive OnConflict where
  | error
  | ignore (conflictTarget : List String)

/-- The one statement, with what is bound to its placeholders: `undefined` is `none`. -/
structure InsertStatement (ν : Type) where
  tableName : String
  columns : List String
  tuples : List (List ℕ)
  onConflict : OnConflict
  values : List (Option ν)

def quoted (column : String) : String := "\"" ++ column ++ "\""

def commas (texts : List String) : String := ", ".intercalate texts

def InsertStatement.text {ν : Type} (s : InsertStatement ν) : String :=
  "INSERT INTO " ++ quoted s.tableName ++ " (" ++ commas (s.columns.map quoted) ++ ") VALUES " ++
    commas (s.tuples.map fun tuple => "(" ++ commas (tuple.map fun n => "$" ++ toString n) ++ ")") ++
    (match s.onConflict with
      | .error => ""
      | .ignore [] => " ON CONFLICT DO NOTHING"
      | .ignore target => " ON CONFLICT (" ++ commas (target.map quoted) ++ ") DO NOTHING") ++
    " RETURNING *"

section

variable {ν : Type}

/-- The inner loop: each column pushes its value and gives the placeholder of it. -/
def bindRow (row : InsertRow ν) : List String → List (Option ν) → List ℕ × List (Option ν)
  | [], values => ([], values)
  | column :: columns, values =>
    let pushed := values ++ [row.get column]
    let (placeholders, values) := bindRow row columns pushed
    (pushed.length :: placeholders, values)

/-- The outer loop, or the message of the `RangeError`. -/
def bindRows (tableName : String) (columns : List String) :
    ℕ → List (InsertRow ν) → List (Option ν) → Except String (List (List ℕ) × List (Option ν))
  | _, [], values => .ok ([], values)
  | rowIndex, row :: rows, values =>
    if row.keys.length ≠ columns.length ∨ row.keys.any (fun key => key ∉ columns) then
      .error ("createMany into " ++ quoted tableName ++ ": row " ++ toString rowIndex ++
        " has columns [" ++ commas row.keys ++ "], expected [" ++ commas columns ++ "]")
    else
      let (tuple, values) := bindRow row columns values
      (bindRows tableName columns (rowIndex + 1) rows values).map fun bound =>
        (tuple :: bound.1, bound.2)

/-- The statement that is sent, if any. -/
def createMany (tableName : String) (onConflict : OnConflict) :
    List (InsertRow ν) → Except String (Option (InsertStatement ν))
  | [] => .ok none
  | first :: rest =>
    let rows := first :: rest
    let columns := first.keys
    let parameterCount := columns.length * rows.length
    if columns.length = 0 then
      .error ("createMany into " ++ quoted tableName ++ ": rows have no columns")
    else if parameterCount > MAX_BIND_PARAMETERS then
      .error ("createMany into " ++ quoted tableName ++ ": " ++ toString rows.length ++ " rows × " ++
        toString columns.length ++ " columns is " ++ toString parameterCount ++
        " bind parameters, over the protocol limit of " ++ toString MAX_BIND_PARAMETERS)
    else
      (bindRows tableName columns 0 rows []).map fun bound =>
        some ⟨tableName, columns, bound.1, onConflict, bound.2⟩

/-- The same columns, in any order. -/
def SameColumns (columns : List String) (row : InsertRow ν) : Prop :=
  ∀ column, column ∈ row.keys ↔ column ∈ columns

lemma bindRow_eq (row : InsertRow ν) (columns values) :
    bindRow row columns values =
      (range' (values.length + 1) columns.length, values ++ columns.map row.get) := by
  induction columns generalizing values with
  | nil => simp [bindRow]
  | cons column columns ih => simp [bindRow, ih, range'_succ]

lemma sameColumns_iff (row : InsertRow ν) {columns} (hcols : columns.Nodup) :
    SameColumns columns row ↔
      ¬ (row.keys.length ≠ columns.length ∨ row.keys.any (fun key => key ∉ columns)) := by
  have hperm : SameColumns columns row ↔ row.keys.Perm columns :=
    (perm_ext_iff_of_nodup row.nodup hcols).symm
  rw [hperm, not_or, not_not]
  constructor
  · intro h
    exact ⟨h.length_eq, by simp [h.mem_iff]⟩
  · rintro ⟨hlen, hkeys⟩
    refine (subperm_of_subset row.nodup fun key hkey => ?_).perm_of_length_le hlen.ge
    by_contra hnone
    exact hkeys (any_eq_true.mpr ⟨key, hkey, by simpa using hnone⟩)

/-- The placeholders of a row read the values that its columns pushed. -/
lemma map_range'_values {α : Type} (before row after : List α) :
    (range' (before.length + 1) row.length).map (fun n => (before ++ (row ++ after))[n - 1]?) =
      row.map some := by
  refine ext_getElem (by simp) fun i _ hi => ?_
  rw [length_map] at hi
  simp [getElem_range', Nat.add_right_comm before.length 1 i, getElem?_append, hi]

/-- The rows that are bound, whatever was pushed before them. -/
lemma bindRows_ok (tableName rowIndex) {columns} (hcols : columns.Nodup)
    {rows : List (InsertRow ν)} (h : ∀ row ∈ rows, SameColumns columns row) (values) :
    ∃ tuples, bindRows tableName columns rowIndex rows values =
        .ok (tuples, values ++ rows.flatMap fun row => columns.map row.get) ∧
      tuples.flatten = range' (values.length + 1) (rows.length * columns.length) ∧
      tuples.map (List.map fun n => (values ++ rows.flatMap fun row => columns.map row.get)[n - 1]?) =
        rows.map fun row => columns.map fun column => some (row.get column) := by
  induction rows generalizing rowIndex values with
  | nil => exact ⟨[], by simp [bindRows], by simp, rfl⟩
  | cons row rows ih =>
    obtain ⟨hrow, hrows⟩ := forall_mem_cons.mp h
    obtain ⟨tuples, hbind, hflat, hvals⟩ := ih (rowIndex + 1) hrows (values ++ columns.map row.get)
    rw [append_assoc] at hbind hvals
    refine ⟨range' (values.length + 1) columns.length :: tuples, ?_, ?_, ?_⟩
    · rw [bindRows, if_neg ((sameColumns_iff row hcols).mp hrow), bindRow_eq]
      simp [hbind, Except.map]
    · rw [flatten_cons, hflat, length_append, length_map, length_cons,
        Nat.add_mul, Nat.one_mul, Nat.add_comm (rows.length * columns.length), ← range'_append_1,
        Nat.add_right_comm]
    · have hhead := map_range'_values values (columns.map row.get)
        (rows.flatMap fun row => columns.map row.get)
      rw [length_map, map_map] at hhead
      rw [flatMap_cons, map_cons, hvals, hhead]
      rfl

lemma bindRows_error (tableName rowIndex) {columns} (hcols : columns.Nodup)
    {rows : List (InsertRow ν)} (h : ∃ row ∈ rows, ¬ SameColumns columns row) (values) :
    ∃ message, bindRows tableName columns rowIndex rows values = .error message := by
  induction rows generalizing rowIndex values with
  | nil => simp at h
  | cons row rows ih =>
    rw [bindRows, bindRow_eq]
    split_ifs with hrow
    · exact ⟨_, rfl⟩
    · have hsame := (sameColumns_iff row hcols).mpr hrow
      rw [exists_mem_cons_iff] at h
      obtain ⟨message, hmsg⟩ := ih (rowIndex + 1) (h.resolve_left (not_not.mpr hsame))
        (values ++ columns.map row.get)
      exact ⟨message, by simp [hmsg, Except.map]⟩

/-- The rows have the same columns, at least one, and not too many values. -/
def Insertable (first : InsertRow ν) (rest : List (InsertRow ν)) : Prop :=
  first.keys ≠ [] ∧ (∀ row ∈ rest, SameColumns first.keys row) ∧
    first.keys.length * (rest.length + 1) ≤ 65535

/-- Rows with the same columns are bound value by value, in one statement; the empty list gives
no statement, and any other list an error. -/
theorem createMany_binds_values (tableName : String) (onConflict : OnConflict)
    (first : InsertRow ν) (rest : List (InsertRow ν)) :
    createMany tableName onConflict ([] : List (InsertRow ν)) = .ok none ∧
    (Insertable first rest →
      ∃ statement, createMany tableName onConflict (first :: rest) = .ok (some statement) ∧
        statement.columns = first.keys ∧
        statement.tuples.map (List.map fun n => statement.values[n - 1]?) =
          (first :: rest).map (fun row => first.keys.map fun column => some (row.get column)) ∧
        statement.tuples.flatten = range' 1 ((rest.length + 1) * first.keys.length)) ∧
    (¬ Insertable first rest →
      ∃ message, createMany tableName onConflict (first :: rest) = .error message) := by
  refine ⟨rfl, ?_, ?_⟩
  · rintro ⟨hne, hrest, hcnt⟩
    obtain ⟨tuples, hbind, hflat, hvals⟩ := bindRows_ok tableName 0 first.nodup
      (forall_mem_cons.mpr ⟨fun column => Iff.rfl, hrest⟩) []
    refine ⟨⟨tableName, first.keys, tuples, onConflict, _⟩, ?_, rfl, hvals, hflat⟩
    have hwi : ¬ first.keys.length * (first :: rest).length > MAX_BIND_PARAMETERS :=
      not_lt.mpr hcnt
    rw [createMany, if_neg (by simpa using hne), if_neg hwi]
    exact congrArg (Except.map _) hbind
  · intro h
    rw [createMany]
    split_ifs with hne hcnt
    · exact ⟨_, rfl⟩
    · exact ⟨_, rfl⟩
    · have hoth : ∃ row ∈ first :: rest, ¬ SameColumns first.keys row := by
        by_contra hsame
        refine h ⟨by simpa using hne, fun row hrow => ?_, not_lt.mp hcnt⟩
        by_contra hdif
        exact hsame ⟨row, mem_cons_of_mem first hrow, hdif⟩
      obtain ⟨message, hmsg⟩ := bindRows_error tableName 0 first.nodup hoth []
      exact ⟨message, congrArg (Except.map _) hmsg⟩

end

end BoilerplateExpress.Db

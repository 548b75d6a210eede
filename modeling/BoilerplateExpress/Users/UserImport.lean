import BoilerplateExpress.Ingest.Runs

/-!
# The user import

`users/users-import.ts`: the row schema of the import and the write of one batch, with
`createMany` of `db/repository.ts` and the `users` table as far as the import touches it.
The table maps an email to its roles; `email` is unique and `roles` has a default.

Zod's test for an address and the lower-casing of strings are parameters.
-/
namespace BoilerplateExpress.UserImport

open Streams Ingest EventStream

def userImportColumns : List ColumnSpec := [⟨units "email", true⟩, ⟨units "roles", false⟩]

structure UserImportRow where
  email : JsString
  roles : Option (List JsString)
  deriving DecidableEq, Repr

def emailIssue (message : String) : Issue := ⟨[.name (units "email")], units message⟩

/-- The checks on the email. Zod runs each of them, whatever the ones before it found. -/
def emailIssues (isEmail : JsString → Bool) (value : JsString) : List Issue :=
  (if value.trim.length < 1 then [emailIssue "email is required"] else []) ++
    if isEmail value.trim then [] else [emailIssue "email must be a valid address"]

/-- A comma-separated list; a blank cell says nothing. -/
def parseRoles (value : Option JsString) : Option (List JsString) :=
  match value with
  | none => none
  | some value =>
    let roles := ((value.splitOn 44).map JsString.trim).filter (fun role => 0 < role.length)
    if 0 < roles.length then some roles else none

def userImportRowSchema (isEmail : JsString → Bool) (toLowerCase : JsString → JsString) :
    Schema UserImportRow := fun raw =>
  match raw.lookup (units "email") with
  | none => .error ⟨[emailIssue "Required"], by simp⟩
  | some value =>
    match emailIssues isEmail value with
    | [] => .ok (some ⟨toLowerCase value.trim, parseRoles (raw.lookup (units "roles"))⟩)
    | issue :: issues => .error ⟨issue :: issues, by simp⟩

/-- A row to insert. Without roles it has no such key. -/
structure UserInsert where
  email : JsString
  roles : Option (List JsString)
  deriving DecidableEq, Repr

def UserInsert.keys (row : UserInsert) : List String :=
  if row.roles.isSome then ["email", "roles"] else ["email"]

def UserInsert.shape (row : UserInsert) : String := ",".intercalate row.keys

/-- The users table: the roles of each email. -/
abbrev UsersTable := OrderedMap JsString (List JsString)

def defaultRoles : List JsString := [units "user"]

def maxBindParameters : ℕ := 65535

/-- One row of an `INSERT … ON CONFLICT (email) DO NOTHING`, with the count of rows inserted. -/
def insertRow (before : ℕ × UsersTable) (row : UserInsert) : ℕ × UsersTable :=
  if before.2.has row.email then before
  else (before.1 + 1, before.2.set row.email (row.roles.getD defaultRoles))

/-- `createMany` with `onConflict: 'ignore'`. It throws if the statement has too many
parameters or if the rows do not have the same keys. -/
def createMany (table : UsersTable) (rows : List UserInsert) : Option (ℕ × UsersTable) :=
  match rows with
  | [] => some (0, table)
  | first :: _ =>
    if maxBindParameters < first.keys.length * rows.length then none
    else if rows.any (fun row => row.keys ≠ first.keys) then none
    else some (rows.foldl insertRow (0, table))

/-- The rows of a batch without those whose email was seen before. -/
def uniqueRows (seen : List JsString) : List UserImportRow → List UserInsert
  | [] => []
  | row :: batch =>
    if row.email ∈ seen then uniqueRows seen batch
    else ⟨row.email, row.roles⟩ :: uniqueRows (row.email :: seen) batch

def addToGroup (groups : OrderedMap String (List UserInsert)) (row : UserInsert) :
    OrderedMap String (List UserInsert) :=
  match groups.get row.shape with
  | some group => groups.set row.shape (group ++ [row])
  | none => groups.set row.shape [row]

def groupByShape (rows : List UserInsert) : OrderedMap String (List UserInsert) :=
  rows.foldl addToGroup OrderedMap.empty

/-- `writeUserImportBatch`: one statement for each shape of row. -/
def writeUserImportBatch (batch : List UserImportRow) : List (List UserInsert) :=
  (groupByShape (uniqueRows [] batch)).entries.map Prod.snd

def userImportBatchSize : ℕ := 500

/-- The ingest that `importUsers` starts. -/
def importUsers (isEmail : JsString → Bool) (toLowerCase : JsString → JsString)
    (maxBytes maxReported : ℕ) : Settings UserImportRow where
  columns := userImportColumns
  schema := userImportRowSchema isEmail toLowerCase
  toLowerCase := toLowerCase
  dialect := defaultDialect
  batchSize := userImportBatchSize
  maxBytes := maxBytes
  maxReported := maxReported
  batchSize_pos := by simp [userImportBatchSize]

def userImportWriter : Writer UserImportRow (List UserInsert) UsersTable :=
  ⟨writeUserImportBatch, createMany⟩

end BoilerplateExpress.UserImport

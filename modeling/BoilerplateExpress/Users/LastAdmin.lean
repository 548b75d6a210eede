import BoilerplateExpress.Errors
import BoilerplateExpress.OrderedMap

/-!
# The last administrator

The users table, the conditional writes of `db/versioned-repository.ts` on one of
its rows, and the check of `users/last-admin.ts`. A row is an id with its columns;
the password hash and the timestamps take no part in any decision here.
-/
namespace BoilerplateExpress.Users

def adminRole : Text := "admin".toList

structure UserRow where
  email : Text
  roles : List Text
  version : ℕ
  deriving DecidableEq, Repr

abbrev UsersTable := OrderedMap Text UserRow

def UserRow.isAdmin (row : UserRow) : Bool := decide (adminRole ∈ row.roles)

structure UpdateUserBody where
  email : Option Text
  roles : Option (List Text)

/-- `If-Match`: any version, or one of a list. -/
inductive Precondition where
  | any
  | versions (named : List ℕ)

def Precondition.holds : Precondition → ℕ → Bool
  | .any, _ => true
  | .versions named, version => decide (version ∈ named)

/-- The two requests that write a user. -/
inductive UserRequest where
  | updateUser (id : Text) (body : UpdateUserBody) (precondition : Precondition)
  | removeUser (id : Text) (precondition : Precondition)

namespace UserRequest

def target : UserRequest → Text
  | updateUser id _ _ => id
  | removeUser id _ => id

def precondition : UserRequest → Precondition
  | updateUser _ _ precondition => precondition
  | removeUser _ precondition => precondition

/-- The new version of the row: the trigger bumps the version, `none` is a delete. -/
def apply (request : UserRequest) (row : UserRow) : Option UserRow :=
  match request with
  | updateUser _ body _ => some
      { email := body.email.getD row.email
        roles := body.roles.getD row.roles
        version := row.version + 1 }
  | removeUser _ _ => none

end UserRequest

def patchRemovesAdminRole (patch : UpdateUserBody) : Bool :=
  match patch.roles with
  | none => false
  | some roles => decide (adminRole ∉ roles)

/-- Whether the request locks the administrators before it writes. -/
def UserRequest.locksAdmins : UserRequest → Bool
  | updateUser _ body _ => patchRemovesAdminRole body
  | removeUser _ _ => true

def lastAdminError : AppError :=
  { statusCode := 409
    message := "This is the last account with the admin role; promote another before removing it"
    code := some "LAST_ADMIN" }

def assertAdminRemains (admins : List (Text × UserRow)) (targetId : Text) :
    Except AppError Unit :=
  if admins.any (fun admin => admin.1 = targetId) then
    if admins.length = 1 then .error lastAdminError else .ok ()
  else .ok ()

/-- A request that does not lock the administrators leaves an administrator one. -/
lemma apply_isAdmin {row} {request : UserRequest} (hlocks : request.locksAdmins = false)
    (hadmin : row.isAdmin) : ∃ next, request.apply row = some next ∧ next.isAdmin := by
  cases request with
  | updateUser id body precondition =>
    refine ⟨_, rfl, ?_⟩
    cases hroles : body.roles with
    | none => simpa [UserRow.isAdmin] using hadmin
    | some roles => simpa [UserRequest.locksAdmins, patchRemovesAdminRole, hroles,
        UserRow.isAdmin] using hlocks
  | removeUser id precondition => cases hlocks

/-- When the check passes on a non-empty list of distinct administrators, one of
them is not the target. -/
lemma assertAdminRemains_other {admins targetId} (hdist : (admins.map Prod.fst).Nodup)
    (hne : admins ≠ []) (hok : assertAdminRemains admins targetId = .ok ()) :
    ∃ admin ∈ admins, admin.1 ≠ targetId := by
  by_contra hall
  push Not at hall
  obtain ⟨first, rest, rfl⟩ := List.exists_cons_of_ne_nil hne
  have hfst : first.1 = targetId := hall first (by simp)
  have hrest : rest = [] := by
    cases rest with
    | nil => rfl
    | cons second rest =>
      have hsnd : second.1 = targetId := hall second (by simp)
      simp [hfst, hsnd] at hdist
  simp [assertAdminRemains, hfst, hrest] at hok

end BoilerplateExpress.Users

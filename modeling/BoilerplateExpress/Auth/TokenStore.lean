import BoilerplateExpress.OrderedMap
import BoilerplateExpress.Text

/-!
# The in-memory refresh token store

`createInMemoryTokenStore` of `auth/token-store.ts`. A retired token is kept and
marked, expired records are dropped on sight. Every operation runs without an
await, so each is one function on the store and the clock reading it makes.

Every operation except `issue` only retires records and drops expired ones: `Ages` says
so once, and the invariants of the service use little else about them.
-/
namespace BoilerplateExpress.Auth

inductive RefreshTokenState where
  | active
  | rotated
  | revoked
  deriving DecidableEq, Repr

structure RefreshTokenRecord where
  userId : Text
  familyId : Text
  state : RefreshTokenState
  expiresAt : ℕ
  deriving DecidableEq, Repr

structure NewRefreshToken where
  token : Text
  userId : Text
  familyId : Text
  expiresAt : ℕ

inductive RefreshTokenConsumption where
  | rotated (userId familyId : Text)
  | reuse (userId familyId : Text)
  | revoked (userId familyId : Text)
  | unknown
  deriving DecidableEq, Repr

def pruneIntervalMs : ℕ := 60000

structure TokenStore where
  records : OrderedMap Text RefreshTokenRecord
  lastPrunedAt : ℕ

namespace TokenStore

def create (now : ℕ) : TokenStore := ⟨OrderedMap.empty, now⟩

/-- Expired records are treated as absent, and dropped on sight. -/
def live (store : TokenStore) (token : Text) (now : ℕ) :
    Option RefreshTokenRecord × TokenStore :=
  match store.records.get token with
  | none => (none, store)
  | some record =>
    if record.expiresAt ≤ now then
      (none, { store with records := store.records.delete token })
    else (some record, store)

def prune (store : TokenStore) (now : ℕ) : TokenStore where
  records := store.records.filter (fun _ record => decide (now < record.expiresAt))
  lastPrunedAt := now

def setState (store : TokenStore) (token : Text) (record : RefreshTokenRecord)
    (state : RefreshTokenState) : TokenStore :=
  { store with records := store.records.set token { record with state := state } }

def issue (store : TokenStore) (new : NewRefreshToken) (now : ℕ) : TokenStore :=
  let pruned := if store.lastPrunedAt + pruneIntervalMs ≤ now then store.prune now else store
  let record := ⟨new.userId, new.familyId, .active, new.expiresAt⟩
  { pruned with records := pruned.records.set new.token record }

def consume (store : TokenStore) (token : Text) (now : ℕ) :
    RefreshTokenConsumption × TokenStore :=
  match store.live token now with
  | (none, store) => (.unknown, store)
  | (some record, store) =>
    match record.state with
    | .rotated => (.reuse record.userId record.familyId, store)
    | .revoked => (.revoked record.userId record.familyId, store)
    | .active => (.rotated record.userId record.familyId, store.setState token record .rotated)

def revoke (store : TokenStore) (token : Text) (now : ℕ) : TokenStore :=
  match store.live token now with
  | (none, store) => store
  | (some record, store) => store.setState token record .revoked

/-- The loop of the two bulk revocations: of the selected records the expired
ones are dropped and the others become `revoked`. -/
def revokeWhere (store : TokenStore) (selected : RefreshTokenRecord → Bool) (now : ℕ) :
    TokenStore :=
  let kept := store.records.filter
    (fun _ record => !(selected record) || decide (now < record.expiresAt))
  let revoked := kept.mapValues
    (fun _ record => if selected record then { record with state := .revoked } else record)
  { store with records := revoked }

/-- Answers with how many records it retired. -/
def revokeFamily (store : TokenStore) (familyId : Text) (now : ℕ) : ℕ × TokenStore :=
  (store.records.entries.countP (fun e => decide (e.2.familyId = familyId) &&
      decide (now < e.2.expiresAt) && decide (e.2.state ≠ .revoked)),
    store.revokeWhere (fun record => decide (record.familyId = familyId)) now)

def revokeAllForUser (store : TokenStore) (userId : Text) (now : ℕ) : TokenStore :=
  store.revokeWhere (fun record => decide (record.userId = userId)) now

def isActive (store : TokenStore) (token : Text) (now : ℕ) : Bool :=
  match (store.live token now).1 with
  | some record => decide (record.state = .active)
  | none => false

/-- What an operation at `now` makes of the record of one token, if it is not `issue`. -/
inductive Aged (now : ℕ) : Option RefreshTokenRecord → Option RefreshTokenRecord → Prop
  | same (found : Option RefreshTokenRecord) : Aged now found found
  | retired (record : RefreshTokenRecord) (state : RefreshTokenState) (h : state ≠ .active) :
      Aged now (some record) (some { record with state := state })
  | dropped {record : RefreshTokenRecord} (h : record.expiresAt ≤ now) :
      Aged now (some record) none

def Ages (now : ℕ) (before after : TokenStore) : Prop :=
  ∀ token, Aged now (before.records.get token) (after.records.get token)

lemma ages_refl (now store) : Ages now store store := fun _ => .same _

variable {store after : TokenStore} {token : Text} {record : RefreshTokenRecord} {now : ℕ}

lemma Ages.old (h : Ages now store after) (hget : after.records.get token = some record) :
    ∃ old, store.records.get token = some old ∧ old.userId = record.userId ∧
      old.familyId = record.familyId ∧ (record.state = .active → old.state = .active) := by
  have haged := h token
  rw [hget] at haged
  generalize store.records.get token = found at haged
  cases haged with
  | same => exact ⟨record, rfl, rfl, rfl, id⟩
  | retired old _ hst => exact ⟨old, rfl, rfl, rfl, fun hact => absurd hact hst⟩

lemma Ages.kept (h : Ages now store after) (hget : store.records.get token = some record)
    (hlive : now < record.expiresAt) :
    ∃ new, after.records.get token = some new ∧ new.expiresAt = record.expiresAt := by
  have haged := h token
  rw [hget] at haged
  generalize after.records.get token = found at haged
  cases haged with
  | same => exact ⟨record, rfl, rfl⟩
  | retired _ _ _ => exact ⟨_, rfl, rfl⟩
  | dropped hexp => omega

lemma ages_setState {state} (now) (hget : store.records.get token = some record)
    (hst : state ≠ .active) : Ages now store (store.setState token record state) := by
  intro other
  by_cases hoth : other = token
  · rw [hoth, hget]
    simpa [setState] using Aged.retired record state hst
  · simpa [setState, hoth] using Aged.same _

lemma live_spec (store token now) :
    Ages now store (store.live token now).2 ∧ ∀ record, (store.live token now).1 = some record →
      store.records.get token = some record ∧ (store.live token now).2 = store := by
  unfold live
  split
  · exact ⟨ages_refl now store, by simp⟩
  · rename_i held hheld
    split_ifs with hexp
    · refine ⟨?_, by simp⟩
      intro other
      by_cases hoth : other = token
      · rw [hoth, hheld]
        simpa using Aged.dropped hexp
      · simpa [hoth] using Aged.same _
    · exact ⟨ages_refl now store, fun record h => ⟨h ▸ hheld, rfl⟩⟩

/-- What an answer of `consume` says about the record it found, and about what is left of it. -/
def Answers (store after : TokenStore) (token : Text) : RefreshTokenConsumption → Prop
  | .rotated _ familyId => ∃ record, store.records.get token = some record ∧
      record.state = .active ∧ record.familyId = familyId ∧
      after.records.get token = some { record with state := .rotated }
  | .reuse _ familyId => ∃ record, store.records.get token = some record ∧
      record.familyId = familyId
  | _ => True

lemma consume_spec (store token now) :
    Ages now store (store.consume token now).2 ∧
      Answers store (store.consume token now).2 token (store.consume token now).1 := by
  obtain ⟨hages, hsome⟩ := live_spec store token now
  unfold consume
  generalize store.live token now = looked at hages hsome ⊢
  obtain ⟨found, store'⟩ := looked
  cases found with
  | none => exact ⟨hages, trivial⟩
  | some record =>
    obtain ⟨hget, rfl⟩ := hsome record rfl
    cases hstate : record.state with
    | active =>
      simp only [hstate]
      exact ⟨ages_setState now hget (by simp), record, hget, hstate, rfl, by simp [setState]⟩
    | rotated =>
      simp only [hstate]
      exact ⟨hages, record, hget, rfl⟩
    | revoked =>
      simp only [hstate]
      exact ⟨hages, trivial⟩

lemma ages_revoke (store token now) : Ages now store (store.revoke token now) := by
  obtain ⟨hages, hsome⟩ := live_spec store token now
  unfold revoke
  generalize store.live token now = looked at hages hsome ⊢
  obtain ⟨found, store'⟩ := looked
  cases found with
  | none => exact hages
  | some record =>
    obtain ⟨hget, rfl⟩ := hsome record rfl
    exact ages_setState now hget (by simp)

lemma get_revokeWhere (store : TokenStore) (selected now token) :
    (store.revokeWhere selected now).records.get token =
      ((store.records.get token).filter fun r => !selected r || decide (now < r.expiresAt)).map
        fun r => if selected r then { r with state := .revoked } else r := by simp [revokeWhere]

lemma ages_revokeWhere (store selected now) : Ages now store (store.revokeWhere selected now) := by
  intro token
  rw [get_revokeWhere]
  cases store.records.get token with
  | none => exact .same none
  | some record =>
    by_cases hsel : selected record
    · by_cases hlive : now < record.expiresAt
      · simpa [Option.filter, hsel, hlive] using Aged.retired record .revoked (by simp)
      · simpa [Option.filter, hsel, hlive] using Aged.dropped (not_lt.mp hlive)
    · simpa [Option.filter, hsel] using Aged.same _

/-- A bulk revocation leaves no selected record active. -/
lemma revokeWhere_inactive {selected}
    (h : (store.revokeWhere selected now).records.get token = some record) :
    ∃ old, store.records.get token = some old ∧ old.familyId = record.familyId ∧
      (selected old → record.state ≠ .active) := by
  rw [get_revokeWhere] at h
  obtain ⟨old, hold, rfl⟩ := Option.map_eq_some_iff.mp h
  refine ⟨old, (Option.filter_eq_some_iff.mp hold).1, ?_⟩
  split_ifs with hsel
  · simp
  · simp [hsel]

/-- After `issue` the new token is active under its own data and every other
record is one that was there before. -/
theorem issue_get {new} (h : (store.issue new now).records.get token = some record) :
    (token = new.token ∧ record = ⟨new.userId, new.familyId, .active, new.expiresAt⟩) ∨
      (token ≠ new.token ∧ store.records.get token = some record) := by
  simp only [issue, OrderedMap.get_set_eq_some] at h
  rcases h with ⟨ht, hrec⟩ | ⟨ht, h⟩
  · exact .inl ⟨ht, hrec.symm⟩
  · refine .inr ⟨ht, ?_⟩
    split_ifs at h with hprune
    · simp only [prune, OrderedMap.get_filter, Option.filter_eq_some_iff] at h
      exact h.1
    · exact h

lemma issue_keeps {new} (store : TokenStore) (htoken : token ≠ new.token)
    (hget : store.records.get token = some record) (hlive : now < record.expiresAt) :
    (store.issue new now).records.get token = some record := by
  refine OrderedMap.get_set_eq_some.mpr (.inr ⟨htoken, ?_⟩)
  split_ifs with hprune
  · simp only [prune, OrderedMap.get_filter, hget]
    exact Option.filter_some_pos (by simp [hlive])
  · exact hget

lemma isActive_eq_false (now)
    (h : ∀ record, store.records.get token = some record → record.state ≠ .active) :
    store.isActive token now = false := by
  unfold isActive
  split
  · rename_i record hlive
    simpa using h record ((live_spec store token now).2 record hlive).1
  · rfl

end TokenStore

end BoilerplateExpress.Auth

import BoilerplateExpress.Machine
import BoilerplateExpress.OrderedMap
import BoilerplateExpress.Idempotency.Types

/-!
# The Postgres idempotency store

`PostgresIdempotencyStore` (`idempotency/postgres.store.ts`) on one `(scope, key)`: the
row of `idempotency_keys`, if there is one, and the `claim` calls that are between two
of their statements. Every SQL statement is one step and reads the clock of the
database, which never runs backwards; instants are in seconds. A claim id is drawn
afresh in every attempt.

Beside the table the state keeps what no code reads: the claims that were answered
`claimed`, those that ended in a successful `complete` or `release`, the responses
recorded, and the answers of `claim` with the row they were decided on.
-/
namespace BoilerplateExpress.Idempotency

open List

def claimAttempts : ℕ := 3

structure StoreOptions where
  retentionMs : ℚ := defaultRetentionMs
  leaseMs : ℚ := defaultLeaseMs

structure PostgresIdempotencyStore where
  retentionSeconds : ℚ
  leaseSeconds : ℚ

def assertPositive (name : String) (value : ℚ) : Except RangeError Unit :=
  if value ≤ 0 then
    .error ⟨"PostgresIdempotencyStore: " ++ name ++
      " must be a finite positive number, received ", value⟩
  else .ok ()

def PostgresIdempotencyStore.create (options : StoreOptions) :
    Except RangeError PostgresIdempotencyStore := do
  assertPositive "retentionMs" options.retentionMs
  assertPositive "leaseMs" options.leaseMs
  return ⟨options.retentionMs / 1000, options.leaseMs / 1000⟩

/-- A row of `idempotency_keys`, with the two check constraints of the table. -/
structure KeyRow where
  claimId : ℕ
  fingerprint : Text
  state : IdempotencyState
  responseStatus : Option ℕ
  responseBody : Option Json
  hasResponseBody : Bool
  claimedAt : ℚ
  expiresAt : ℚ
  completed_has_status : state = .completed ↔ responseStatus.isSome = true
  body_presence : hasResponseBody = true ∨ responseBody = none

namespace KeyRow

def expired (row : KeyRow) (now : ℚ) : Prop := row.expiresAt ≤ now

def stale (store : PostgresIdempotencyStore) (row : KeyRow) (now : ℚ) : Prop :=
  row.state = .inProgress ∧ row.claimedAt + store.leaseSeconds ≤ now

/-- The condition of `TAKEOVER_SQL`. -/
def dead (store : PostgresIdempotencyStore) (row : KeyRow) (now : ℚ) : Prop :=
  row.expired now ∨ row.stale store now

instance (store) (row : KeyRow) (now) : Decidable (row.dead store now) := by
  unfold dead expired stale
  infer_instance

/-- The row that `CLAIM_SQL` inserts and that `TAKEOVER_SQL` leaves behind. -/
def claim (store : PostgresIdempotencyStore) (now : ℚ) (claimId : ℕ) (fingerprint : Text) :
    KeyRow where
  claimId := claimId
  fingerprint := fingerprint
  state := .inProgress
  responseStatus := none
  responseBody := none
  hasResponseBody := false
  claimedAt := now
  expiresAt := now + store.retentionSeconds
  completed_has_status := by simp
  body_presence := .inr rfl

/-- The row after `COMPLETE_SQL`; `undefined` in a response with a body is stored as
the JSON value `null`. -/
def complete (store : PostgresIdempotencyStore) (now : ℚ) (response : RecordedResponse Json)
    (row : KeyRow) : KeyRow where
  claimId := row.claimId
  fingerprint := row.fingerprint
  state := .completed
  responseStatus := some response.status
  responseBody := if response.hasBody then some (response.body.getD .null) else none
  hasResponseBody := response.hasBody
  claimedAt := row.claimedAt
  expiresAt := now + store.retentionSeconds
  completed_has_status := by simp
  body_presence := by cases response.hasBody <;> simp

/-- The condition of `COMPLETE_SQL` and `RELEASE_SQL`. -/
def ownedBy (row : KeyRow) (claimId : ℕ) : Prop :=
  row.claimId = claimId ∧ row.state = .inProgress

instance (row : KeyRow) (claimId : ℕ) : Decidable (row.ownedBy claimId) :=
  inferInstanceAs (Decidable (row.claimId = claimId ∧ row.state = .inProgress))

def toRecordedResponse (status : ℕ) (row : KeyRow) : RecordedResponse Json :=
  if row.hasResponseBody then ⟨status, true, some (row.responseBody.getD .null)⟩
  else ⟨status, false, none⟩

/-- The answer of `claim` on a live record. -/
def answer (row : KeyRow) (fingerprint : Text) : ClaimResult :=
  if row.fingerprint = fingerprint then
    match row.state, row.responseStatus with
    | .completed, some status => .replay (row.toRecordedResponse status)
    | _, _ => .inProgress
  else .mismatch

end KeyRow

/-- The response a `complete` puts on record. -/
def RecordedResponse.onRecord (response : RecordedResponse Json) : RecordedResponse Json :=
  if response.hasBody then ⟨response.status, true, some (response.body.getD .null)⟩
  else ⟨response.status, false, none⟩

inductive ClaimPhase where
  | insert
  | read
  | takeOver
  deriving DecidableEq

/-- A `claim` call before its next statement. -/
structure ClaimCall where
  fingerprint : Text
  attempt : ℕ
  claimId : ℕ
  phase : ClaimPhase

/-- A claim that was answered `claimed`. -/
structure GrantedClaim where
  claimId : ℕ
  fingerprint : Text
  claimedAt : ℚ

structure ClaimAnswer where
  fingerprint : Text
  read : Option KeyRow
  result : Except AppError ClaimResult

structure StoreState where
  now : ℚ
  row : Option KeyRow
  calls : OrderedMap ℕ ClaimCall
  drawnIds : List ℕ
  claims : List GrantedClaim
  ended : List ℕ
  recorded : List (ℕ × RecordedResponse Json)
  answers : List ClaimAnswer

inductive StoreAction where
  | claim (call : ℕ) (fingerprint : Text) (claimId : ℕ)
  | statement (call : ℕ) (now : ℚ) (nextClaimId : ℕ)
  | complete (claimId : ℕ) (response : RecordedResponse Json) (now : ℚ)
  | release (claimId : ℕ) (now : ℚ)
  | purgeExpired (now : ℚ)

namespace StoreState

def empty : StoreState where
  now := 0
  row := none
  calls := OrderedMap.empty
  drawnIds := []
  claims := []
  ended := []
  recorded := []
  answers := []

def setCall (s : StoreState) (call : ℕ) (x : ClaimCall) : StoreState :=
  { s with calls := s.calls.set call x }

/-- Begins an attempt of a call under a new claim id. -/
def attempt (s : StoreState) (call : ℕ) (fingerprint : Text) (attempt claimId : ℕ) :
    Option StoreState :=
  if claimId ∈ s.drawnIds then none
  else
    some
      { s with
        calls := s.calls.set call ⟨fingerprint, attempt, claimId, .insert⟩
        drawnIds := claimId :: s.drawnIds }

def answerCall (s : StoreState) (call : ℕ) (fingerprint : Text) (read : Option KeyRow)
    (result : Except AppError ClaimResult) : StoreState :=
  { s with
    calls := s.calls.delete call
    answers := s.answers ++ [⟨fingerprint, read, result⟩] }

/-- The `continue` of the claim loop. -/
def retry (s : StoreState) (call : ℕ) (x : ClaimCall) (nextClaimId : ℕ) : Option StoreState :=
  if x.attempt < claimAttempts then s.attempt call x.fingerprint (x.attempt + 1) nextClaimId
  else some (s.answerCall call x.fingerprint s.row (.error (storeContention claimAttempts)))

/-- The key becomes the call's own, by an insert or by a takeover. -/
def grant (store : PostgresIdempotencyStore) (s : StoreState) (call : ℕ) (x : ClaimCall) :
    StoreState :=
  { s.answerCall call x.fingerprint s.row (.ok (.claimed x.claimId)) with
    row := some (KeyRow.claim store s.now x.claimId x.fingerprint)
    claims := s.claims ++ [⟨x.claimId, x.fingerprint, s.now⟩] }

/-- The next statement of a `claim` call and what the call does with its result. -/
def statement (store : PostgresIdempotencyStore) (s : StoreState) (call : ℕ) (x : ClaimCall)
    (nextClaimId : ℕ) : Option StoreState :=
  match x.phase, s.row with
  | .insert, none => some (s.grant store call x)
  | .insert, some _ => some (s.setCall call { x with phase := .read })
  | .read, none => s.retry call x nextClaimId
  | .read, some row =>
    if row.dead store s.now then some (s.setCall call { x with phase := .takeOver })
    else some (s.answerCall call x.fingerprint (some row) (.ok (row.answer x.fingerprint)))
  | .takeOver, none => s.retry call x nextClaimId
  | .takeOver, some row =>
    if row.dead store s.now then some (s.grant store call x)
    else s.retry call x nextClaimId

def complete (store : PostgresIdempotencyStore) (s : StoreState) (claimId : ℕ)
    (response : RecordedResponse Json) : StoreState :=
  match s.row with
  | none => s
  | some row =>
    if row.ownedBy claimId then
      { s with
        row := some (row.complete store s.now response)
        ended := claimId :: s.ended
        recorded := (claimId, response.onRecord) :: s.recorded }
    else s

def release (s : StoreState) (claimId : ℕ) : StoreState :=
  match s.row with
  | none => s
  | some row =>
    if row.ownedBy claimId then { s with row := none, ended := claimId :: s.ended } else s

/-- With the number of rows that it deletes. -/
def purgeExpired (s : StoreState) : StoreState × ℕ :=
  ({ s with row := s.row.filter (fun row => decide (s.now < row.expiresAt)) },
    s.row.toList.countP (fun row => decide (row.expiresAt ≤ s.now)))

end StoreState

def stepStore (store : PostgresIdempotencyStore) (s : StoreState) :
    StoreAction → Option StoreState
  | .claim call fingerprint claimId =>
    if s.calls.get call = none then s.attempt call fingerprint 1 claimId else none
  | .statement call now nextClaimId =>
    if s.now ≤ now then
      (s.calls.get call).bind
        (fun x => { s with now := now }.statement store call x nextClaimId)
    else none
  | .complete claimId response now =>
    if s.now ≤ now then some ({ s with now := now }.complete store claimId response) else none
  | .release claimId now =>
    if s.now ≤ now then some ({ s with now := now }.release claimId) else none
  | .purgeExpired now =>
    if s.now ≤ now then some { s with now := now }.purgeExpired.1 else none

/-- A replay carries what the claim on the row it read has recorded, and nothing else
is recorded by that claim; the request has the fingerprint of the claim. -/
def FaithfulReplay (s : StoreState) (a : ClaimAnswer) : Prop :=
  ∀ response, a.result = .ok (.replay response) →
    ∃ row, a.read = some row ∧
      (∀ r, (row.claimId, r) ∈ s.recorded ↔ r = response) ∧
      ∃ x ∈ s.claims, x.claimId = row.claimId ∧ x.fingerprint = a.fingerprint

/-- The claim ids of the calls and of the granted claims. -/
def StoreState.ids (s : StoreState) : List ℕ :=
  s.calls.entries.map (fun e => e.2.claimId) ++ s.claims.map GrantedClaim.claimId

/-- Claim ids are never drawn twice. -/
structure IdInv (s : StoreState) : Prop where
  drawn : ∀ id ∈ s.ids, id ∈ s.drawnIds
  distinct : s.ids.Nodup

/-- The row belongs to the claim granted last, and shows how far that claim has got. -/
structure RowInv (store : PostgresIdempotencyStore) (s : StoreState) (row : KeyRow) :
    Prop where
  owner : ∃ x, s.claims.getLast? = some x ∧ x.claimId = row.claimId ∧
    x.fingerprint = row.fingerprint ∧ x.claimedAt = row.claimedAt
  running : row.state = .inProgress → row.claimId ∉ s.ended
  retention : row.state = .inProgress →
    row.expiresAt = row.claimedAt + store.retentionSeconds
  recorded : ∀ status, row.responseStatus = some status →
    (row.claimId, row.toRecordedResponse status) ∈ s.recorded

structure RecordInv (store : PostgresIdempotencyStore) (s : StoreState) : Prop where
  row : ∀ row, s.row = some row → RowInv store s row
  ended : ∀ e ∈ s.recorded, e.1 ∈ s.ended
  granted : ∀ id ∈ s.ended, id ∈ s.claims.map GrantedClaim.claimId
  distinct : (s.recorded.map Prod.fst).Nodup
  replays : ∀ a ∈ s.answers, FaithfulReplay s a

/-- What a step can do, once its clock is set. -/
inductive Moves (store : PostgresIdempotencyStore) (s : StoreState) : StoreState → Prop
  /-- Calls go on or are answered; an answer on a live row is that of the row. -/
  | quiet (calls : OrderedMap ℕ ClaimCall) (answers : List ClaimAnswer)
    (hcalls : (calls.entries.map (fun e => e.2.claimId)).Subperm
      (s.calls.entries.map (fun e => e.2.claimId)))
    (hanswers : ∀ a ∈ answers, a ∈ s.answers ∨ (∃ e, a.result = .error e) ∨
      ∃ row, s.row = some row ∧ a = ⟨a.fingerprint, some row, .ok (row.answer a.fingerprint)⟩) :
    Moves store s { s with calls := calls, answers := answers }
  | drawn {t : StoreState} {call : ℕ} {fingerprint : Text} {n claimId : ℕ}
    (ht : s.attempt call fingerprint n claimId = some t) : Moves store s t
  | granted (call : ℕ) (x : ClaimCall) (hx : s.calls.get call = some x)
    (hfree : ∀ row, s.row = some row → row.dead store s.now) : Moves store s (s.grant store call x)
  | completed (row : KeyRow) (hrow : s.row = some row) (hstate : row.state = .inProgress)
    (response : RecordedResponse Json) :
    Moves store s
      { s with
        row := some (row.complete store s.now response)
        ended := row.claimId :: s.ended
        recorded := (row.claimId, response.onRecord) :: s.recorded }
  | released (row : KeyRow) (hrow : s.row = some row) :
    Moves store s { s with row := none, ended := row.claimId :: s.ended }
  | purged : Moves store s s.purgeExpired.1

variable {store : PostgresIdempotencyStore} {s t : StoreState} {call : ℕ}

lemma moves_refl : Moves store s s := .quiet s.calls s.answers (.refl _) (fun _ ha => .inl ha)

lemma moves_setCall {x} (hx : s.calls.get call = some x) (phase) :
    Moves store s (s.setCall call { x with phase := phase }) := by
  refine .quiet _ s.answers ?_ (fun _ ha => .inl ha)
  have hset := (s.calls.perm_set call { x with phase := phase }).map (fun e => e.2.claimId)
  have hget := (OrderedMap.perm_of_get hx).map (fun e => e.2.claimId)
  exact (hset.trans hget.symm).subperm

lemma moves_answerCall {result fingerprint} {read} (h : (∃ e, result = .error e) ∨
      ∃ row, s.row = some row ∧ read = some row ∧ result = .ok (row.answer fingerprint)) :
    Moves store s (s.answerCall call fingerprint read result) := by
  refine .quiet _ _ (filter_sublist.map _).subperm ?_
  intro a ha
  rcases mem_append.mp ha with hold | hnew
  · exact .inl hold
  · obtain rfl := mem_singleton.mp hnew
    rcases h with herror | ⟨row, hrow, rfl, rfl⟩
    · exact .inr (.inl herror)
    · exact .inr (.inr ⟨row, hrow, rfl⟩)

lemma moves_retry {x nextClaimId} (ht : s.retry call x nextClaimId = some t) : Moves store s t := by
  unfold StoreState.retry at ht
  split_ifs at ht
  · exact .drawn ht
  · cases ht
    exact moves_answerCall (.inl ⟨_, rfl⟩)

lemma moves_statement {x nextClaimId} (hx : s.calls.get call = some x)
    (ht : s.statement store call x nextClaimId = some t) : Moves store s t := by
  unfold StoreState.statement at ht
  split at ht
  · next hrow =>
      cases ht
      exact .granted call x hx (fun row h => by rw [hrow] at h; cases h)
  · cases ht
    exact moves_setCall hx .read
  · exact moves_retry ht
  · next row _ hrow =>
      split_ifs at ht
      · cases ht
        exact moves_setCall hx .takeOver
      · cases ht
        exact moves_answerCall (.inr ⟨row, hrow, rfl, rfl⟩)
  · exact moves_retry ht
  · next row _ hrow =>
      split_ifs at ht with hdead
      · cases ht
        refine .granted call x hx ?_
        intro row' h
        rwa [← Option.some.inj (hrow.symm.trans h)]
      · exact moves_retry ht

/-- Every step lets time pass and makes one of the moves. -/
theorem moves_of_step {a} (ht : stepStore store s a = some t) :
    ∃ now, s.now ≤ now ∧ Moves store { s with now := now } t := by
  cases a <;> simp only [stepStore] at ht
  case claim call fingerprint claimId =>
    split_ifs at ht
    exact ⟨s.now, le_rfl, .drawn ht⟩
  case statement call now nextClaimId =>
    split_ifs at ht with hnow
    obtain ⟨x, hx, ht⟩ := Option.bind_eq_some_iff.mp ht
    exact ⟨now, hnow, moves_statement hx ht⟩
  case complete claimId response now =>
    split_ifs at ht with hnow
    cases ht
    refine ⟨now, hnow, ?_⟩
    unfold StoreState.complete
    split
    · exact moves_refl
    · next row hrow =>
        split_ifs with howned
        · obtain ⟨rfl, hst⟩ := howned
          exact .completed row hrow hst response
        · exact moves_refl
  case release claimId now =>
    split_ifs at ht with hnow
    cases ht
    refine ⟨now, hnow, ?_⟩
    unfold StoreState.release
    split
    · exact moves_refl
    · next row hrow =>
        split_ifs with howned
        · obtain ⟨rfl, _⟩ := howned
          exact .released row hrow
        · exact moves_refl
  case purgeExpired now =>
    split_ifs at ht with hnow
    cases ht
    exact ⟨now, hnow, .purged⟩

lemma idInv_attempt {fingerprint n claimId} (h : IdInv s)
    (ht : s.attempt call fingerprint n claimId = some t) : IdInv t := by
  unfold StoreState.attempt at ht
  split_ifs at ht with hdrawn
  cases ht
  have hrest : (((s.calls.delete call).entries.map (fun e => e.2.claimId)) ++
      s.claims.map GrantedClaim.claimId).Sublist s.ids := (filter_sublist.map _).append_right _
  have hperm := ((s.calls.perm_set call ⟨fingerprint, n, claimId, .insert⟩).map
    (fun e => e.2.claimId)).append_right (s.claims.map GrantedClaim.claimId)
  constructor
  · intro id hid
    rcases mem_cons.mp (hperm.subset hid) with hid | hid
    · exact hid ▸ mem_cons_self
    · exact mem_cons_of_mem _ (h.drawn id (hrest.subset hid))
  · refine hperm.nodup_iff.mpr (nodup_cons.mpr ⟨?_, h.distinct.sublist hrest⟩)
    exact fun hid => hdrawn (h.drawn _ (hrest.subset hid))

lemma idInv_of_subperm (h : IdInv s) (hids : t.ids.Subperm s.ids)
    (hdrawn : t.drawnIds = s.drawnIds) : IdInv t := by
  obtain ⟨ids, hperm, hsub⟩ := hids
  constructor
  · exact fun id hid => hdrawn ▸ h.drawn id (hsub.subset (hperm.symm.subset hid))
  · exact hperm.nodup_iff.mp (h.distinct.sublist hsub)

variable {x : ClaimCall}

/-- A grant moves the id from the calls to the claims. -/
lemma idInv_grant (h : IdInv s)
    (hx : s.calls.get call = some x) : IdInv (s.grant store call x) := by
  refine idInv_of_subperm h ?_ rfl
  have hperm := ((OrderedMap.perm_of_get hx).map (fun e => e.2.claimId)).append_right
    (s.claims.map GrantedClaim.claimId)
  refine (List.Perm.trans ?_ hperm.symm).subperm
  simp only [StoreState.ids, StoreState.grant, map_append, ← append_assoc]
  exact perm_append_singleton _ _

variable {row : KeyRow}

lemma rowInv_owner_mem (h : RowInv store s row) :
    ∃ x ∈ s.claims, x.claimId = row.claimId ∧ x.fingerprint = row.fingerprint ∧
      x.claimedAt = row.claimedAt := by
  obtain ⟨x, hlast, hx⟩ := h.owner
  exact ⟨x, mem_of_getLast? hlast, hx⟩

/-- A replay stays faithful while claims are added and no claim that has recorded a
response records another. -/
lemma faithfulReplay_mono {a} (h : FaithfulReplay s a) (hclaims : ∀ x ∈ s.claims, x ∈ t.claims)
    (hrecd : ∀ id r, (id, r) ∈ s.recorded →
      ∀ r', (id, r') ∈ t.recorded ↔ (id, r') ∈ s.recorded) : FaithfulReplay t a := by
  intro response hres
  obtain ⟨row, hread, honly, x, hx, howner⟩ := h response hres
  refine ⟨row, hread, ?_, x, hclaims x hx, howner⟩
  intro r
  rw [hrecd row.claimId response ((honly response).mpr rfl) r]
  exact honly r

/-- A step that leaves the row and the records alone and answers no wrong replay. -/
lemma recordInv_of_answers (h : RecordInv store s) (now : ℚ) (calls : OrderedMap ℕ ClaimCall)
    (drawnIds : List ℕ) {answers}
    (hanss : ∀ a ∈ answers, a ∈ s.answers ∨ FaithfulReplay s a) :
    RecordInv store
      { s with now := now, calls := calls, drawnIds := drawnIds, answers := answers } where
  row row hrow := { h.row row hrow with }
  ended := h.ended
  granted := h.granted
  distinct := h.distinct
  replays a ha := (hanss a ha).elim (h.replays a) id

lemma recorded_unique {r r'} (h : RecordInv store s) {id} (hr : (id, r) ∈ s.recorded)
    (hr' : (id, r') ∈ s.recorded) : r' = r := by
  have hpair := inj_on_of_nodup_map h.distinct hr' hr rfl
  exact (Prod.mk.inj hpair).2

lemma faithfulReplay_answer (h : RecordInv store s) (hrow : s.row = some row) (fingerprint) :
    FaithfulReplay s ⟨fingerprint, some row, .ok (row.answer fingerprint)⟩ := by
  intro response hres
  have hans : row.answer fingerprint = .replay response := by simpa using hres
  unfold KeyRow.answer at hans
  split_ifs at hans with hfin
  have hinv := h.row row hrow
  obtain ⟨x, hx, hid, hfp, _⟩ := rowInv_owner_mem hinv
  split at hans
  · next status hst hstat =>
      have hresp : row.toRecordedResponse status = response := by simpa using hans
      have hrec := hinv.recorded status hstat
      rw [hresp] at hrec
      refine ⟨row, rfl, ?_, x, hx, hid, hfp.trans hfin⟩
      intro r
      constructor
      · exact fun hr => recorded_unique h hrec hr
      · intro hr
        rw [hr]
        exact hrec
  · cases hans

lemma recordInv_grant (hid : IdInv s) (h : RecordInv store s) (hx : s.calls.get call = some x) :
    RecordInv store (s.grant store call x) := by
  constructor
  · intro row hrow
    have hrow : KeyRow.claim store s.now x.claimId x.fingerprint = row := by
      simpa [StoreState.grant] using hrow
    subst hrow
    refine ⟨⟨⟨x.claimId, x.fingerprint, s.now⟩, ?_, rfl, rfl, rfl⟩, ?_, fun _ => rfl, ?_⟩
    · exact getLast?_concat ..
    · intro _ hended
      have hcall : x.claimId ∈ s.calls.entries.map (fun e => e.2.claimId) :=
        mem_map.mpr ⟨_, (s.calls.get_eq_some call x).mp hx, rfl⟩
      exact disjoint_of_nodup_append hid.distinct hcall (h.granted _ hended)
    · intro status hstat
      cases hstat
  · exact h.ended
  · intro id hid
    rw [StoreState.grant, map_append]
    exact mem_append_left _ (h.granted id hid)
  · exact h.distinct
  · intro a ha
    rcases mem_append.mp ha with hold | hnew
    · exact faithfulReplay_mono (h.replays a hold) (fun y hy => mem_append_left _ hy)
        (fun _ _ _ _ => Iff.rfl)
    · rw [mem_singleton.mp hnew]
      exact nofun

lemma complete_toRecordedResponse (store now response) (row : KeyRow) :
    (row.complete store now response).toRecordedResponse response.status = response.onRecord := by
  unfold KeyRow.toRecordedResponse RecordedResponse.onRecord
  by_cases hbody : response.hasBody
  · simp [KeyRow.complete, hbody]
  · simp [KeyRow.complete, hbody]

structure StoreInv (store : PostgresIdempotencyStore) (s : StoreState) : Prop where
  ids : IdInv s
  records : RecordInv store s

lemma granted_ended (h : RecordInv store s) (hrow : s.row = some row) :
    ∀ id ∈ row.claimId :: s.ended, id ∈ s.claims.map GrantedClaim.claimId := by
  obtain ⟨x, hx, hid, _⟩ := rowInv_owner_mem (h.row row hrow)
  exact forall_mem_cons.mpr ⟨mem_map.mpr ⟨x, hx, hid⟩, h.granted⟩

/-- The claim on an unfinished row records its response, which is its first. -/
lemma recordInv_complete (h : RecordInv store s) (hrow : s.row = some row)
    (hst : row.state = .inProgress) (response) :
    RecordInv store
      { s with
        row := some (row.complete store s.now response)
        ended := row.claimId :: s.ended
        recorded := (row.claimId, response.onRecord) :: s.recorded } := by
  have hinv := h.row row hrow
  have hnew : ∀ r, (row.claimId, r) ∉ s.recorded := by
    intro r hr
    exact hinv.running hst (h.ended _ hr)
  constructor
  · intro row' hrow'
    have hrow' : row.complete store s.now response = row' := by simpa using hrow'
    subst hrow'
    refine ⟨hinv.owner, ?_, ?_, ?_⟩
    · intro hrun
      cases hrun
    · intro hrun
      cases hrun
    · intro status hstat
      have hstat : response.status = status := by simpa [KeyRow.complete] using hstat
      rw [← hstat, complete_toRecordedResponse]
      exact mem_cons_self
  · intro e he
    rcases mem_cons.mp he with he | he
    · rw [he]
      exact mem_cons_self
    · exact mem_cons_of_mem _ (h.ended e he)
  · exact granted_ended h hrow
  · rw [map_cons, nodup_cons]
    refine ⟨?_, h.distinct⟩
    intro hmem
    obtain ⟨e, he, heq⟩ := mem_map.mp hmem
    have heq : e.1 = row.claimId := heq
    exact hnew e.2 (by rw [← heq]; exact he)
  · intro a ha
    refine faithfulReplay_mono (h.replays a ha) (fun y hy => hy) ?_
    intro id r hr r'
    have hne : id ≠ row.claimId := fun heq => hnew r (heq ▸ hr)
    simp [hne]

lemma storeInv_moves (h : StoreInv store s) (hmoves : Moves store s t) : StoreInv store t := by
  cases hmoves with
  | quiet calls answers hcalls hanss =>
    refine ⟨idInv_of_subperm h.ids (hcalls.append (.refl _)) rfl,
      recordInv_of_answers h.records s.now calls s.drawnIds ?_⟩
    intro a ha
    rcases hanss a ha with hold | ⟨e, he⟩ | ⟨row, hrow, hans⟩
    · exact .inl hold
    · refine .inr fun response hresp => ?_
      rw [he] at hresp
      cases hresp
    · rw [hans]
      exact .inr (faithfulReplay_answer h.records hrow a.fingerprint)
  | drawn ht =>
    refine ⟨idInv_attempt h.ids ht, ?_⟩
    unfold StoreState.attempt at ht
    split_ifs at ht
    cases ht
    exact recordInv_of_answers h.records _ _ _ (fun a ha => .inl ha)
  | granted call x hx _ => exact ⟨idInv_grant h.ids hx, recordInv_grant h.ids h.records hx⟩
  | completed row hrow hst response =>
    exact ⟨{ h.ids with }, recordInv_complete h.records hrow hst response⟩
  | released row hrow =>
    exact ⟨{ h.ids with },
      { h.records with
        row := nofun
        ended := fun e he => mem_cons_of_mem _ (h.records.ended e he)
        granted := granted_ended h.records hrow }⟩
  | purged =>
    refine ⟨{ h.ids with }, { h.records with row := ?_ }⟩
    intro row hrow
    exact { h.records.row row (Option.filter_eq_some_iff.mp hrow).1 with }

lemma storeInv_advance (h : StoreInv store s) (now) : StoreInv store { s with now := now } :=
  ⟨{ h.ids with }, recordInv_of_answers h.records now s.calls s.drawnIds (fun _ ha => .inl ha)⟩

lemma storeInv_empty (store) : StoreInv store StoreState.empty := by
  constructor
  · constructor <;> simp [StoreState.ids, StoreState.empty, OrderedMap.empty]
  · constructor <;> simp [StoreState.empty]

end BoilerplateExpress.Idempotency

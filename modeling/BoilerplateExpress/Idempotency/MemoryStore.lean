import BoilerplateExpress.Idempotency.PostgresStore

/-!
# The in-process store, and the Postgres store as one that decides at once

`MemoryIdempotencyStore` (`idempotency/memory.store.ts`) on one `(scope, key)`: the record, if
there is one. Each call is one step. A `claim` of the Postgres store takes several statements,
between which other calls run; the last one decides it. The in-process store, called in the
order of these statements, gives the same answers. The database holds JSON, so a body that
is `undefined` comes back from it as `null`.
-/
namespace BoilerplateExpress.Idempotency

structure StoredRecord where
  claimId : ℕ
  fingerprint : Text
  state : IdempotencyState
  response : Option (RecordedResponse Json)
  claimedAt : ℚ
  expiresAt : ℚ

/-- A call, with the claim id that `randomUUID` would draw for it. -/
inductive StoreCall where
  | claim (fingerprint : Text) (claimId : ℕ)
  | complete (claimId : ℕ) (response : RecordedResponse Json)
  | release (claimId : ℕ)
  | purgeExpired

inductive StoreAnswer where
  | claim (result : ClaimResult)
  | owned (held : Bool)
  | purged (count : ℕ)

namespace MemoryIdempotencyStore

variable (options : StoreOptions) (now : ℚ) (existing : Option StoredRecord)

def isDead (record : StoredRecord) : Bool :=
  record.expiresAt ≤ now || (record.state = .inProgress && record.claimedAt + options.leaseMs ≤ now)

def claim (fingerprint : Text) (claimId : ℕ) : Option StoredRecord × ClaimResult :=
  match existing.filter (fun record => !isDead options now record) with
  | none =>
    (some ⟨claimId, fingerprint, .inProgress, none, now, now + options.retentionMs⟩,
      .claimed claimId)
  | some record =>
    (existing,
      if record.fingerprint ≠ fingerprint then .mismatch
      else
        match record.state, record.response with
        | .completed, some response => .replay response
        | _, _ => .inProgress)

def ownedRecord (claimId : ℕ) : Option StoredRecord :=
  existing.filter (fun record => record.claimId = claimId && record.state = .inProgress)

def complete (claimId : ℕ) (response : RecordedResponse Json) : Option StoredRecord × Bool :=
  match ownedRecord existing claimId with
  | none => (existing, false)
  | some record =>
    (some { record with
      state := .completed
      response := some response
      expiresAt := now + options.retentionMs }, true)

def release (claimId : ℕ) : Option StoredRecord × Bool :=
  match ownedRecord existing claimId with
  | none => (existing, false)
  | some _ => (none, true)

def purgeExpired : Option StoredRecord × ℕ :=
  (existing.filter (fun record => now < record.expiresAt),
    existing.toList.countP (fun record => record.expiresAt ≤ now))

def serve : ℚ × StoreCall → Option StoredRecord × StoreAnswer
  | (now, .claim fingerprint claimId) =>
    (claim options now existing fingerprint claimId).map id .claim
  | (now, .complete claimId response) =>
    (complete options now existing claimId response).map id .owned
  | (_, .release claimId) => (release existing claimId).map id .owned
  | (now, .purgeExpired) => (purgeExpired now existing).map id .purged

/-- The answers to calls that are made one after another. -/
def answers : Option StoredRecord → List (ℚ × StoreCall) → List StoreAnswer
  | _, [] => []
  | existing, c :: rest =>
    (serve options existing c).2 :: answers (serve options existing c).1 rest

end MemoryIdempotencyStore

/-- A replay as it comes back out of the database. -/
@[simp] def StoreAnswer.onRecord : StoreAnswer → StoreAnswer
  | .claim (.replay response) => .claim (.replay response.onRecord)
  | answer => answer

/-- The result of the `claim` that a step from `s` to `t` answers, unless it gives up. -/
def newResult (s t : StoreState) : Option ClaimResult :=
  t.answers[s.answers.length]?.bind (·.result.toOption)

/-- The call that a step decides, with its time in milliseconds and its answer. -/
def decided (s t : StoreState) : StoreAction → Option ((ℚ × StoreCall) × StoreAnswer)
  | .claim _ _ _ => none
  | .statement call now _ => do
    let x ← s.calls.get call
    let result ← newResult s t
    return ((1000 * now, .claim x.fingerprint x.claimId), .claim result)
  | .complete claimId response now =>
    some ((1000 * now, .complete claimId response), .owned (s.row.any (·.ownedBy claimId)))
  | .release claimId now =>
    some ((1000 * now, .release claimId), .owned (s.row.any (·.ownedBy claimId)))
  | .purgeExpired now =>
    some ((1000 * now, .purgeExpired), .purged { s with now := now }.purgeExpired.2)

/-- What the statements of a run decide, in their order. -/
def history (store : PostgresIdempotencyStore) :
    StoreState → List StoreAction → List ((ℚ × StoreCall) × StoreAnswer)
  | _, [] => []
  | s, action :: rest =>
    match stepStore store s action with
    | none => []
    | some t => (decided s t action).toList ++ history store t rest

/-- The settings as the Postgres store keeps them. -/
def StoreOptions.inSeconds (options : StoreOptions) : PostgresIdempotencyStore :=
  ⟨options.retentionMs / 1000, options.leaseMs / 1000⟩

/-- A row and the record of the same claim. -/
structure Mirrors (row : KeyRow) (record : StoredRecord) : Prop where
  claimId : record.claimId = row.claimId
  fingerprint : record.fingerprint = row.fingerprint
  state : record.state = row.state
  response : record.response.map RecordedResponse.onRecord =
    row.responseStatus.map row.toRecordedResponse
  claimedAt : record.claimedAt = 1000 * row.claimedAt
  expiresAt : record.expiresAt = 1000 * row.expiresAt

section

open MemoryIdempotencyStore
open StoreState (answerCall grant setCall)

variable {options : StoreOptions} {s t : StoreState} {row : KeyRow} {record : StoredRecord}
  {existing : Option StoredRecord} {x : ClaimCall}

lemma Mirrors.dead (h : Mirrors row record) (now) :
    isDead options (1000 * now) record = decide (row.dead options.inSeconds now) := by
  have hlease : 1000 * row.claimedAt + options.leaseMs =
      1000 * (row.claimedAt + options.leaseMs / 1000) := by ring
  rw [Bool.eq_iff_iff, decide_eq_true_iff]
  simp [isDead, KeyRow.dead, KeyRow.expired, KeyRow.stale, h.expiresAt,
    h.state, h.claimedAt, hlease, StoreOptions.inSeconds]

lemma Mirrors.owned (h : Mirrors row record) (claimId) :
    ownedRecord (some record) claimId = if row.ownedBy claimId then some record else none := by
  rw [ownedRecord, Option.filter_some, h.claimId, h.state]
  exact if_congr (by simp [KeyRow.ownedBy]) rfl rfl

/-- The step from `s` to `t` decides a `claim` as the in-process store does. -/
def DecidesAlike (options : StoreOptions) (existing : Option StoredRecord) (s t : StoreState)
    (x : ClaimCall) : Prop :=
  let c := claim options (1000 * s.now) existing x.fingerprint x.claimId
  (newResult s t).map .claim = some (StoreAnswer.claim c.2).onRecord ∧ Option.Rel Mirrors t.row c.1

lemma grant_decides (h : Option.Rel Mirrors s.row existing)
    (hfree : ∀ row, s.row = some row → row.dead options.inSeconds s.now) (call x) :
    DecidesAlike options existing s (s.grant options.inSeconds call x) x := by
  have hnone : existing.filter (fun record => !isDead options (1000 * s.now) record) = none := by
    generalize s.row = row at h hfree
    cases h with
    | none => rfl
    | some hrow => simp [hrow.dead, hfree _ rfl]
  simp only [DecidesAlike, claim, hnone]
  refine ⟨?_, .some ⟨rfl, rfl, rfl, rfl, rfl, ?_⟩⟩
  · simp [newResult, grant, answerCall, Except.toOption]
  · simp only [KeyRow.claim, StoreOptions.inSeconds]
    ring

lemma answer_decides (hrow : s.row = some row) (hrec : Mirrors row record)
    (hlive : ¬ row.dead options.inSeconds s.now) (call x) :
    DecidesAlike options (some record) s
      (s.answerCall call x.fingerprint (some row) (.ok (row.answer x.fingerprint))) x := by
  have hkept : (some record).filter (fun record => !isDead options (1000 * s.now) record) =
      some record := by simp [hrec.dead, hlive]
  have hst := row.completed_has_status
  have hresp := hrec.response
  simp only [DecidesAlike, claim, hkept, newResult, answerCall, KeyRow.answer,
    hrec.fingerprint, hrec.state]
  refine ⟨?_, hrow ▸ .some hrec⟩
  by_cases hf : row.fingerprint = x.fingerprint
  · cases hstate : row.state <;> cases hstatus : row.responseStatus <;>
      cases hre : record.response <;> simp_all [Except.toOption]
  · simp [hf, Except.toOption]

lemma retry_quiet {call nextClaimId} (ht : s.retry call x nextClaimId = some t) :
    t.row = s.row ∧ newResult s t = none := by
  unfold StoreState.retry StoreState.attempt at ht
  split_ifs at ht <;> cases ht
  · simp [newResult]
  · simp [newResult, answerCall, Except.toOption]

lemma statement_spec {call nextClaimId} (h : Option.Rel Mirrors s.row existing)
    (ht : s.statement options.inSeconds call x nextClaimId = some t) :
    (t.row = s.row ∧ newResult s t = none) ∨ DecidesAlike options existing s t x := by
  unfold StoreState.statement at ht
  split at ht
  · next hrow =>
    cases ht
    exact .inr (grant_decides h (by simp [hrow]) call x)
  · cases ht
    exact .inl (by simp [newResult, setCall])
  · exact .inl (retry_quiet ht)
  · next row _ hrow =>
    split_ifs at ht with hdead <;> cases ht
    · exact .inl (by simp [newResult, setCall])
    · obtain ⟨hrec⟩ := hrow ▸ h
      exact .inr (answer_decides hrow hrec hdead call x)
  · exact .inl (retry_quiet ht)
  · next row _ hrow =>
    split_ifs at ht with hdead
    · cases ht
      exact .inr (grant_decides h (by simp [hrow, hdead]) call x)
    · exact .inl (retry_quiet ht)

/-- A step decides nothing and leaves the row, or decides one call as the in-process store does. -/
lemma decided_spec {action} (h : Option.Rel Mirrors s.row existing)
    (ht : stepStore options.inSeconds s action = some t) :
    (decided s t action = none ∧ t.row = s.row) ∨
      ∃ c, decided s t action = some (c, (serve options existing c).2.onRecord) ∧
        Option.Rel Mirrors t.row (serve options existing c).1 := by
  cases action with
  | claim call fingerprint claimId =>
    simp only [stepStore, StoreState.attempt] at ht
    split_ifs at ht
    cases ht
    exact .inl ⟨rfl, rfl⟩
  | statement call now nextClaimId =>
    simp only [stepStore] at ht
    split_ifs at ht
    obtain ⟨x, hx, ht⟩ := Option.bind_eq_some_iff.mp ht
    have hnow : Option.Rel Mirrors { s with now := now }.row existing := h
    have hdec : decided s t (.statement call now nextClaimId) = ((newResult s t).map .claim).map
        ((1000 * now, .claim x.fingerprint x.claimId), ·) := by
      rw [decided, hx]
      cases newResult s t <;> rfl
    rcases statement_spec hnow ht with ⟨hrow, hnone⟩ | ⟨hans, hrel⟩
    · exact .inl ⟨hdec.trans (congrArg _ (congrArg _ hnone)), hrow⟩
    · exact .inr ⟨_, hdec.trans (congrArg _ hans), hrel⟩
  | complete claimId response now =>
    simp only [stepStore] at ht
    split_ifs at ht
    cases ht
    refine .inr ⟨(1000 * now, .complete claimId response), ?_⟩
    obtain ⟨_, row, _⟩ := s
    cases h with
    | none => exact ⟨rfl, .none⟩
    | @some row record hrow =>
      simp only [decided, serve, complete, StoreState.complete, hrow.owned]
      by_cases howned : row.ownedBy claimId
      · simp only [if_pos howned]
        refine ⟨by simp [howned], .some ⟨hrow.claimId, hrow.fingerprint, rfl,
          ?_, hrow.claimedAt, ?_⟩⟩
        · cases hbody : response.hasBody <;>
            simp [KeyRow.complete, KeyRow.toRecordedResponse, RecordedResponse.onRecord, hbody]
        · simp only [KeyRow.complete, StoreOptions.inSeconds]
          ring
      · simpa [howned] using hrow
  | release claimId now =>
    simp only [stepStore] at ht
    split_ifs at ht
    cases ht
    refine .inr ⟨(1000 * now, .release claimId), ?_⟩
    obtain ⟨_, row, _⟩ := s
    cases h with
    | none => exact ⟨rfl, .none⟩
    | @some row record hrow =>
      simp only [decided, serve, release, StoreState.release, hrow.owned]
      by_cases howned : row.ownedBy claimId
      · simp [howned]
      · simpa [howned] using hrow
  | purgeExpired now =>
    simp only [stepStore] at ht
    split_ifs at ht
    cases ht
    refine .inr ⟨(1000 * now, .purgeExpired), ?_⟩
    obtain ⟨_, row, _⟩ := s
    cases h with
    | none => exact ⟨rfl, .none⟩
    | @some row record hrow =>
      simp only [decided, serve, purgeExpired, StoreState.purgeExpired, Option.filter_some]
      by_cases hlive : now < row.expiresAt
      · simpa [hrow.expiresAt, hlive, not_le.mpr hlive] using hrow
      · simp [hrow.expiresAt, hlive, not_lt.mp hlive]

lemma answers_history (h : Option.Rel Mirrors s.row existing) (actions) :
    let decisions := history options.inSeconds s actions
    (answers options existing (decisions.map Prod.fst)).map StoreAnswer.onRecord =
      decisions.map Prod.snd := by
  induction actions generalizing s existing with
  | nil => rfl
  | cons action rest ih =>
    unfold history
    cases ht : stepStore options.inSeconds s action with
    | none => rfl
    | some t =>
      rcases decided_spec h ht with ⟨hnone, hrow⟩ | ⟨c, hdec, hrel⟩
      · simpa [hnone] using ih (hrow ▸ h)
      · simpa [hdec, answers] using ih hrel

/-- However the statements of the Postgres store interleave, its answers are those of the
in-process store on the same calls, made one at a time in the order of the deciding statements. -/
theorem postgres_answers_as_memory (options : StoreOptions) (actions : List StoreAction) :
    let decisions := history options.inSeconds StoreState.empty actions
    (answers options none (decisions.map Prod.fst)).map StoreAnswer.onRecord =
      decisions.map Prod.snd := answers_history .none actions

end

end BoilerplateExpress.Idempotency

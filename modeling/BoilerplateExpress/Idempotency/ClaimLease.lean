import BoilerplateExpress.Idempotency.PostgresStore

/-!
# Leases of idempotency claims

What the Postgres store promises of its claims in every run: no two leases run at the
same time, a superseded claim changes nothing, and a replay carries the recorded
response. Only the first depends on the options. An unfinished row expires with its
retention as well as with its lease, so the lease has to fit into the retention.
-/
namespace BoilerplateExpress.Idempotency

open List

/-- The lease of a claim is running: it has neither ended nor run out. -/
def LeaseRuns (store : PostgresIdempotencyStore) (s : StoreState) (x : GrantedClaim) : Prop :=
  x.claimId ∉ s.ended ∧ s.now < x.claimedAt + store.leaseSeconds

/-- Another claim was granted after this one. -/
def Superseded (s : StoreState) (claimId : ℕ) : Prop :=
  ∃ x ∈ s.claims.dropLast, x.claimId = claimId

/-- What the store promises in a state. -/
structure ClaimsExclude (store : PostgresIdempotencyStore) (s : StoreState) : Prop where
  leases : s.claims.Pairwise (fun x y => ¬ (LeaseRuns store s x ∧ LeaseRuns store s y))
  complete_superseded : ∀ claimId response now t, Superseded s claimId →
    stepStore store s (.complete claimId response now) = some t → t = { s with now := now }
  release_superseded : ∀ claimId now t, Superseded s claimId →
    stepStore store s (.release claimId now) = some t → t = { s with now := now }
  replays : ∀ a ∈ s.answers, FaithfulReplay s a

/-- A claim whose lease runs owns the row. -/
def LeaseOwns (store : PostgresIdempotencyStore) (s : StoreState) : Prop :=
  ∀ x ∈ s.claims, LeaseRuns store s x → ∃ row, s.row = some row ∧ row.claimId = x.claimId

variable {store : PostgresIdempotencyStore} {s : StoreState} {row : KeyRow}

lemma rowInv_ended (h : RecordInv store s) (hrow : s.row = some row)
    (hst : row.state = .completed) : row.claimId ∈ s.ended := by
  obtain ⟨status, hstat⟩ := Option.isSome_iff_exists.mp (row.completed_has_status.mp hst)
  exact h.ended _ ((h.row row hrow).recorded status hstat)

lemma claimIds_nodup (h : IdInv s) : (s.claims.map GrantedClaim.claimId).Nodup :=
  h.distinct.of_append_right

/-- If the lease fits into the retention, no lease runs over a row that may be taken
over: an unfinished row expires no sooner than its lease does. -/
lemma not_leaseRuns_of_dead (hle : store.leaseSeconds ≤ store.retentionSeconds)
    (h : StoreInv store s) (howns : LeaseOwns store s) (hrow : s.row = some row)
    (hdead : row.dead store s.now) (x) (hx : x ∈ s.claims) : ¬ LeaseRuns store s x := by
  intro hruns
  obtain ⟨row', hrow', hid⟩ := howns x hx hruns
  have hrows : row' = row := Option.some.inj (hrow'.symm.trans hrow)
  subst hrows
  have hinv := h.records.row row' hrow
  obtain ⟨y, hy, hyid, _, hat⟩ := rowInv_owner_mem hinv
  have hxy : y = x := inj_on_of_nodup_map (claimIds_nodup h.ids) hy hx (hyid.trans hid)
  subst hxy
  obtain ⟨hopen, hlease⟩ := hruns
  cases hst : row'.state with
  | inProgress =>
    have hexpir := hinv.retention hst
    rcases hdead with hexp | ⟨_, hstale⟩
    · unfold KeyRow.expired at hexp
      linarith
    · linarith
  | completed => exact hopen (hid ▸ rowInv_ended h.records hrow hst)

variable {t : StoreState}

lemma leaseOwns_moves (hle : store.leaseSeconds ≤ store.retentionSeconds) (hinv : StoreInv store s)
    (h : LeaseOwns store s) (hmoves : Moves store s t) : LeaseOwns store t := by
  -- the claim on the row ends: a lease that still runs is another one, which owns the row too
  have hended : ∀ row, s.row = some row → ∀ x ∈ s.claims,
      LeaseRuns store { s with ended := row.claimId :: s.ended } x → False := by
    intro row hrow x hx hruns
    obtain ⟨row', hrow', hid⟩ := h x hx ⟨fun hmem => hruns.1 (mem_cons_of_mem _ hmem), hruns.2⟩
    obtain rfl : row' = row := Option.some.inj (hrow'.symm.trans hrow)
    exact hruns.1 (hid ▸ mem_cons_self)
  cases hmoves with
  | quiet calls answers _ _ => exact h
  | drawn ht =>
    unfold StoreState.attempt at ht
    split_ifs at ht
    cases ht
    exact h
  | granted call x _ hfree =>
    intro y hy hruns
    rcases mem_append.mp hy with hy | hy
    · obtain ⟨row, hrow, _⟩ := h y hy hruns
      exact absurd hruns (not_leaseRuns_of_dead hle hinv h hrow (hfree row hrow) y hy)
    · rw [mem_singleton.mp hy]
      exact ⟨_, rfl, rfl⟩
  | completed row hrow _ response => exact fun x hx hruns => (hended row hrow x hx hruns).elim
  | released row hrow => exact fun x hx hruns => (hended row hrow x hx hruns).elim
  | purged =>
    intro x hx hruns
    obtain ⟨row, hrow, hid⟩ := h x hx hruns
    refine ⟨row, Option.filter_eq_some_iff.mpr ⟨hrow, ?_⟩, hid⟩
    by_contra hexp
    have hexp : row.expiresAt ≤ s.now := by simpa using hexp
    exact not_leaseRuns_of_dead hle hinv h hrow (.inl hexp) x hx hruns

lemma leaseOwns_advance {now} (h : LeaseOwns store s) (hnow : s.now ≤ now) :
    LeaseOwns store { s with now := now } :=
  fun x hx hruns => h x hx ⟨hruns.1, lt_of_le_of_lt hnow hruns.2⟩

variable {now : ℚ} {claimId : ℕ}

lemma leases_exclude (hinv : StoreInv store s) (h : LeaseOwns store s) :
    s.claims.Pairwise (fun x y => ¬ (LeaseRuns store s x ∧ LeaseRuns store s y)) := by
  apply (pairwise_map.mp (claimIds_nodup hinv.ids)).imp_of_mem
  rintro x y hx hy hne ⟨hrunsx, hrunsy⟩
  obtain ⟨row, hrow, hid⟩ := h x hx hrunsx
  obtain ⟨row', hrow', hid'⟩ := h y hy hrunsy
  have hrows : row = row' := Option.some.inj (hrow.symm.trans hrow')
  exact hne (by rw [← hid, hrows, hid'])

lemma not_ownedBy_of_superseded (h : StoreInv store s) (hrow : s.row = some row)
    (hsup : Superseded s claimId) : ¬ row.ownedBy claimId := by
  intro howned
  obtain ⟨x, hlast, hid, _⟩ := (h.records.row row hrow).owner
  obtain ⟨y, hy, hyid⟩ := hsup
  have hsplit : s.claims = s.claims.dropLast ++ [x] := (dropLast_append_getLast? x hlast).symm
  have hdist := pairwise_map.mp (claimIds_nodup h.ids)
  rw [hsplit] at hdist
  have hne := (pairwise_append.mp hdist).2.2 y hy x (mem_singleton.mpr rfl)
  exact hne (by rw [hyid, hid, howned.1])

lemma complete_of_superseded {response} (h : StoreInv store s) (hsup : Superseded s claimId)
    (ht : stepStore store s (.complete claimId response now) = some t) :
    t = { s with now := now } := by
  simp only [stepStore] at ht
  split_ifs at ht
  cases ht
  unfold StoreState.complete
  cases hrow : s.row with
  | none => rfl
  | some row => simp [not_ownedBy_of_superseded h hrow hsup]

lemma release_of_superseded (h : StoreInv store s) (hsup : Superseded s claimId)
    (ht : stepStore store s (.release claimId now) = some t) : t = { s with now := now } := by
  simp only [stepStore] at ht
  split_ifs at ht
  cases ht
  unfold StoreState.release
  cases hrow : s.row with
  | none => rfl
  | some row => simp [not_ownedBy_of_superseded h hrow hsup]

/-- A second request that arrives when the row of the first has just expired. -/
def overlappingRun (retentionSeconds : ℚ) : List StoreAction :=
  [.claim 0 ['f'] 0, .statement 0 0 0, .claim 1 ['f'] 1, .statement 1 retentionSeconds 1,
    .statement 1 retentionSeconds 1, .statement 1 retentionSeconds 1]

lemma overlappingRun_claims (hpos : 0 < store.retentionSeconds) :
    ∃ s, Machine.exec (stepStore store) .empty (overlappingRun store.retentionSeconds) = some s ∧
      s.claims = [⟨0, ['f'], 0⟩, ⟨1, ['f'], store.retentionSeconds⟩] ∧ s.ended = [] ∧
      s.now = store.retentionSeconds := by
  have hle : (0 : ℚ) ≤ store.retentionSeconds := le_of_lt hpos
  simp [overlappingRun, Machine.exec, stepStore, StoreState.empty, StoreState.attempt,
    StoreState.statement, StoreState.grant, StoreState.answerCall, StoreState.setCall,
    KeyRow.claim, KeyRow.dead, KeyRow.expired, hle]

lemma overlappingRun_overlaps (store) (hpos : 0 < store.retentionSeconds)
    (hlt : store.retentionSeconds < store.leaseSeconds) :
    ∃ s, Machine.exec (stepStore store) .empty (overlappingRun store.retentionSeconds) = some s ∧
      ¬ s.claims.Pairwise (fun x y => ¬ (LeaseRuns store s x ∧ LeaseRuns store s y)) := by
  obtain ⟨s, hexec, hclaims, hended, hnow⟩ := overlappingRun_claims hpos
  refine ⟨s, hexec, ?_⟩
  intro hpair
  rw [hclaims] at hpair
  have hnot := (pairwise_cons.mp hpair).1 _ (mem_singleton.mpr rfl)
  apply hnot
  constructor
  · refine ⟨by simp [hended], ?_⟩
    linarith
  · refine ⟨by simp [hended], ?_⟩
    linarith

lemma assertPositive_ok {name value} (h : assertPositive name value = .ok ()) : 0 < value := by
  unfold assertPositive at h
  split_ifs at h with hle
  exact not_le.mp hle

lemma create_ok {options} (h : PostgresIdempotencyStore.create options = .ok store) :
    0 < options.retentionMs ∧ 0 < options.leaseMs ∧
      store = ⟨options.retentionMs / 1000, options.leaseMs / 1000⟩ := by
  obtain ⟨_, hret, h⟩ := bind_eq_ok h
  obtain ⟨_, hlease, h⟩ := bind_eq_ok h
  cases h
  exact ⟨assertPositive_ok hret, assertPositive_ok hlease, rfl⟩

lemma claimsExclude_of_le {as} (hle : store.leaseSeconds ≤ store.retentionSeconds)
    (hexec : Machine.exec (stepStore store) .empty as = some s) : ClaimsExclude store s := by
  have hboth : StoreInv store s ∧ LeaseOwns store s := by
    apply Machine.exec_invariant (fun s => StoreInv store s ∧ LeaseOwns store s) ?_ ?_ hexec
    · intro u a v hu hv
      obtain ⟨now, hnow, hmoves⟩ := moves_of_step hv
      have hinv := storeInv_advance hu.1 now
      have howns := leaseOwns_advance hu.2 hnow
      exact ⟨storeInv_moves hinv hmoves, leaseOwns_moves hle hinv howns hmoves⟩
    · refine ⟨storeInv_empty store, ?_⟩
      intro x hx
      cases hx
  obtain ⟨hinv, howns⟩ := hboth
  constructor
  · exact leases_exclude hinv howns
  · exact fun claimId response now t hsup ht => complete_of_superseded hinv hsup ht
  · exact fun claimId now t hsup ht => release_of_superseded hinv hsup ht
  · exact hinv.records.replays

/-- In every state of every run of a store, the claims exclude each other, superseded
claims change nothing and replays are faithful, exactly if its lease fits into its
retention. -/
theorem claims_exclude_iff (options : StoreOptions) (store : PostgresIdempotencyStore)
    (hstore : PostgresIdempotencyStore.create options = .ok store) :
    (∀ as s, Machine.exec (stepStore store) .empty as = some s → ClaimsExclude store s) ↔
      options.leaseMs ≤ options.retentionMs := by
  obtain ⟨hret, hlease, rfl⟩ := create_ok hstore
  constructor
  · intro hall
    by_contra hlt
    obtain ⟨s, hexec, hover⟩ := overlappingRun_overlaps
      ⟨options.retentionMs / 1000, options.leaseMs / 1000⟩ (by positivity) (by dsimp only; linarith)
    exact hover (hall _ s hexec).leases
  · intro hle as s hexec
    apply claimsExclude_of_le _ hexec
    linarith

theorem claims_exclude_by_default :
    ∃ store, PostgresIdempotencyStore.create {} = .ok store ∧
      ∀ as s, Machine.exec (stepStore store) .empty as = some s → ClaimsExclude store s := by
  have hstore : PostgresIdempotencyStore.create {} = .ok ⟨86400, 60⟩ := by
    norm_num [PostgresIdempotencyStore.create, assertPositive, defaultRetentionMs,
      defaultLeaseMs, bind, Except.bind, pure, Except.pure]
  refine ⟨⟨86400, 60⟩, hstore, ?_⟩
  apply (claims_exclude_iff {} ⟨86400, 60⟩ hstore).mpr
  norm_num [defaultRetentionMs, defaultLeaseMs]

/-- With a retention of one second and a lease of a minute, a second request takes the
key over while the first still holds its lease. -/
theorem claims_overlap_before_lease_ends :
    ∃ store, PostgresIdempotencyStore.create ⟨1000, 60000⟩ = .ok store ∧
      ∃ s, Machine.exec (stepStore store) .empty (overlappingRun 1) = some s ∧
        ¬ s.claims.Pairwise (fun x y => ¬ (LeaseRuns store s x ∧ LeaseRuns store s y)) := by
  refine ⟨⟨1, 60⟩, ?_, ?_⟩
  · norm_num [PostgresIdempotencyStore.create, assertPositive, bind, Except.bind, pure, Except.pure]
  · exact overlappingRun_overlaps ⟨1, 60⟩ (by norm_num) (by norm_num)

end BoilerplateExpress.Idempotency

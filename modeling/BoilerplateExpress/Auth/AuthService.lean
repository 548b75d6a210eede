import BoilerplateExpress.Auth.Jwt
import BoilerplateExpress.Auth.TokenStore
import BoilerplateExpress.Machine

/-!
# Sessions: login, rotation and revocation

`createAuthService` of `auth/auth.service.ts` over the in-memory token store. A
`refresh` call runs up to its first await as one step (verify and consume), and
its continuation, which issues the successor or revokes the family, is a second
step. All other calls touch the store once. Calls interleave between steps.

The state carries a log of every token issued, with the token it replaced: the
rotation chains of the sessions. A family is `Dead` when it has no active record
and no successor on its way; no step brings a dead family back.
-/
namespace BoilerplateExpress.Auth

def tokenTypeMismatch : AppError :=
  { statusCode := 401, message := "Token type mismatch", code := some "TOKEN_TYPE_MISMATCH" }

def tokenRevoked : AppError :=
  { statusCode := 401, message := "Refresh token revoked", code := some "TOKEN_REVOKED" }

/-- What a suspended `refresh` call does when it runs again. -/
inductive Continuation where
  | issueSuccessor (parent : Text) (payload : JwtPayload) (familyId : Text)
  | revokeFamily (userId familyId : Text)
  deriving DecidableEq

/-- `refresh` up to its first await. -/
def refresh (key : JwtKey) (store : TokenStore) (refreshToken : Text) (now : ℕ) :
    Except AppError Continuation × TokenStore :=
  match verifyRefreshToken key refreshToken now with
  | .error e => (.error e, store)
  | .ok payload =>
    if payload.type ≠ .refresh then (.error tokenTypeMismatch, store)
    else
      match store.consume refreshToken now with
      | (.reuse userId familyId, store) => (.ok (.revokeFamily userId familyId), store)
      | (.rotated _ familyId, store) =>
        (.ok (.issueSuccessor refreshToken payload familyId), store)
      | (.revoked _ _, store) => (.error tokenRevoked, store)
      | (.unknown, store) => (.error tokenRevoked, store)

/-- Records a freshly signed refresh token, which is where `issueSession` and the
success path of `refresh` meet. -/
def issueToken (key : JwtKey) (store : TokenStore) (token userId familyId : Text) (now : ℕ) :
    Except AppError TokenStore := do
  let expiresAt ← refreshTokenExpiresAt key token now
  pure (store.issue ⟨token, userId, familyId, expiresAt⟩ now)

def logout (key : JwtKey) (store : TokenStore) (refreshToken : Text) (now : ℕ) : TokenStore :=
  match verifyRefreshToken key refreshToken now with
  | .error _ => store
  | .ok payload => if payload.type = .refresh then store.revoke refreshToken now else store

def logoutAll (store : TokenStore) (userId : Text) (now : ℕ) : TokenStore :=
  store.revokeAllForUser userId now

/-- One token on record: whose it is, its family, and the token it replaced
(`none` for the first token of a session). -/
structure Issued where
  token : Text
  userId : Text
  familyId : Text
  parent : Option Text
  deriving DecidableEq

structure ServiceState where
  store : TokenStore
  calls : OrderedMap ℕ Continuation
  issued : List Issued

def ServiceState.start (now : ℕ) : ServiceState :=
  { store := TokenStore.create now, calls := OrderedMap.empty, issued := [] }

/-- The calls and continuations that may run, with the clock reading each makes.
`token` is the refresh token `createTokenPair` signs in that step. -/
inductive Action where
  | login (userId : Text) (roles : List Text) (familyId token : Text) (now : ℕ)
  | refresh (call : ℕ) (refreshToken : Text) (now : ℕ)
  | resume (call : ℕ) (token : Text) (now : ℕ)
  | logout (refreshToken : Text) (now : ℕ)
  | logoutAll (userId : Text) (now : ℕ)

/-- `token` can come out of `createTokenPair`: it is signed for this user, and the
random `jti` makes it different from every token before it. -/
def Signs (key : JwtKey) (s : ServiceState) (token userId : Text) (roles : List Text) : Prop :=
  (∃ exp, key.decode token = some ⟨userId, roles, .refresh, exp⟩) ∧
    ∀ e ∈ s.issued, e.token ≠ token

instance (key : JwtKey) (s : ServiceState) (token userId : Text) (roles : List Text) :
    Decidable (Signs key s token userId roles) :=
  decidable_of_iff ((key.decode token).any (fun payload =>
      payload = ⟨userId, roles, .refresh, payload.exp⟩) ∧ ∀ e ∈ s.issued, e.token ≠ token) (by
    rw [Signs]
    rcases key.decode token with _ | ⟨_, _, _, _⟩ <;> simp)

/-- Records the outcome of an issue: a throw leaves the store as it was. -/
def ServiceState.record (s : ServiceState) (outcome : Except AppError TokenStore) (e : Issued) :
    ServiceState :=
  match outcome with
  | .error _ => s
  | .ok store => { s with store := store, issued := s.issued ++ [e] }

def step (key : JwtKey) (s : ServiceState) : Action → Option ServiceState
  | .login userId roles familyId token now =>
    if Signs key s token userId roles ∧ ∀ e ∈ s.issued, e.familyId ≠ familyId then
      some (s.record (issueToken key s.store token userId familyId now)
        ⟨token, userId, familyId, none⟩)
    else none
  | .refresh call refreshToken now =>
    if s.calls.get call = none then
      match refresh key s.store refreshToken now with
      | (.error _, store) => some { s with store := store }
      | (.ok continuation, store) =>
        some { s with store := store, calls := s.calls.set call continuation }
    else none
  | .resume call token now =>
    match s.calls.get call with
    | none => none
    | some (.revokeFamily _ familyId) =>
      some { s with
        store := (s.store.revokeFamily familyId now).2
        calls := s.calls.delete call }
    | some (.issueSuccessor parent payload familyId) =>
      if Signs key s token payload.userId payload.roles then
        let s := { s with calls := s.calls.delete call }
        some (s.record (issueToken key s.store token payload.userId familyId now)
          ⟨token, payload.userId, familyId, some parent⟩)
      else none
  | .logout refreshToken now => some { s with store := logout key s.store refreshToken now }
  | .logoutAll userId now => some { s with store := logoutAll s.store userId now }

/-- The clock reading a step makes. -/
def Action.now : Action → ℕ
  | .login _ _ _ _ now => now
  | .refresh _ _ now => now
  | .resume _ _ now => now
  | .logout _ now => now
  | .logoutAll _ now => now

/-- Where a new continuation comes from: the record `consume` found for it, which it leaves as
rotated if a successor is to be issued. -/
def ComesFrom (key : JwtKey) (store after : TokenStore) : Continuation → Prop
  | .issueSuccessor parent payload familyId =>
    key.decode parent = some payload ∧ TokenStore.Answers store after parent (.rotated [] familyId)
  | .revokeFamily _ familyId => ∃ token, TokenStore.Answers store after token (.reuse [] familyId)

lemma refresh_spec (key store refreshToken now) :
    TokenStore.Ages now store (refresh key store refreshToken now).2 ∧
      ∀ k, (refresh key store refreshToken now).1 = .ok k →
        ComesFrom key store (refresh key store refreshToken now).2 k := by
  unfold refresh
  cases hverify : verifyRefreshToken key refreshToken now with
  | error e => exact ⟨TokenStore.ages_refl now store, by simp⟩
  | ok payload =>
    by_cases htype : payload.type = .refresh
    · obtain ⟨hages, hanswers⟩ := store.consume_spec refreshToken now
      simp only [htype]
      generalize store.consume refreshToken now = consumed at hages hanswers ⊢
      obtain ⟨outcome, after⟩ := consumed
      cases outcome with
      | rotated userId familyId =>
        refine ⟨hages, ?_⟩
        intro k hk
        rw [← Except.ok.inj hk]
        exact ⟨decode_of_verifyRefreshToken hverify, hanswers⟩
      | reuse userId familyId =>
        refine ⟨hages, ?_⟩
        intro k hk
        rw [← Except.ok.inj hk]
        exact ⟨refreshToken, hanswers⟩
      | _ => exact ⟨hages, by simp⟩
    · simp only [htype, ne_eq]
      exact ⟨TokenStore.ages_refl now store, by simp⟩

lemma ages_logout (key store refreshToken now) :
    TokenStore.Ages now store (logout key store refreshToken now) := by
  unfold logout
  split
  · exact TokenStore.ages_refl now store
  · split_ifs
    · exact store.ages_revoke refreshToken now
    · exact TokenStore.ages_refl now store

/-- A step that only retires records. It adds no continuation but that of the call `new`, which
comes from a record of the store. -/
structure Retiring (key : JwtKey) (now new : ℕ) (s t : ServiceState) : Prop where
  store : TokenStore.Ages now s.store t.store
  issued : t.issued = s.issued
  calls : ∀ call k, t.calls.get call = some k →
    s.calls.get call = some k ∨ call = new ∧ ComesFrom key s.store t.store k

/-- A step that puts the token `e` on record, for a new session or as the
successor a suspended call was about to issue. -/
structure Issuing (key : JwtKey) (now : ℕ) (s t : ServiceState) (e : Issued) : Prop where
  issued : t.issued = s.issued ++ [e]
  decoded : ∃ payload, key.decode e.token = some payload ∧ payload.userId = e.userId
  fresh : ∀ d ∈ s.issued, d.token ≠ e.token
  calls : ∀ call k, t.calls.get call = some k → s.calls.get call = some k
  store : ∀ token record, t.store.records.get token = some record →
    (token = e.token ∧ record.userId = e.userId ∧ record.familyId = e.familyId) ∨
      s.store.records.get token = some record
  kept : ∀ token record, s.store.records.get token = some record → now < record.expiresAt →
    token ≠ e.token → t.store.records.get token = some record
  origin : (e.parent = none ∧ ∀ d ∈ s.issued, d.familyId ≠ e.familyId) ∨
    ∃ call parent payload, e.parent = some parent ∧ payload.userId = e.userId ∧
      s.calls.get call = some (.issueSuccessor parent payload e.familyId) ∧
      t.calls.get call = none

variable {s : ServiceState}

lemma retiring_of_store {now store} (key) (h : TokenStore.Ages now s.store store) :
    Retiring key now 0 s { s with store := store } := ⟨h, rfl, fun _ _ hk => .inl hk⟩

variable {key : JwtKey} {token userId familyId : Text} {now : ℕ}

lemma issueToken_eq_ok {store} {after}
    (h : issueToken key store token userId familyId now = .ok after) :
    ∃ expiresAt, after = store.issue ⟨token, userId, familyId, expiresAt⟩ now := by
  unfold issueToken at h
  cases hexp : refreshTokenExpiresAt key token now with
  | error e =>
    rw [hexp] at h
    cases h
  | ok expiresAt =>
    rw [hexp] at h
    exact ⟨expiresAt, (Except.ok.inj h).symm⟩

/-- Recording an issue either throws, and changes nothing, or issues the token. `u` is `s`
without the call that issues. -/
lemma record_cases {t} (key) (s u : ServiceState) (e roles now) (hstore : u.store = s.store)
    (hiss : u.issued = s.issued)
    (hcalls : ∀ call k, u.calls.get call = some k → s.calls.get call = some k)
    (hsigns : Signs key s e.token e.userId roles)
    (horig : (e.parent = none ∧ ∀ d ∈ s.issued, d.familyId ≠ e.familyId) ∨
      ∃ call parent payload, e.parent = some parent ∧ payload.userId = e.userId ∧
        s.calls.get call = some (.issueSuccessor parent payload e.familyId) ∧
        u.calls.get call = none)
    (ht : u.record (issueToken key u.store e.token e.userId e.familyId now) e = t) :
    (∃ new, Retiring key now new s t) ∨ ∃ e, Issuing key now s t e := by
  cases hissue : issueToken key u.store e.token e.userId e.familyId now with
  | error err =>
    rw [hissue] at ht
    subst ht
    refine .inl ⟨0, ?_, hiss, fun call k hk => .inl (hcalls call k hk)⟩
    rw [ServiceState.record, hstore]
    exact TokenStore.ages_refl now s.store
  | ok after =>
    obtain ⟨expiresAt, rfl⟩ := issueToken_eq_ok hissue
    rw [hissue] at ht
    subst ht
    obtain ⟨⟨exp, hdec⟩, hfresh⟩ := hsigns
    refine .inr ⟨e, ?_, ⟨_, hdec, rfl⟩, hfresh, hcalls, ?_, ?_, horig⟩
    · simp [ServiceState.record, hiss]
    · intro token record hget
      rcases TokenStore.issue_get hget with ⟨htoken, hrec⟩ | ⟨_, hold⟩
      · exact .inl ⟨htoken, by rw [hrec], by rw [hrec]⟩
      · exact .inr (hstore ▸ hold)
    · intro token record hget hlive hne
      exact u.store.issue_keeps hne (hstore ▸ hget) hlive

/-- Every step either retires records or issues one token. -/
theorem step_cases (key s t a) (h : step key s a = some t) :
    (∃ new, Retiring key a.now new s t) ∨ ∃ e, Issuing key a.now s t e := by
  cases a with
  | login userId roles familyId token now =>
    simp only [step] at h
    split_ifs at h with hok
    exact record_cases key s s ⟨token, userId, familyId, none⟩ roles now rfl rfl
      (fun _ _ hk => hk) hok.1 (.inl ⟨rfl, hok.2⟩) (Option.some.inj h)
  | refresh call refreshToken now =>
    simp only [step] at h
    split_ifs at h with hfree
    obtain ⟨hages, hcomes⟩ := refresh_spec key s.store refreshToken now
    generalize refresh key s.store refreshToken now = answered at h hages hcomes
    obtain ⟨outcome, store⟩ := answered
    cases outcome with
    | error e =>
      cases h
      exact .inl ⟨0, retiring_of_store key hages⟩
    | ok k =>
      cases h
      refine .inl ⟨call, hages, rfl, ?_⟩
      intro c k' hget
      rcases OrderedMap.get_set_eq_some.mp hget with ⟨hc, hk⟩ | ⟨_, hget⟩
      · exact .inr ⟨hc, hk ▸ hcomes k rfl⟩
      · exact .inl hget
  | resume call token now =>
    have hdel (c : ℕ) (k : Continuation) (hk : (s.calls.delete call).get c = some k) :
        s.calls.get c = some k := (OrderedMap.get_delete_eq_some.mp hk).2
    simp only [step] at h
    cases hcall : s.calls.get call with
    | none => simp [hcall] at h
    | some k =>
      rw [hcall] at h
      cases k with
      | revokeFamily userId familyId =>
        cases h
        exact .inl ⟨0, s.store.ages_revokeWhere _ now, rfl, fun c k hk => .inl (hdel c k hk)⟩
      | issueSuccessor parent payload familyId =>
        simp only at h
        split_ifs at h with hsigns
        exact record_cases key s { s with calls := s.calls.delete call }
          ⟨token, payload.userId, familyId, some parent⟩ payload.roles now rfl rfl hdel
          hsigns (.inr ⟨call, parent, payload, rfl, rfl, hcall, by simp⟩) (Option.some.inj h)
  | logout refreshToken now =>
    cases h
    exact .inl ⟨0, retiring_of_store key (ages_logout key s.store refreshToken now)⟩
  | logoutAll userId now =>
    cases h
    exact .inl ⟨0, retiring_of_store key (s.store.ages_revokeWhere _ now)⟩

/-- What the log of issued tokens has to do with the store and the suspended calls. -/
structure Consistent (key : JwtKey) (s : ServiceState) : Prop where
  decoded : ∀ e ∈ s.issued, ∃ payload, key.decode e.token = some payload ∧
    payload.userId = e.userId
  distinct : ∀ d ∈ s.issued, ∀ e ∈ s.issued, d.token = e.token → d = e
  sameUser : ∀ d ∈ s.issued, ∀ e ∈ s.issued, d.familyId = e.familyId → d.userId = e.userId
  parents : ∀ e ∈ s.issued, ∀ parent, e.parent = some parent →
    ∃ d ∈ s.issued, d.token = parent ∧ d.familyId = e.familyId
  records : ∀ token record, s.store.records.get token = some record →
    ∃ e ∈ s.issued, e.token = token ∧ e.userId = record.userId ∧ e.familyId = record.familyId
  successors : ∀ call parent payload familyId,
    s.calls.get call = some (.issueSuccessor parent payload familyId) →
    ∃ e ∈ s.issued, e.token = parent ∧ e.userId = payload.userId ∧ e.familyId = familyId
  alarms : ∀ call userId familyId, s.calls.get call = some (.revokeFamily userId familyId) →
    ∃ e ∈ s.issued, e.familyId = familyId

lemma consistent_start (key now) : Consistent key (ServiceState.start now) := by
  constructor <;> simp [ServiceState.start, TokenStore.create]

variable {t : ServiceState}

lemma consistent_retiring {new} (hs : Consistent key s) (h : Retiring key now new s t) :
    Consistent key t := by
  obtain ⟨hstore, hiss, hcalls⟩ := h
  constructor
  · rw [hiss]
    exact hs.decoded
  · rw [hiss]
    exact hs.distinct
  · rw [hiss]
    exact hs.sameUser
  · rw [hiss]
    exact hs.parents
  · intro token record hget
    obtain ⟨old, hold, huser, hfam, _⟩ := hstore.old hget
    rw [hiss, ← huser, ← hfam]
    exact hs.records token old hold
  · intro call parent payload familyId hget
    rw [hiss]
    rcases hcalls call _ hget with hold | ⟨-, hdec, record, hrec, _, hfam, _⟩
    · exact hs.successors call parent payload familyId hold
    · obtain ⟨e, he, htoken, _, hefam⟩ := hs.records parent record hrec
      obtain ⟨payload', hdec', huser⟩ := hs.decoded e he
      have hpay : payload' = payload := by
        rw [htoken] at hdec'
        exact Option.some.inj (hdec'.symm.trans hdec)
      exact ⟨e, he, htoken, by rw [← huser, hpay], hefam.trans hfam⟩
  · intro call userId familyId hget
    rw [hiss]
    rcases hcalls call _ hget with hold | ⟨-, token, record, hrec, hfam⟩
    · exact hs.alarms call userId familyId hold
    · obtain ⟨e, he, _, _, hefam⟩ := hs.records token record hrec
      exact ⟨e, he, hefam.trans hfam⟩

variable {e : Issued}

lemma issuing_sameUser (hs : Consistent key s) (h : Issuing key now s t e) :
    ∀ d ∈ s.issued, d.familyId = e.familyId → d.userId = e.userId := by
  intro d hd hfam
  rcases h.origin with ⟨_, hnew⟩ | ⟨call, parent, payload, _, huser, hcall, _⟩
  · exact absurd hfam (hnew d hd)
  · obtain ⟨p, hp, _, hpuser, hpfam⟩ := hs.successors call parent payload _ hcall
    rw [hs.sameUser d hd p hp (hfam.trans hpfam.symm), hpuser, huser]

lemma consistent_issuing (hs : Consistent key s) (h : Issuing key now s t e) :
    Consistent key t := by
  have hmem (d : Issued) : d ∈ t.issued ↔ d ∈ s.issued ∨ d = e := by
    rw [h.issued]
    simp
  have hsame := issuing_sameUser hs h
  constructor
  · intro d hd
    rcases (hmem d).mp hd with hold | rfl
    · exact hs.decoded d hold
    · exact h.decoded
  · intro d hd d' hd' htoken
    rcases (hmem d).mp hd with hold | rfl
    · rcases (hmem d').mp hd' with hold' | rfl
      · exact hs.distinct d hold d' hold' htoken
      · exact absurd htoken (h.fresh d hold)
    · rcases (hmem d').mp hd' with hold' | rfl
      · exact absurd htoken.symm (h.fresh d' hold')
      · rfl
  · intro d hd d' hd' hfam
    rcases (hmem d).mp hd with hold | rfl
    · rcases (hmem d').mp hd' with hold' | rfl
      · exact hs.sameUser d hold d' hold' hfam
      · exact hsame d hold hfam
    · rcases (hmem d').mp hd' with hold' | rfl
      · exact (hsame d' hold' hfam.symm).symm
      · rfl
  · intro d hd parent hpar
    rcases (hmem d).mp hd with hold | rfl
    · obtain ⟨p, hp, htoken, hfam⟩ := hs.parents d hold parent hpar
      exact ⟨p, (hmem p).mpr (.inl hp), htoken, hfam⟩
    · rcases h.origin with ⟨hnone, _⟩ | ⟨call, parent', payload, hsome, _, hcall, _⟩
      · rw [hnone] at hpar
        cases hpar
      · obtain rfl : parent' = parent := Option.some.inj (hsome.symm.trans hpar)
        obtain ⟨p, hp, htoken, _, hfam⟩ := hs.successors call parent' payload _ hcall
        exact ⟨p, (hmem p).mpr (.inl hp), htoken, hfam⟩
  · intro token record hget
    rcases h.store token record hget with ⟨htoken, huser, hfam⟩ | hold
    · exact ⟨e, (hmem e).mpr (.inr rfl), htoken.symm, huser.symm, hfam.symm⟩
    · obtain ⟨d, hd, hrest⟩ := hs.records token record hold
      exact ⟨d, (hmem d).mpr (.inl hd), hrest⟩
  · intro call parent payload familyId hget
    obtain ⟨d, hd, hrest⟩ := hs.successors call parent payload familyId (h.calls call _ hget)
    exact ⟨d, (hmem d).mpr (.inl hd), hrest⟩
  · intro call userId familyId hget
    obtain ⟨d, hd, hfam⟩ := hs.alarms call userId familyId (h.calls call _ hget)
    exact ⟨d, (hmem d).mpr (.inl hd), hfam⟩

variable {a : Action}

lemma consistent_step (hs : Consistent key s) (h : step key s a = some t) : Consistent key t := by
  rcases step_cases key s t a h with ⟨_, hret⟩ | ⟨e, hiss⟩
  · exact consistent_retiring hs hret
  · exact consistent_issuing hs hiss

lemma consistent_run {as} (h : Machine.exec (step key) (ServiceState.start now) as = some t) :
    Consistent key t :=
  Machine.exec_invariant (Consistent key) (fun _ _ _ => consistent_step)
    (consistent_start key now) h

/-- A family that was used, has no active record, and has no successor on its way. -/
structure Dead (s : ServiceState) (familyId : Text) : Prop where
  used : ∃ e ∈ s.issued, e.familyId = familyId
  records : ∀ token record, s.store.records.get token = some record →
    record.familyId = familyId → record.state ≠ .active
  successors : ∀ call parent payload,
    s.calls.get call ≠ some (.issueSuccessor parent payload familyId)

lemma dead_step (hs : Dead s familyId) (h : step key s a = some t) : Dead t familyId := by
  obtain ⟨d, hd, hdfamily⟩ := hs.used
  rcases step_cases key s t a h with ⟨_, hretiring⟩ | ⟨e, hissuing⟩
  · refine ⟨⟨d, hretiring.issued ▸ hd, hdfamily⟩, ?_, ?_⟩
    · intro token record hget hfamily hactive
      obtain ⟨old, hold, _, holdfamily, holdactive⟩ := hretiring.store.old hget
      exact hs.records token old hold (holdfamily.trans hfamily) (holdactive hactive)
    · intro call parent payload hget
      rcases hretiring.calls call _ hget with hold | ⟨-, _, record, hrecord, hactive, hfamily, _⟩
      · exact hs.successors call parent payload hold
      · exact hs.records parent record hrecord hfamily hactive
  · have hother : e.familyId ≠ familyId := by
      intro hfamily
      rcases hissuing.origin with ⟨_, hnew⟩ | ⟨call, parent, payload, _, _, hcall, _⟩
      · exact hnew d hd (hdfamily.trans hfamily.symm)
      · exact hs.successors call parent payload (hfamily ▸ hcall)
    refine ⟨⟨d, by rw [hissuing.issued]; simp [hd], hdfamily⟩, ?_, ?_⟩
    · intro token record hget hfamily
      rcases hissuing.store token record hget with ⟨_, _, hefamily⟩ | hold
      · exact absurd (hefamily.symm.trans hfamily) hother
      · exact hs.records token record hold hfamily
    · intro call parent payload hget
      exact hs.successors call parent payload (hissuing.calls call _ hget)

/-- `child` replaced `parent` in a rotation. -/
def Rotated (s : ServiceState) (parent child : Text) : Prop :=
  ∃ e ∈ s.issued, e.token = child ∧ e.parent = some parent

def Descends (s : ServiceState) : Text → Text → Prop := Relation.ReflTransGen (Rotated s)

/-- A rotation chain stays in the family it started in. -/
theorem descends_family {root} (hs : Consistent key s) (hroot : root ∈ s.issued)
    (h : Descends s root.token token) :
    ∃ e ∈ s.issued, e.token = token ∧ e.familyId = root.familyId := by
  induction h with
  | refl => exact ⟨root, hroot, rfl, rfl⟩
  | tail _ hedge ih =>
    obtain ⟨p, hp, hptok, hpfam⟩ := ih
    obtain ⟨e, he, hetok, hpar⟩ := hedge
    obtain ⟨d, hd, hdtok, hdfam⟩ := hs.parents e he _ hpar
    obtain rfl := hs.distinct d hd p hp (hdtok.trans hptok.symm)
    exact ⟨e, he, hetok, hdfam.symm.trans hpfam⟩

/-- Once a family is dead, none of its tokens is active at any later point. -/
lemma isActive_of_dead {u as} (hexec : Machine.exec (step key) u as = some s)
    (hs : Consistent key s) (he : e ∈ s.issued) (hu : Dead u e.familyId) (now) :
    s.store.isActive e.token now = false := by
  have hdead := Machine.exec_invariant (fun v => Dead v e.familyId)
    (fun v a w hv hw => dead_step hv hw) hu hexec
  apply TokenStore.isActive_eq_false
  intro record hget
  obtain ⟨d, hd, htoken, _, hfam⟩ := hs.records e.token record hget
  obtain rfl := hs.distinct d hd e he htoken
  exact hdead.records d.token record hget hfam.symm

/-- After a trace that ends in `t`: for every `logoutAll` in it, no token that
descends from a session of that user issued before the call is active. -/
def LogoutAllReaches (key : JwtKey) (start : ℕ) (as : List Action) (t : ServiceState) : Prop :=
  ∀ pre userId now post s, as = pre ++ .logoutAll userId now :: post →
    Machine.exec (step key) (ServiceState.start start) pre = some s →
    ∀ root ∈ s.issued, root.parent = none → root.userId = userId →
      ∀ token, Descends t root.token token → ∀ clock, t.store.isActive token clock = false

/-- After a trace that ends in `t`: for every refresh in it that detected reuse
and has run to its end, no token of that family is active. -/
def ReuseReaches (key : JwtKey) (start : ℕ) (as : List Action) (t : ServiceState) : Prop :=
  ∀ pre call token now post s userId familyId, as = pre ++ .resume call token now :: post →
    Machine.exec (step key) (ServiceState.start start) pre = some s →
    s.calls.get call = some (.revokeFamily userId familyId) →
    ∀ e ∈ t.issued, e.familyId = familyId → ∀ clock, t.store.isActive e.token clock = false

/-- The user and family of a successor still to be issued. -/
def Continuation.rotation : Continuation → Option (Text × Text)
  | .issueSuccessor _ payload familyId => some (payload.userId, familyId)
  | .revokeFamily _ _ => none

/-- The family a detected reuse is about to revoke. -/
def Continuation.alarm : Continuation → Option Text
  | .issueSuccessor _ _ _ => none
  | .revokeFamily _ familyId => some familyId

/-- The rotations suspended between their `consume` and their `issue`. -/
def ServiceState.rotationsInFlight (s : ServiceState) : List (Text × Text) :=
  s.calls.entries.filterMap (fun e => e.2.rotation)

lemma mem_rotationsInFlight {call parent payload}
    (h : s.calls.get call = some (.issueSuccessor parent payload familyId)) :
    (payload.userId, familyId) ∈ s.rotationsInFlight :=
  List.mem_filterMap.mpr ⟨_, (s.calls.get_eq_some _ _).mp h, rfl⟩

/-- A revocation finds no rotation in flight that it should reach: a `logoutAll`
none of its user, the end of a detected reuse none of its family. -/
def NoRotationInFlight (s : ServiceState) : Action → Prop
  | .login .. => True
  | .refresh .. => True
  | .resume call _ _ =>
    ∀ r ∈ s.rotationsInFlight, (s.calls.get call).bind Continuation.alarm ≠ some r.2
  | .logout .. => True
  | .logoutAll userId _ => ∀ r ∈ s.rotationsInFlight, r.1 ≠ userId

instance (s : ServiceState) (a) : Decidable (NoRotationInFlight s a) := by
  cases a <;> dsimp only [NoRotationInFlight] <;> infer_instance

lemma dead_logoutAll {root} (hs : Consistent key s)
    (hquiet : NoRotationInFlight s (.logoutAll userId now))
    (h : step key s (.logoutAll userId now) = some t) (hroot : root ∈ s.issued)
    (huser : root.userId = userId) : Dead t root.familyId := by
  cases h
  refine ⟨⟨root, hroot, rfl⟩, ?_, ?_⟩
  · intro token record hget hfamily
    obtain ⟨old, hold, holdfamily, hstate⟩ := TokenStore.revokeWhere_inactive hget
    obtain ⟨e, he, _, heuser, hefamily⟩ := hs.records token old hold
    have hsame := hs.sameUser e he root hroot (hefamily.trans (holdfamily.trans hfamily))
    apply hstate
    rw [decide_eq_true_eq, ← heuser, hsame, huser]
  · intro call parent payload hcall
    obtain ⟨e, he, _, heuser, hefamily⟩ := hs.successors call parent payload _ hcall
    have hsame := hs.sameUser e he root hroot hefamily
    exact hquiet _ (mem_rotationsInFlight hcall) (by rw [← heuser, hsame, huser])

lemma dead_revokeFamily {call} (hs : Consistent key s)
    (hquiet : NoRotationInFlight s (.resume call token now))
    (hcall : s.calls.get call = some (.revokeFamily userId familyId))
    (h : step key s (.resume call token now) = some t) : Dead t familyId := by
  simp only [step, hcall] at h
  cases h
  refine ⟨hs.alarms call userId familyId hcall, ?_, ?_⟩
  · intro tok record hget hfam
    obtain ⟨old, _, holdf, hst⟩ := TokenStore.revokeWhere_inactive hget
    apply hst
    rw [decide_eq_true_eq, holdf, hfam]
  · intro other parent payload hget
    have hold := (OrderedMap.get_delete_eq_some.mp hget).2
    exact hquiet _ (mem_rotationsInFlight hold) (by rw [hcall]; rfl)

lemma issued_step (he : e ∈ s.issued) (h : step key s a = some t) : e ∈ t.issued := by
  rcases step_cases key s t a h with ⟨_, hret⟩ | ⟨d, hiss⟩
  · rw [hret.issued]
    exact he
  · rw [hiss.issued]
    simp [he]

/-- Revocation reaches every rotation chain when it never overtakes a rotation:
in every trace whose revocations find no rotation of theirs in flight. -/
theorem revocation_reaches_rotations (key : JwtKey) (start : ℕ) (as : List Action)
    (t : ServiceState)
    (hquiet : Machine.Guarded (step key) NoRotationInFlight (ServiceState.start start) as)
    (hexec : Machine.exec (step key) (ServiceState.start start) as = some t) :
    LogoutAllReaches key start as t ∧ ReuseReaches key start as t := by
  have ht := consistent_run hexec
  refine ⟨?_, ?_⟩
  · intro pre userId now post s has hpre root hroot _ huser token hdes clock
    subst has
    have hs := consistent_run hpre
    obtain ⟨hguard, u, hu, hpost⟩ := Machine.guarded_cut hpre hquiet hexec
    have hdead := dead_logoutAll hs hguard hu hroot huser
    have hroot' := Machine.exec_invariant (fun v => root ∈ v.issued)
      (fun v a w hv hw => issued_step hv hw) (issued_step hroot hu) hpost
    obtain ⟨e, he, htoken, hfam⟩ := descends_family ht hroot' hdes
    rw [← htoken]
    exact isActive_of_dead hpost ht he (hfam ▸ hdead) clock
  · intro pre call token now post s userId familyId has hpre hcall e he hfam clock
    subst has
    have hs := consistent_run hpre
    obtain ⟨hguard, u, hu, hpost⟩ := Machine.guarded_cut hpre hquiet hexec
    have hdead := dead_revokeFamily hs hguard hcall hu
    exact isActive_of_dead hpost ht he (hfam ▸ hdead) clock

/-- A key under which every one-letter string is a refresh token of `u`. -/
def sampleKey : JwtKey where
  decode token := if token.length = 1 then some ⟨['u'], [], .refresh, some 1000⟩ else none

/-- A user logs in, refreshes, and logs out everywhere while the refresh is
suspended. -/
def sampleOvertaken : List Action :=
  [.login ['u'] [] ['f'] ['a'] 0, .refresh 1 ['a'] 1, .logoutAll ['u'] 2, .resume 1 ['b'] 3]

/-- Two refreshes of one token: the second detects reuse and revokes the family
while the first is suspended. -/
def sampleReuseOvertaken : List Action :=
  [.login ['u'] [] ['f'] ['a'] 0, .refresh 1 ['a'] 1, .refresh 2 ['a'] 2, .resume 2 [] 3,
    .resume 1 ['b'] 4]

/-- A user who logs out everywhere after the rotation has finished, and a refresh
of the spent token after that. -/
def sampleSettled : List Action :=
  [.login ['u'] [] ['f'] ['a'] 0, .refresh 1 ['a'] 1, .resume 1 ['b'] 2, .refresh 2 ['a'] 3,
    .resume 2 [] 4, .login ['u'] [] ['g'] ['c'] 5, .logoutAll ['u'] 6, .refresh 3 ['c'] 7]

theorem revocation_reaches_settled_rotations :
    ∃ t, Machine.exec (step sampleKey) (ServiceState.start 0) sampleSettled = some t ∧
      LogoutAllReaches sampleKey 0 sampleSettled t ∧ ReuseReaches sampleKey 0 sampleSettled t := by
  refine Machine.exists_of_seen (fun _ => ()) () (by decide +kernel) ?_
  intro t ht _
  exact revocation_reaches_rotations sampleKey 0 sampleSettled t (by decide +kernel) ht

/-- Both revocations miss a rotation that was suspended when they ran: its
successor `b` becomes active afterwards. -/
theorem revocation_misses_suspended_rotation :
    (¬ ∀ as t, Machine.exec (step sampleKey) (ServiceState.start 0) as = some t →
      LogoutAllReaches sampleKey 0 as t) ∧
    ¬ ∀ as t, Machine.exec (step sampleKey) (ServiceState.start 0) as = some t →
      ReuseReaches sampleKey 0 as t := by
  refine ⟨?_, ?_⟩
  · intro h
    obtain ⟨t, ht, hact, hedge⟩ : ∃ t,
        Machine.exec (step sampleKey) (ServiceState.start 0) sampleOvertaken = some t ∧
        t.store.isActive ['b'] 3 ∧ (⟨['b'], ['u'], ['f'], some ['a']⟩ : Issued) ∈ t.issued := by
      refine ⟨_, rfl, by decide +kernel, by decide +kernel⟩
    have hreac := h _ t ht [.login ['u'] [] ['f'] ['a'] 0, .refresh 1 ['a'] 1] ['u'] 2
      [.resume 1 ['b'] 3] _ rfl rfl ⟨['a'], ['u'], ['f'], none⟩ (by decide +kernel) rfl rfl ['b']
      (Relation.ReflTransGen.single ⟨_, hedge, rfl, rfl⟩) 3
    rw [hact] at hreac
    cases hreac
  · intro h
    obtain ⟨t, ht, hact, hedge⟩ : ∃ t,
        Machine.exec (step sampleKey) (ServiceState.start 0) sampleReuseOvertaken = some t ∧
        t.store.isActive ['b'] 4 ∧ (⟨['b'], ['u'], ['f'], some ['a']⟩ : Issued) ∈ t.issued := by
      refine ⟨_, rfl, by decide +kernel, by decide +kernel⟩
    have hreac := h _ t ht
      [.login ['u'] [] ['f'] ['a'] 0, .refresh 1 ['a'] 1, .refresh 2 ['a'] 2] 2 [] 3
      [.resume 1 ['b'] 4] _ ['u'] ['f'] rfl rfl (by decide +kernel) _ hedge rfl 4
    rw [hact] at hreac
    cases hreac

end BoilerplateExpress.Auth

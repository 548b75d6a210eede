import BoilerplateExpress.Auth.AuthService

/-!
# Rotation families are linear

A family of refresh tokens passes one turn along: it is held by the active token of the
family, or, between the `consume` and the `issue` of a rotation, by the suspended
`refresh` call. `Linear` says that no family has two holders; each step either takes
turns away, opens a family, or passes a turn from one holder to the next.

A token answered `rotated` is `Spent`: no later step makes it active again. Its record stays
until its expiry, which is what tells a replay from an unknown token.
-/
namespace BoilerplateExpress.Auth

namespace TokenStore

/-- A retired token presented before its expiry is answered for what it is. -/
lemma consume_retired {token record now} (store : TokenStore)
    (hget : store.records.get token = some record) (hst : record.state ≠ .active)
    (hlive : now < record.expiresAt) :
    (store.consume token now).1 = .reuse record.userId record.familyId ∨
      (store.consume token now).1 = .revoked record.userId record.familyId := by
  have hfound : store.live token now = (some record, store) := by
    simp only [live, hget]
    rw [if_neg (by omega)]
  unfold consume
  rw [hfound]
  cases hs : record.state with
  | active => exact absurd hs hst
  | rotated =>
    left
    simp [hs]
  | revoked =>
    right
    simp [hs]

end TokenStore

/-- Who may hold the turn of a family: its active token, or a suspended rotation. -/
inductive Holder where
  | token (token : Text)
  | call (call : ℕ)
  deriving DecidableEq

def Holds (s : ServiceState) (familyId : Text) : Holder → Prop
  | .token token => ∃ record, s.store.records.get token = some record ∧
      record.familyId = familyId ∧ record.state = .active
  | .call call => ∃ parent payload,
      s.calls.get call = some (.issueSuccessor parent payload familyId)

/-- No family has two holders. -/
def Linear (s : ServiceState) : Prop :=
  ∀ familyId x y, Holds s familyId x → Holds s familyId y → x = y

/-- What a step does to the turn of one family. -/
inductive Turn (s t : ServiceState) (familyId : Text) : Prop where
  | kept (h : ∀ z, Holds t familyId z → Holds s familyId z)
  | opened (y : Holder) (hnone : ∀ z, ¬ Holds s familyId z)
      (h : ∀ z, Holds t familyId z → z = y ∨ Holds s familyId z)
  | passed (x y : Holder) (hx : Holds s familyId x) (hgone : ¬ Holds t familyId x)
      (h : ∀ z, Holds t familyId z → z = y ∨ Holds s familyId z)

variable {s t : ServiceState}

lemma linear_of_turn (hs : Linear s) (hturn : ∀ familyId, Turn s t familyId) : Linear t := by
  intro familyId z w hz hw
  cases hturn familyId with
  | kept h => exact hs familyId z w (h z hz) (h w hw)
  | opened y hnone h =>
    have hy (v : Holder) (hv : Holds t familyId v) : v = y := (h v hv).resolve_right (hnone v)
    rw [hy z hz, hy w hw]
  | passed x y hx hgone h =>
    -- an old holder that is still one would be `x`, which has given the turn away
    have hy (v : Holder) (hv : Holds t familyId v) : v = y := by
      rcases h v hv with hv' | hold
      · exact hv'
      · exact absurd (hs familyId v x hold hx ▸ hv) hgone
    rw [hy z hz, hy w hw]

variable {key : JwtKey} {token : Text} {now : ℕ}

/-- The first half of a rotation passes the turn from the token to the call; nothing else of
what retires records gives it to anyone. -/
lemma turn_retiring {new} (h : Retiring key now new s t) (familyId) : Turn s t familyId := by
  have hholds : ∀ z, Holds t familyId z → Holds s familyId z ∨ z = .call new ∧
      ∃ parent payload, ComesFrom key s.store t.store (.issueSuccessor parent payload familyId) := by
    rintro (token | call)
    · rintro ⟨record, hget, hfam, hact⟩
      obtain ⟨old, hold, _, holdf, holdac⟩ := h.store.old hget
      exact .inl ⟨old, hold, holdf.trans hfam, holdac hact⟩
    · rintro ⟨parent, payload, hget⟩
      rcases h.calls call _ hget with hold | ⟨rfl, hcomes⟩
      · exact .inl ⟨parent, payload, hold⟩
      · exact .inr ⟨rfl, parent, payload, hcomes⟩
  by_cases hnew : ∃ parent payload,
      ComesFrom key s.store t.store (.issueSuccessor parent payload familyId)
  · obtain ⟨parent, _, -, record, hget, hact, hfam, haft⟩ := hnew
    refine .passed (.token parent) (.call new) ⟨record, hget, hfam, hact⟩ ?_
      (fun z hz => (hholds z hz).symm.imp_left And.left)
    rintro ⟨record', hget', _, hact'⟩
    cases haft.symm.trans hget'
    cases hact'
  · exact .kept (fun z hz => (hholds z hz).resolve_right (fun hcall => hnew hcall.2))

/-- A login opens the family it was given an id for; the second half of a rotation passes the
turn from the call to the successor. -/
lemma turn_issuing {e} (hs : Consistent key s) (h : Issuing key now s t e) (familyId) :
    Turn s t familyId := by
  have hholds : ∀ z, Holds t familyId z →
      (e.familyId = familyId ∧ z = .token e.token) ∨ Holds s familyId z := by
    rintro (token | call)
    · rintro ⟨record, hget, hfam, hact⟩
      rcases h.store token record hget with ⟨rfl, _, hefam⟩ | hold
      · exact .inl ⟨hefam.symm.trans hfam, rfl⟩
      · exact .inr ⟨record, hold, hfam, hact⟩
    · rintro ⟨parent, payload, hget⟩
      exact .inr ⟨parent, payload, h.calls call _ hget⟩
  by_cases hsame : e.familyId = familyId
  · subst hsame
    rcases h.origin with ⟨_, hnew⟩ | ⟨call, parent, payload, _, _, hcall, hgone⟩
    · refine .opened (.token e.token) ?_ (fun z hz => (hholds z hz).imp_left And.right)
      rintro (token | call)
      · rintro ⟨record, hget, hfam, _⟩
        obtain ⟨d, hd, _, _, hdfam⟩ := hs.records token record hget
        exact hnew d hd (hdfam.trans hfam)
      · rintro ⟨parent, payload, hget⟩
        obtain ⟨d, hd, _, _, hdfam⟩ := hs.successors call parent payload _ hget
        exact hnew d hd hdfam
    · refine .passed (.call call) (.token e.token) ⟨parent, payload, hcall⟩ ?_
        (fun z hz => (hholds z hz).imp_left And.right)
      rintro ⟨parent', payload', hget⟩
      rw [hgone] at hget
      cases hget
  · exact .kept (fun z hz => (hholds z hz).resolve_left (fun hnew => hsame hnew.1))

lemma linear_start (now) : Linear (ServiceState.start now) := by
  rintro familyId (token | call) y hx _
  · obtain ⟨record, hget, _⟩ := hx
    simp [ServiceState.start, TokenStore.create] at hget
  · obtain ⟨parent, payload, hget⟩ := hx
    simp [ServiceState.start] at hget

variable {a : Action}

lemma linear_step (hc : Consistent key s) (hs : Linear s) (h : step key s a = some t) :
    Linear t := by
  refine linear_of_turn hs (fun familyId => ?_)
  rcases step_cases key s t a h with ⟨_, hret⟩ | ⟨e, hiss⟩
  · exact turn_retiring hret familyId
  · exact turn_issuing hc hiss familyId

lemma linear_run {as} (h : Machine.exec (step key) (ServiceState.start now) as = some t) :
    Linear t := by
  have hboth := Machine.exec_invariant (fun s => Consistent key s ∧ Linear s)
    (fun s a u hs hu => ⟨consistent_step hs.1 hu, linear_step hs.1 hs.2 hu⟩)
    ⟨consistent_start key now, linear_start now⟩ h
  exact hboth.2

/-- A token that was issued and is not active. -/
structure Spent (s : ServiceState) (token : Text) : Prop where
  issued : ∃ e ∈ s.issued, e.token = token
  retired : ∀ record, s.store.records.get token = some record → record.state ≠ .active

lemma spent_step (hs : Spent s token) (h : step key s a = some t) : Spent t token := by
  obtain ⟨d, hd, hdtoken⟩ := hs.issued
  refine ⟨⟨d, issued_step hd h, hdtoken⟩, ?_⟩
  intro record hget hactive
  rcases step_cases key s t a h with ⟨_, hretiring⟩ | ⟨e, hissuing⟩
  · obtain ⟨old, hold, _, _, holdactive⟩ := hretiring.store.old hget
    exact hs.retired old hold (holdactive hactive)
  · rcases hissuing.store token record hget with ⟨htoken, _⟩ | hold
    · exact hissuing.fresh d hd (hdtoken.trans htoken)
    · exact hs.retired record hold hactive

/-- The record of an issued token outlives every step before its expiry. -/
theorem record_kept {record} (hissued : ∃ e ∈ s.issued, e.token = token)
    (hget : s.store.records.get token = some record) (hlive : a.now < record.expiresAt)
    (h : step key s a = some t) :
    ∃ new, t.store.records.get token = some new ∧ new.expiresAt = record.expiresAt := by
  obtain ⟨d, hd, hdtok⟩ := hissued
  rcases step_cases key s t a h with ⟨_, hret⟩ | ⟨e, hiss⟩
  · exact hret.store.kept hget hlive
  · have hne : token ≠ e.token := hdtok ▸ hiss.fresh d hd
    exact ⟨record, hiss.kept token record hget hlive hne, rfl⟩

/-- A spent token whose record is still there, under the expiry it was issued with. -/
structure Remembered (s : ServiceState) (token : Text) (expiresAt : ℕ) : Prop extends
    Spent s token where
  record : ∃ record, s.store.records.get token = some record ∧ record.expiresAt = expiresAt

lemma remembered_step {expiresAt} (hs : Remembered s token expiresAt) (hlive : a.now < expiresAt)
    (h : step key s a = some t) : Remembered t token expiresAt := by
  obtain ⟨record, hget, rfl⟩ := hs.record
  exact ⟨spent_step hs.toSpent h, record_kept hs.issued hget hlive h⟩

/-- The token a step presents to `consume`, with the answer. -/
def presented (key : JwtKey) (s : ServiceState) : Action → Option (Text × RefreshTokenConsumption)
  | .refresh _ refreshToken now =>
    match verifyRefreshToken key refreshToken now with
    | .error _ => none
    | .ok payload =>
      if payload.type ≠ .refresh then none
      else some (refreshToken, (s.store.consume refreshToken now).1)
  | _ => none

/-- What a presentation says about the step that makes it. -/
lemma presented_eq_some {answer} (h : presented key s a = some (token, answer)) :
    ∃ call, a = .refresh call token a.now ∧ answer = (s.store.consume token a.now).1 ∧
      ∀ t, step key s a = some t → t.store = (s.store.consume token a.now).2 := by
  cases a with
  | refresh call refreshToken now =>
    simp only [presented] at h
    cases hver : verifyRefreshToken key refreshToken now with
    | error e => simp [hver] at h
    | ok payload =>
      by_cases htype : payload.type = .refresh
      · simp only [hver, htype, ne_eq, not_true_eq_false, if_false, Option.some.injEq,
          Prod.mk.injEq] at h
        obtain ⟨rfl, rfl⟩ := h
        refine ⟨call, rfl, rfl, ?_⟩
        intro t ht
        simp only [step, refresh, hver, ne_eq] at ht
        split_ifs at ht with hfree
        simp only [Action.now]
        generalize s.store.consume refreshToken now = consumed at ht ⊢
        obtain ⟨outcome, after⟩ := consumed
        cases outcome <;> obtain rfl := Option.some.inj ht <;> rfl
      · simp [hver, htype] at h
  | login | resume | logout | logoutAll => cases h

/-- A token answered `rotated` is remembered as spent after the step. -/
lemma remembered_of_rotated {userId familyId record} (hs : Consistent key s)
    (hpres : presented key s a = some (token, .rotated userId familyId))
    (hget : s.store.records.get token = some record) (h : step key s a = some t) :
    Remembered t token record.expiresAt := by
  obtain ⟨call, _, hans, hstore⟩ := presented_eq_some hpres
  have hanss := (s.store.consume_spec token a.now).2
  rw [← hans] at hanss
  obtain ⟨held, hheld, _, _, haft⟩ := hanss
  cases hget.symm.trans hheld
  obtain ⟨e, he, hetok, _⟩ := hs.records token record hget
  rw [← hstore t h] at haft
  refine ⟨⟨⟨e, issued_step he h, hetok⟩, ?_⟩, _, haft, rfl⟩
  intro new hnew
  cases haft.symm.trans hnew
  simp

/-- After a token was answered `rotated` in a trace, a later presentation of it is not;
as long as no clock reading since has reached its expiry, it is answered as reuse or as
revoked. -/
def RotatedOnce (key : JwtKey) (start : ℕ) (as : List Action) : Prop :=
  ∀ pre a mid b post s u token userId familyId record answer,
    as = pre ++ a :: (mid ++ b :: post) →
    Machine.exec (step key) (ServiceState.start start) pre = some s →
    Machine.exec (step key) (ServiceState.start start) (pre ++ a :: mid) = some u →
    presented key s a = some (token, .rotated userId familyId) →
    s.store.records.get token = some record →
    presented key u b = some (token, answer) →
    (∀ userId familyId, answer ≠ .rotated userId familyId) ∧
      ((∀ c ∈ mid ++ [b], c.now < record.expiresAt) →
        ∃ userId familyId, answer = .reuse userId familyId ∨ answer = .revoked userId familyId)

/-- The answers half, for any trace of the service. -/
theorem rotatedOnce_run (key start as) : RotatedOnce key start as := by
  intro pre a mid b post s u token userId familyId record answer _ hpre hmid hrot hget
    hpres
  have hs := consistent_run hpre
  obtain ⟨s', hs', hrest⟩ := (Machine.exec_append _ _ _ pre (a :: mid)).mp hmid
  cases hpre.symm.trans hs'
  obtain ⟨v, hv, hexec⟩ := (Machine.exec_cons _ _ _ a mid).mp hrest
  have hrem := remembered_of_rotated hs hrot hget hv
  obtain ⟨call, _, hans, _⟩ := presented_eq_some hpres
  refine ⟨?_, ?_⟩
  · intro userId' familyId' hagain
    have hspent := Machine.exec_invariant (fun w => Spent w token)
      (fun w c x hw hx => spent_step hw hx) hrem.toSpent hexec
    have hanss := (u.store.consume_spec token b.now).2
    rw [← hans, hagain] at hanss
    obtain ⟨held, hheld, hact, _⟩ := hanss
    exact hspent.retired held hheld hact
  · intro hlive
    have hguar : Machine.Guarded (step key) (fun _ c => c.now < record.expiresAt) v mid :=
      Machine.guarded_of_forall (step key) (fun c hc => hlive c (List.mem_append_left _ hc)) v
    have hkept := Machine.exec_invariant_of_guarded (fun w => Remembered w token record.expiresAt)
      (fun w c x hw hc hx => remembered_step hw hc hx) hrem hguar hexec
    obtain ⟨held, hheld, hexp⟩ := hkept.record
    have hb : b.now < held.expiresAt := by
      rw [hexp]
      exact hlive b (by simp)
    rw [hans]
    exact ⟨held.userId, held.familyId, u.store.consume_retired hheld (hkept.retired held hheld) hb⟩

/-- In every state a trace of the service reaches, a family has at most one active
token; and along the trace each token is answered `rotated` at most once. -/
theorem refresh_families_linear (key : JwtKey) (start : ℕ) (as : List Action) (t : ServiceState)
    (hexec : Machine.exec (step key) (ServiceState.start start) as = some t) :
    (∀ token token' record record', t.store.records.get token = some record →
      t.store.records.get token' = some record' → record.state = .active →
      record'.state = .active → record.familyId = record'.familyId → token = token') ∧
    RotatedOnce key start as := by
  refine ⟨?_, rotatedOnce_run key start as⟩
  intro token token' record record' hget hget' hact hact' hfam
  have hsame := linear_run hexec record'.familyId (.token token) (.token token')
    ⟨record, hget, hfam, hact⟩ ⟨record', hget', rfl, hact'⟩
  exact Holder.token.inj hsame

/-- A rotation, and the spent token presented again while its successor is active. -/
def sampleReplay : List Action :=
  [.login ['u'] [] ['f'] ['a'] 0, .refresh 1 ['a'] 1, .resume 1 ['b'] 2, .refresh 2 ['a'] 3]

theorem refresh_families_linear_replay :
    ∃ s t, Machine.exec (step sampleKey) (ServiceState.start 0) (sampleReplay.take 3) = some s ∧
      Machine.exec (step sampleKey) (ServiceState.start 0) sampleReplay = some t ∧
      presented sampleKey s (.refresh 2 ['a'] 3) = some (['a'], .reuse ['u'] ['f']) ∧
      (∀ token token' record record', t.store.records.get token = some record →
        t.store.records.get token' = some record' → record.state = .active →
        record'.state = .active → record.familyId = record'.familyId → token = token') ∧
      RotatedOnce sampleKey 0 sampleReplay := by
  refine ⟨_, _, rfl, rfl, by decide +kernel, ?_⟩
  exact refresh_families_linear sampleKey 0 sampleReplay _ rfl

end BoilerplateExpress.Auth

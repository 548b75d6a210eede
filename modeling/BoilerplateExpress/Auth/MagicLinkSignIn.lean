import BoilerplateExpress.Auth.MagicLink
import BoilerplateExpress.Errors

/-!
# Signing in with a magic link

`authenticate` of `createMagicLinkStrategy`. A stored link says which request of the run put
it there and what has not happened since. So a link signs in only the address it was sent to,
within its lifetime, once, and not after a newer request for that address.
-/
namespace BoilerplateExpress.Auth.MagicLink

open List Machine

variable (settings : Settings)

def invalidMagicLink : AppError where
  statusCode := 401
  message := "Magic link is invalid, expired, or already used"
  code := some "AUTH_INVALID_MAGIC_LINK"

/-- The address of the user who is signed in. -/
def authenticate (s : State) (token : Text) (now : ℕ) : Except AppError Text :=
  match (MagicLinkStore.consume s.links (settings.hashSecret token) now).1 with
  | none => .error invalidMagicLink
  | some email =>
    match settings.findByEmail email with
    | none => .error invalidMagicLink
    | some address => .ok address

/-- The action requests no link for the address and presents no token with the hash. -/
def LeavesLink (hash address : Text) : Action → Prop
  | .request _ email _ _ => settings.findByEmail email ≠ some address
  | .authenticate token _ => settings.hashSecret token ≠ hash
  | _ => True

/-- The run requested the link, and has left it alone since. -/
def LinkOf (actions : List Action) (hash : Text) (record : MagicLinkRecord) : Prop :=
  ∃ before call email token now after, actions = before ++ .request call email token now :: after ∧
    settings.hashSecret token = hash ∧ settings.findByEmail email = some record.email ∧
    record.expiresAt = now + settings.storeTtlSeconds * 1000 ∧
    ∀ a ∈ after, LeavesLink settings hash record.email a

variable {settings} {actions : List Action} {s t : State} {hash : Text} {record : MagicLinkRecord}

lemma LinkOf.concat {a} (h : LinkOf settings actions hash record)
    (ha : LeavesLink settings hash record.email a) :
    LinkOf settings (actions ++ [a]) hash record := by
  obtain ⟨before, call, email, token, now, after, rfl, hhash, hemail, hexp, hafter⟩ := h
  refine ⟨before, call, email, token, now, after ++ [a], by simp, hhash, hemail, hexp, ?_⟩
  intro b hb
  rcases mem_append.mp hb with hb | hb
  · exact hafter b hb
  · rwa [mem_singleton.mp hb]

/-- A link that is there after a step was requested by it, or was there before and left alone. -/
lemma link_of_step {a} (h : step settings s a = some t) (hget : t.links.get hash = some record) :
    LinkOf settings [a] hash record ∨
      s.links.get hash = some record ∧ LeavesLink settings hash record.email a := by
  cases a <;> simp only [step] at h
  case request call email token now =>
    split_ifs at h
    cases hfind : settings.findByEmail email with
    | none =>
      rw [hfind] at h
      cases h
      exact .inr ⟨hget, by simp [LeavesLink, hfind]⟩
    | some address =>
      rw [hfind] at h
      cases h
      rcases OrderedMap.get_set_eq_some.mp hget with ⟨rfl, rfl⟩ | ⟨-, hold⟩
      · exact .inl ⟨[], call, email, token, now, [], rfl, rfl, hfind, rfl, by simp⟩
      · simp only [MagicLinkStore.forget, OrderedMap.get_filter, Option.filter_eq_some_iff] at hold
        have hne : record.email ≠ address := by simpa using hold.2
        exact .inr ⟨hold.1, by simpa [LeavesLink, hfind] using hne.symm⟩
  case send _ _ _ | add _ =>
    split at h <;> cases h
    exact .inr ⟨hget, trivial⟩
  case authenticate token now =>
    cases h
    refine .inr ⟨get_consume_of_get hget, ?_⟩
    rintro rfl
    -- a link that is presented is gone
    simp only [MagicLinkStore.consume] at hget
    split at hget
    · next hnone => exact absurd (hnone.symm.trans hget) (by simp)
    · simp at hget
  case evict id =>
    cases h
    exact .inr ⟨hget, trivial⟩

lemma link_of_run (h : exec (step settings) State.start actions = some s)
    (hget : s.links.get hash = some record) : LinkOf settings actions hash record := by
  induction actions using List.reverseRecOn generalizing s with
  | nil =>
    cases h
    cases hget
  | append_singleton actions a ih =>
    obtain ⟨u, hu, h⟩ := (exec_append _ _ _ _ _).mp h
    have hstep : step settings u a = some s := by simpa [exec] using h
    rcases link_of_step hstep hget with hnew | ⟨hold, hleaves⟩
    · obtain ⟨before, call, email, token, now, after, hsplit, hrest⟩ := hnew
      exact ⟨actions ++ before, call, email, token, now, after, by simp [hsplit], hrest⟩
    · exact (ih hu hold).concat hleaves

/-- A token that signs a user in has the hash of one that was requested for their address and has
not expired, and since the request neither a token with that hash has been presented nor another
link requested for the address. -/
theorem sign_in_spends_newest_link (settings : Settings) (actions : List Action) (s : State)
    (token address : Text) (now : ℕ) (hrun : exec (step settings) State.start actions = some s)
    (hsign : authenticate settings s token now = .ok address) :
    ∃ record, LinkOf settings actions (settings.hashSecret token) record ∧
      now < record.expiresAt ∧ settings.findByEmail record.email = some address := by
  unfold authenticate MagicLinkStore.consume at hsign
  cases hget : s.links.get (settings.hashSecret token) with
  | none => simp [hget] at hsign
  | some record =>
    have hlive : now < record.expiresAt := by
      by_contra hexp
      simp [hget, not_lt.mp hexp] at hsign
    refine ⟨record, link_of_run hrun hget, hlive, ?_⟩
    simp only [hget, if_neg (not_le.mpr hlive)] at hsign
    split at hsign
    · cases hsign
    · next hfind => rw [hfind, Except.ok.inj hsign]

/-- Of two links that were requested for an address the newer one signs in, also after the older
one has been presented. -/
theorem newer_link_signs_in :
    let actions : List Action :=
      [.request 0 ['u'] ['a'] 0, .request 1 ['u'] ['b'] 500, .authenticate ['a'] 600]
    ∃ s, exec (step sampleSettings) State.start actions = some s ∧
      authenticate sampleSettings s ['a'] 1000 = .error invalidMagicLink ∧
      ∃ record, LinkOf sampleSettings actions (sampleSettings.hashSecret ['b']) record ∧
        1000 < record.expiresAt ∧ sampleSettings.findByEmail record.email = some ['u'] :=
  ⟨_, rfl, rfl, sign_in_spends_newest_link sampleSettings _ _ ['b'] ['u'] 1000 rfl rfl⟩

end BoilerplateExpress.Auth.MagicLink

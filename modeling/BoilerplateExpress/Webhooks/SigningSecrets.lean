import BoilerplateExpress.Webhooks.Signature

/-!
# The ring of signing secrets

`parseWebhookSigningSecrets` of `webhooks/signing-secrets.ts`: a comma-separated list of
`id:base64` entries becomes a ring with one active entry. The base64 codec of the
platform is a parameter. A ring it returns holds only ids of the header's parameter
alphabet and secrets of 32 to 64 bytes.
-/
namespace BoilerplateExpress.Webhooks

/-- `Buffer.from(s, 'base64')` and `toString('base64')`. -/
structure Base64 where
  decode : Text → Bytes
  encode : Bytes → Text

structure WebhookSigningSecretError where
  message : String
  deriving DecidableEq, Repr

def minSecretBytes : ℕ := 32

def maxSecretBytes : ℕ := 64

/-- `KEY_ID_PATTERN`. -/
def isKeyId (s : Text) : Bool := 1 ≤ s.length && s.length ≤ 32 && s.all isNonceChar

structure WebhookSigningSecret where
  id : Text
  secret : Bytes

/-- The checks on the secret of an entry. -/
def checkSecret (base64 : Base64) (position : ℕ) (id encoded : Text) :
    Except WebhookSigningSecretError WebhookSigningSecret :=
  let secret := base64.decode encoded
  if base64.encode secret ≠ encoded then
    .error ⟨"entry " ++ toString position ++ " (\"" ++ String.ofList id ++
      "\") is not valid base64"⟩
  else if secret.length < minSecretBytes ∨ maxSecretBytes < secret.length then
    .error ⟨"entry " ++ toString position ++ " (\"" ++ String.ofList id ++ "\") decodes to " ++
      toString secret.length ++ " bytes; HMAC-SHA256 secrets here must be 32-64 bytes"⟩
  else .ok ⟨id, secret⟩

def parseEntry (base64 : Base64) (raw : Text) (position : ℕ) :
    Except WebhookSigningSecretError WebhookSigningSecret :=
  match Text.cut ':' raw with
  | none | some ([], _) => .error ⟨"entry " ++ toString position ++
      " is not in \"<key-id>:<base64-secret>\" form (no \":\" separating an id from its secret)"⟩
  | some (id, encoded) =>
    if ¬ isKeyId id then
      .error ⟨"entry " ++ toString position ++ " has key id \"" ++ String.ofList id ++
        "\", which is not 1-32 characters of [A-Za-z0-9_.-]"⟩
    else checkSecret base64 position id encoded

/-- The loop over the entries, which refuses a repeated id. -/
def parseEntries (base64 : Base64) :
    List Text → ℕ → OrderedMap Text Bytes →
      Except WebhookSigningSecretError (OrderedMap Text Bytes)
  | [], _, byId => .ok byId
  | raw :: rest, position, byId => do
    let entry ← parseEntry base64 raw position
    if byId.has entry.id then
      throw ⟨"declares key id \"" ++ String.ofList entry.id ++ "\" more than once"⟩
    parseEntries base64 rest (position + 1) (byId.set entry.id entry.secret)

def selectActive (byId : OrderedMap Text Bytes) (activeKeyId : Text) :
    Except WebhookSigningSecretError WebhookSigningSecretRing :=
  if h : (byId.get activeKeyId).isSome then .ok ⟨activeKeyId, byId, h⟩
  else .error ⟨"names active key id \"" ++ String.ofList activeKeyId ++
    "\", which the ring does not hold (it holds: " ++
    ", ".intercalate (byId.entries.map (fun e => String.ofList e.1)) ++ ")"⟩

def parseWebhookSigningSecrets (base64 : Base64) (spec activeKeyId : Text) :
    Except WebhookSigningSecretError WebhookSigningSecretRing := do
  let entries := ((spec.splitOn ',').map Text.trim).filter (fun entry => decide (entry ≠ []))
  if entries = [] then throw ⟨"holds no entries"⟩
  let byId ← parseEntries base64 entries 1 OrderedMap.empty
  selectActive byId activeKeyId

/-- What the parser checks of every entry. -/
def ValidEntry (id : Text) (secret : Bytes) : Prop :=
  isKeyId id = true ∧ minSecretBytes ≤ secret.length ∧ secret.length ≤ maxSecretBytes

lemma parseEntry_valid (base64 : Base64) (raw : Text) (position : ℕ)
    (entry : WebhookSigningSecret) (h : parseEntry base64 raw position = .ok entry) :
    ValidEntry entry.id entry.secret := by
  unfold parseEntry at h
  split at h
  · cases h
  · cases h
  · split_ifs at h with hid
    unfold checkSecret at h
    dsimp only at h
    split_ifs at h with hbase hlength
    cases h
    obtain ⟨hmin, hmax⟩ := not_or.mp hlength
    exact ⟨by simpa using hid, not_lt.mp hmin, not_lt.mp hmax⟩

lemma parseEntries_valid (base64 entries position byId ring)
    (hbyId : ∀ id secret, byId.get id = some secret → ValidEntry id secret)
    (h : parseEntries base64 entries position byId = .ok ring) :
    ∀ id secret, ring.get id = some secret → ValidEntry id secret := by
  induction entries generalizing position byId with
  | nil =>
    cases h
    exact hbyId
  | cons raw rest ih =>
    obtain ⟨entry, hentry, hrest⟩ := bind_eq_ok h
    split_ifs at hrest with hhas
    · cases hrest
    · refine ih (position + 1) (byId.set entry.id entry.secret) ?_ hrest
      intro id secret hget
      rcases OrderedMap.get_set_eq_some.mp hget with ⟨rfl, rfl⟩ | ⟨_, hold⟩
      · exact parseEntry_valid base64 raw position entry hentry
      · exact hbyId id secret hold

lemma parseWebhookSigningSecrets_valid {base64 spec activeKeyId ring}
    (h : parseWebhookSigningSecrets base64 spec activeKeyId = .ok ring) :
    ∀ id secret, ring.find id = some secret → ValidEntry id secret := by
  unfold parseWebhookSigningSecrets at h
  dsimp only at h
  split_ifs at h with hemp
  · cases h
  · obtain ⟨byId, hbyId, hsel⟩ := bind_eq_ok h
    unfold selectActive at hsel
    split_ifs at hsel with hact
    cases hsel
    exact parseEntries_valid base64 _ 1 OrderedMap.empty byId (by simp) hbyId

end BoilerplateExpress.Webhooks

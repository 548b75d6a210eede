import BoilerplateExpress.Errors
import BoilerplateExpress.OrderedMap

/-!
# The webhook signature header and the string that is signed

The wire format of `webhooks/signature.ts`: taking the header apart, rebuilding
the canonical string, and comparing digests. The two hash functions are
parameters; nothing below depends on which functions they are.
-/
namespace BoilerplateExpress.Webhooks

/-- SHA-256 of bytes and HMAC-SHA256 of text under a secret, both in hex. -/
structure Digests where
  sha256 : Bytes → Text
  hmac : Bytes → Text → Text

/-- The refusals of the receiving side. -/
inductive WebhookError where
  | signatureRequired (headerName : String)
  | signatureMalformed (reason : String)
  | rawBodyMissing
  | timestampOutOfWindow (skewSeconds : ℤ) (toleranceSeconds : ℚ)
  | unknownKeyId
  | digestMismatch
  | replayed
  | replayCacheFull (retryAfterSeconds : ℚ)
  | bodyMalformed (reason : String)
  deriving DecidableEq

def webhookSignatureHeader : String := "x-webhook-signature"

def webhookSignatureVersion : Text := ['v', '1']

def digestHexLength : ℕ := 64

def isHexDigit (c : Char) : Bool := Text.isDigit c || ('a' ≤ c && c ≤ 'f')

/-- `HEX_PATTERN`. -/
def isHex (s : Text) : Bool := s ≠ [] && s.all isHexDigit

/-- `UNSIGNED_INTEGER_PATTERN`. -/
def isUnsignedInteger (s : Text) : Bool := 1 ≤ s.length && s.length ≤ 15 && s.all Text.isDigit

def isNonceChar (c : Char) : Bool := Text.isAlphanumeric c || c == '_' || c == '.' || c == '-'

/-- `NONCE_PATTERN`. -/
def isNonce (s : Text) : Bool := 16 ≤ s.length && s.length ≤ 64 && s.all isNonceChar

structure WebhookSigningParts where
  timestamp : ℕ
  nonce : Text
  method : Text
  target : Text
  body : Bytes

structure ParsedWebhookSignature where
  timestamp : ℕ
  nonce : Text
  keyId : Text
  digest : Text
  deriving DecidableEq

def bodyDigest (digests : Digests) (body : Bytes) : Text := digests.sha256 body

/-- The exact string the HMAC is taken over. The timestamp is a natural number
here, so the first check of the source cannot fail. -/
def canonicalRequest (digests : Digests) (parts : WebhookSigningParts) :
    Except WebhookError Text :=
  if ¬ isNonce parts.nonce then
    .error (.signatureMalformed "nonce must be 16-64 characters of [A-Za-z0-9_.-]")
  else if parts.target.any (fun c => c == '\r' || c == '\n') then
    .error (.signatureMalformed "target must not contain CR or LF")
  else
    .ok (['\n'].intercalate [webhookSignatureVersion, Text.natToText parts.timestamp, parts.nonce,
      parts.method.map Char.toUpper, parts.target, bodyDigest digests parts.body])

def computeDigest (digests : Digests) (secret : Bytes) (canonical : Text) : Text :=
  digests.hmac secret canonical

/-- The loop over the comma-separated fields. A repeated name is refused. -/
def parseFields : List Text → OrderedMap Text Text → Except WebhookError (OrderedMap Text Text)
  | [], parameters => .ok parameters
  | field :: fields, parameters =>
    let trimmed := Text.trim field
    if trimmed = [] then parseFields fields parameters
    else
      let name := trimmed.takeWhile (fun c => c ≠ '=')
      if name = [] ∨ name = trimmed then
        .error (.signatureMalformed ("every field must be \"<name>=<value>\"; expected " ++
          "t=<unix-seconds>,n=<nonce>,kid=<key-id>,v1=<hex-digest>"))
      else if parameters.has name then
        .error (.signatureMalformed ("field \"" ++ String.ofList name ++ "\" appears more than once"))
      else parseFields fields (parameters.set name (trimmed.drop (name.length + 1)))

def requiredField (parameters : OrderedMap Text Text) (name : Text) : Except WebhookError Text :=
  match parameters.get name with
  | some value => .ok value
  | none => .error (.signatureMalformed ("field \"" ++ String.ofList name ++ "\" is missing"))

/-- Takes a header value apart. Unknown parameters are ignored. -/
def parseSignatureHeader (raw : Text) : Except WebhookError ParsedWebhookSignature := do
  let parameters ← parseFields (raw.splitOn ',') OrderedMap.empty
  let rawTimestamp ← requiredField parameters ['t']
  let nonce ← requiredField parameters ['n']
  let keyId ← requiredField parameters ['k', 'i', 'd']
  let digest ← requiredField parameters webhookSignatureVersion
  if ¬ isUnsignedInteger rawTimestamp then
    throw (.signatureMalformed ("field \"t\" must be unix seconds as plain digits, got \"" ++
      String.ofList rawTimestamp ++ "\""))
  if ¬ isNonce nonce then
    throw (.signatureMalformed "field \"n\" must be 16-64 characters of [A-Za-z0-9_.-]")
  if digest.length ≠ digestHexLength ∨ ¬ isHex digest then
    throw (.signatureMalformed "field \"v1\" must be 64 lowercase hex characters")
  return { timestamp := Text.digitsToNat rawTimestamp, nonce, keyId, digest }

/-- The text of the `t` parameter of a header. -/
def timestampText (raw : Text) : Option Text :=
  (parseFields (raw.splitOn ',') OrderedMap.empty).toOption.bind
    (fun parameters => parameters.get ['t'])

/-- No zero to spare in front. -/
def PlainNumeral (text : Text) : Prop := text.head? = some '0' → text = ['0']

lemma requiredField_ok {parameters name value} (h : requiredField parameters name = .ok value) :
    parameters.get name = some value := by
  unfold requiredField at h
  split at h
  · rename_i found hget
    rw [hget, Except.ok.inj h]
  · cases h

/-- Where the timestamp of an accepted header comes from, and the shape of its digest. -/
lemma parseSignatureHeader_ok {raw parsed} (h : parseSignatureHeader raw = .ok parsed) :
    (∃ text, timestampText raw = some text ∧ isUnsignedInteger text ∧
      parsed.timestamp = Text.digitsToNat text) ∧
      parsed.digest.length = digestHexLength ∧ isHex parsed.digest := by
  obtain ⟨parameters, hfs, h⟩ := bind_eq_ok h
  obtain ⟨text, htext, h⟩ := bind_eq_ok h
  obtain ⟨nonce, -, h⟩ := bind_eq_ok h
  obtain ⟨keyId, -, h⟩ := bind_eq_ok h
  obtain ⟨digest, -, h⟩ := bind_eq_ok h
  dsimp only at h
  split at h
  · cases h
  rename_i hint
  split at h
  · cases h
  split at h
  · cases h
  rename_i hdgst
  cases h
  obtain ⟨hlen, hhex⟩ := not_or.mp hdgst
  refine ⟨⟨text, ?_, not_not.mp hint, rfl⟩, not_not.mp hlen, not_not.mp hhex⟩
  simp [timestampText, hfs, Except.toOption, requiredField_ok htext]

/-- An accepted header spells its timestamp as the number is written exactly if there is no zero to
spare in front, and headers that do so spell one timestamp alike. -/
theorem timestamp_spelling_iff (raw : Text) (parsed : ParsedWebhookSignature)
    (h : parseSignatureHeader raw = .ok parsed) :
    ∃ text, timestampText raw = some text ∧
      (Text.natToText parsed.timestamp = text ↔ PlainNumeral text) ∧
      ∀ raw' parsed' text', parseSignatureHeader raw' = .ok parsed' →
        timestampText raw' = some text' → parsed'.timestamp = parsed.timestamp →
        PlainNumeral text → PlainNumeral text' → text' = text := by
  have hiff : ∀ {raw parsed}, parseSignatureHeader raw = .ok parsed → ∃ text,
      timestampText raw = some text ∧
        (Text.natToText parsed.timestamp = text ↔ PlainNumeral text) := by
    intro raw parsed h
    obtain ⟨⟨text, htext, hint, hvalue⟩, -⟩ := parseSignatureHeader_ok h
    simp only [isUnsignedInteger, Bool.and_eq_true, decide_eq_true_eq, List.all_eq_true]
      at hint
    refine ⟨text, htext, ?_⟩
    rw [hvalue]
    exact Text.natToText_digitsToNat_iff (List.ne_nil_of_length_pos hint.1.1) hint.2
  obtain ⟨text, htext, hspel⟩ := hiff h
  refine ⟨text, htext, hspel, ?_⟩
  intro raw' parsed' text' h' htext' hts hplain hplain'
  obtain ⟨found, hfound, hspel'⟩ := hiff h'
  obtain rfl : found = text' := Option.some.inj (hfound.symm.trans htext')
  rw [← hspel.mpr hplain, ← hspel'.mpr hplain', hts]

/-- A header with the given timestamp. -/
def sampleHeader (timestamp : Text) : Text :=
  "t=".toList ++ timestamp ++ ",n=0123456789abcdef,kid=k1,v1=".toList ++ List.replicate 64 '0'

theorem timestamp_spelling_of_42 :
    parseSignatureHeader (sampleHeader ['4', '2']) =
      .ok ⟨42, "0123456789abcdef".toList, ['k', '1'], List.replicate 64 '0'⟩ ∧
    ∃ text, timestampText (sampleHeader ['4', '2']) = some text ∧
      (Text.natToText 42 = text ↔ PlainNumeral text) := by
  have h : parseSignatureHeader (sampleHeader ['4', '2']) =
      .ok ⟨42, "0123456789abcdef".toList, ['k', '1'], List.replicate 64 '0'⟩ := by decide +kernel
  obtain ⟨text, htext, hspelled, -⟩ := timestamp_spelling_iff _ _ h
  exact ⟨h, text, htext, hspelled⟩

/-- `t=042` and `t=42` are one timestamp in two spellings. -/
theorem zero_in_front_accepted :
    ∃ parsed, parseSignatureHeader (sampleHeader ['0', '4', '2']) = .ok parsed ∧
      parseSignatureHeader (sampleHeader ['4', '2']) = .ok parsed ∧
      timestampText (sampleHeader ['0', '4', '2']) = some ['0', '4', '2'] ∧
      Text.natToText parsed.timestamp = ['4', '2'] :=
  ⟨⟨42, "0123456789abcdef".toList, ['k', '1'], List.replicate 64 '0'⟩, by decide +kernel,
    by decide +kernel, by decide +kernel, by decide +kernel⟩

/-- `Buffer.from(s, 'hex')`: pairs of digits, up to the first pair that is none. -/
def hexBytes : Text → List ℕ
  | a :: b :: rest =>
    match Text.hexValue a, Text.hexValue b with
    | some x, some y => (16 * x + y) :: hexBytes rest
    | _, _ => []
  | _ => []

def digestsMatch (expected presented : Text) : Bool :=
  if expected.length ≠ presented.length then false
  else if (hexBytes expected).length ≠ (hexBytes presented).length then false
  else if (hexBytes expected).length = 0 then false
  else decide (hexBytes expected = hexBytes presented)

/-- The secrets a receiver verifies under; the active id names one of them. -/
structure WebhookSigningSecretRing where
  activeKeyId : Text
  byId : OrderedMap Text Bytes
  active_held : (byId.get activeKeyId).isSome

def WebhookSigningSecretRing.find (ring : WebhookSigningSecretRing) (keyId : Text) :
    Option Bytes := ring.byId.get keyId

end BoilerplateExpress.Webhooks

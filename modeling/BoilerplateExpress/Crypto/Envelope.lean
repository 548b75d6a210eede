import BoilerplateExpress.Text

/-!
# The stored form of an encrypted field

`crypto/envelope.ts`: a version byte, the length of the key id, the key id, and the
parts of fixed size in order; what is left is the ciphertext. An `Envelope` carries
the sizes of its parts.
-/
namespace BoilerplateExpress.Crypto

open List

/-- The two error families of a stored field. -/
inductive FieldError where
  | envelopeFormat (message : Text)
  | fieldDecryption (message : Text)
  deriving DecidableEq, Repr

def envelopeFormatVersion : ℕ := 1

def ivBytes : ℕ := 12

def tagBytes : ℕ := 16

def dataKeyBytes : ℕ := 32

def headerBytes : ℕ := 2

structure Envelope where
  keyId : Text
  wrapIv : Bytes
  wrapTag : Bytes
  wrappedKey : Bytes
  iv : Bytes
  tag : Bytes
  ciphertext : Bytes
  wrapIv_length : wrapIv.length = ivBytes
  wrapTag_length : wrapTag.length = tagBytes
  wrappedKey_length : wrappedKey.length = dataKeyBytes
  iv_length : iv.length = ivBytes
  tag_length : tag.length = tagBytes

/-- The bytes after the header. -/
def Envelope.body (e : Envelope) : Bytes :=
  e.wrapIv ++ (e.wrapTag ++ (e.wrappedKey ++ (e.iv ++ (e.tag ++ e.ciphertext))))

def encodeEnvelope (e : Envelope) : Except FieldError Bytes :=
  let keyId := Text.ascii e.keyId
  if keyId.length = 0 ∨ keyId.length > 255 then
    .error (.envelopeFormat
      ("key id must be 1-255 bytes, got ".toList ++ Text.natToText keyId.length))
  else .ok (UInt8.ofNat envelopeFormatVersion :: UInt8.ofNat keyId.length :: (keyId ++ e.body))

/-- The bytes of an envelope in front of its ciphertext, after the key id. -/
def fixedBodyBytes : ℕ := ivBytes + tagBytes + dataKeyBytes + ivBytes + tagBytes

/-- Cuts the parts of fixed size out of the bytes after the key id. -/
def splitBody (keyId : Text) (body : Bytes) (h : fixedBodyBytes ≤ body.length) : Envelope where
  keyId := keyId
  wrapIv := body.take 12
  wrapTag := (body.drop 12).take 16
  wrappedKey := (body.drop 28).take 32
  iv := (body.drop 60).take 12
  tag := (body.drop 72).take 16
  ciphertext := body.drop 88
  wrapIv_length := by
    simp only [fixedBodyBytes, ivBytes, tagBytes, dataKeyBytes] at h ⊢
    rw [List.length_take]
    omega
  wrapTag_length := by
    simp only [fixedBodyBytes, ivBytes, tagBytes, dataKeyBytes] at h ⊢
    rw [List.length_take, List.length_drop]
    omega
  wrappedKey_length := by
    simp only [fixedBodyBytes, ivBytes, tagBytes, dataKeyBytes] at h ⊢
    rw [List.length_take, List.length_drop]
    omega
  iv_length := by
    simp only [fixedBodyBytes, ivBytes, tagBytes, dataKeyBytes] at h ⊢
    rw [List.length_take, List.length_drop]
    omega
  tag_length := by
    simp only [fixedBodyBytes, ivBytes, tagBytes, dataKeyBytes] at h ⊢
    rw [List.length_take, List.length_drop]
    omega

/-- Every length is checked before it is sliced. -/
def decodeEnvelope (bytes : Bytes) : Except FieldError Envelope :=
  match bytes with
  | version :: keyIdLength :: rest =>
    if version.toNat ≠ envelopeFormatVersion then
      .error (.envelopeFormat ("format version ".toList ++ Text.natToText version.toNat ++
        " is not supported by this build (expected ".toList ++
        Text.natToText envelopeFormatVersion ++ [')']))
    else if keyIdLength.toNat = 0 then
      .error (.envelopeFormat "key id is empty".toList)
    else if h : headerBytes + rest.length < headerBytes + keyIdLength.toNat + fixedBodyBytes then
      .error (.envelopeFormat (Text.natToText (headerBytes + rest.length) ++
        " bytes cannot hold a ".toList ++
        Text.natToText (headerBytes + keyIdLength.toNat + fixedBodyBytes) ++
        "-byte header for a ".toList ++ Text.natToText keyIdLength.toNat ++
        "-byte key id".toList))
    else
      .ok (splitBody (Text.ofAscii (rest.take keyIdLength.toNat)) (rest.drop keyIdLength.toNat)
        (by rw [List.length_drop]; omega))
  | short =>
    .error (.envelopeFormat (Text.natToText short.length ++
      " bytes is shorter than the header".toList))

lemma fixedBodyBytes_le (e : Envelope) : fixedBodyBytes ≤ e.body.length := by
  simp only [Envelope.body, length_append, e.wrapIv_length, e.wrapTag_length,
    e.wrappedKey_length, e.iv_length, e.tag_length, fixedBodyBytes]
  omega

lemma splitBody_body {e} (h) : splitBody e.keyId e.body h = e := by
  have h1 := e.wrapIv_length
  have h2 := e.wrapTag_length
  have h3 := e.wrappedKey_length
  have h4 := e.iv_length
  have h5 := e.tag_length
  simp only [ivBytes, tagBytes, dataKeyBytes] at h1 h2 h3 h4 h5
  have hdrop12 : e.body.drop 12 = e.wrapTag ++ (e.wrappedKey ++ (e.iv ++ (e.tag ++ e.ciphertext))) := by
    rw [Envelope.body, ← h1, drop_left]
  have hdrop28 : e.body.drop 28 = e.wrappedKey ++ (e.iv ++ (e.tag ++ e.ciphertext)) := by
    rw [show 28 = 12 + 16 from rfl, ← drop_drop, hdrop12, ← h2, drop_left]
  have hdrop60 : e.body.drop 60 = e.iv ++ (e.tag ++ e.ciphertext) := by
    rw [show 60 = 28 + 32 from rfl, ← drop_drop, hdrop28, ← h3, drop_left]
  have hdrop72 : e.body.drop 72 = e.tag ++ e.ciphertext := by
    rw [show 72 = 60 + 12 from rfl, ← drop_drop, hdrop60, ← h4, drop_left]
  have hdrop88 : e.body.drop 88 = e.ciphertext := by
    rw [show 88 = 72 + 16 from rfl, ← drop_drop, hdrop72, ← h5, drop_left]
  have htake12 : e.body.take 12 = e.wrapIv := by rw [Envelope.body, ← h1, take_left]
  have htake16 : (e.wrapTag ++ (e.wrappedKey ++ (e.iv ++ (e.tag ++ e.ciphertext)))).take 16 =
      e.wrapTag := by rw [← h2, take_left]
  have htake32 : (e.wrappedKey ++ (e.iv ++ (e.tag ++ e.ciphertext))).take 32 = e.wrappedKey := by
    rw [← h3, take_left]
  have htakeIv : (e.iv ++ (e.tag ++ e.ciphertext)).take 12 = e.iv := by rw [← h4, take_left]
  have htak : (e.tag ++ e.ciphertext).take 16 = e.tag := by rw [← h5, take_left]
  simp [splitBody, hdrop12, hdrop28, hdrop60, hdrop72, hdrop88, htake12, htake16, htake32, htakeIv,
    htak]

lemma body_splitBody {body} (keyId) (h) : (splitBody keyId body h).body = body := by
  have hcut (n m : ℕ) : (body.drop n).take m ++ body.drop (n + m) = body.drop n := by
    rw [← drop_drop, take_append_drop]
  have hiv := hcut 60 12
  have htag := hcut 72 16
  have hwrapT := hcut 12 16
  have hwrap := hcut 28 32
  show body.take 12 ++ ((body.drop 12).take 16 ++ ((body.drop 28).take 32 ++
    ((body.drop 60).take 12 ++ ((body.drop 72).take 16 ++ body.drop 88)))) = body
  rw [htag, hiv, hwrap, hwrapT, take_append_drop]

/-- The bytes of an envelope whose key id is spelt with these bytes. -/
def spell (keyId : Bytes) (e : Envelope) : Bytes :=
  UInt8.ofNat envelopeFormatVersion :: UInt8.ofNat keyId.length :: (keyId ++ e.body)

/-- A decoded envelope is stored with a key id of 1 to 255 bytes, which the decoder reads
without their top bits. -/
theorem decodeEnvelope_eq_ok_iff (bytes e) :
    decodeEnvelope bytes = .ok e ↔ ∃ keyId, bytes = spell keyId e ∧
      Text.ofAscii keyId = e.keyId ∧ 1 ≤ keyId.length ∧ keyId.length ≤ 255 := by
  constructor
  · intro h
    unfold decodeEnvelope at h
    split at h
    · next version keyIdLength rest =>
        split_ifs at h with hver hemp hshort
        cases h
        have hlen : (rest.take keyIdLength.toNat).length = keyIdLength.toNat := by
          rw [length_take]
          omega
        have hbyte := keyIdLength.toNat_lt
        refine ⟨rest.take keyIdLength.toNat, ?_, rfl, by omega, by omega⟩
        have hone : version = UInt8.ofNat envelopeFormatVersion := by
          rw [← not_not.mp hver, UInt8.ofNat_toNat]
        rw [spell, body_splitBody, take_append_drop, hlen, UInt8.ofNat_toNat, hone]
    · cases h
  · rintro ⟨keyId, rfl, hascii, hpos, hlen⟩
    have hver : (UInt8.ofNat envelopeFormatVersion).toNat = envelopeFormatVersion := rfl
    have hkeyId : (UInt8.ofNat keyId.length).toNat = keyId.length := by
      rw [UInt8.toNat_ofNat']
      omega
    have hbody := fixedBodyBytes_le e
    unfold decodeEnvelope spell
    simp only [hver, hkeyId, ne_eq, not_true_eq_false, if_false, length_append,
      take_left, drop_left, hascii]
    rw [if_neg (by omega), dif_neg (by omega), splitBody_body]

/-- An envelope with an ASCII key id of 1 to 255 characters is stored and read back. -/
theorem decodeEnvelope_encodeEnvelope {e bytes} (hascii : ∀ c ∈ e.keyId, c.toNat < 128)
    (h : encodeEnvelope e = .ok bytes) : decodeEnvelope bytes = .ok e := by
  unfold encodeEnvelope at h
  simp only [Text.length_ascii] at h
  split_ifs at h with hlen
  rw [not_or, not_lt] at hlen
  cases h
  rw [decodeEnvelope_eq_ok_iff]
  refine ⟨Text.ascii e.keyId, ?_, Text.ofAscii_ascii hascii, ?_, ?_⟩
  · rw [spell, Text.length_ascii]
  · rw [Text.length_ascii]
    omega
  · rw [Text.length_ascii]
    exact hlen.2

end BoilerplateExpress.Crypto

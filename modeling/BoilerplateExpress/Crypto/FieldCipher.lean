import BoilerplateExpress.Crypto.Envelope
import BoilerplateExpress.Crypto.Keyring
import BoilerplateExpress.Errors

/-!
# Envelope encryption of single fields

`createFieldCipher` of `crypto/field-cipher.ts`. A value is sealed under a data key of
its own, and the data key is sealed under the active key of the ring; both seals are
bound to the place of the value. The AEAD cipher is a parameter that opens what it
sealed. Random bytes are arguments.
-/
namespace BoilerplateExpress.Crypto

/-- AES-256-GCM: `encipher key iv aad plaintext` is the ciphertext and the tag. -/
structure Aead where
  encipher : Bytes → Bytes → Bytes → Bytes → Bytes × Bytes
  decipher : Bytes → Bytes → Bytes → Bytes → Bytes → Option Bytes
  decipher_encipher : ∀ key iv aad plaintext,
    decipher key iv aad (encipher key iv aad plaintext).1 (encipher key iv aad plaintext).2 = some plaintext
  ciphertext_length : ∀ key iv aad plaintext,
    (encipher key iv aad plaintext).1.length = plaintext.length
  tag_length : ∀ key iv aad plaintext, (encipher key iv aad plaintext).2.length = tagBytes

abbrev Iv := { b : Bytes // b.length = ivBytes }

abbrev DataKey := { b : Bytes // b.length = dataKeyBytes }

structure FieldContext where
  table : Text
  column : Text
  id : Text

/-- The cipher over a ring. `lossyText` is what Node's decoder makes of bytes that
are not well-formed UTF-8. -/
structure FieldCipher where
  aead : Aead
  keyring : Keyring
  lossyText : Bytes → Text

def nul : Char := Char.ofNat 0

def checkContextPart (name : String) (value : Text) : Except FieldError Unit :=
  if value.length = 0 then
    .error (.fieldDecryption ("context.".toList ++ name.toList ++ " is empty".toList))
  else if nul ∈ value then
    .error (.fieldDecryption ("context.".toList ++ name.toList ++ " contains a NUL byte".toList))
  else .ok ()

def encodeFieldContext (context : FieldContext) : Except FieldError Bytes := do
  checkContextPart "table" context.table
  checkContextPart "column" context.column
  checkContextPart "id" context.id
  .ok (Text.utf8 (context.table ++ nul :: context.column ++ nul :: context.id))

def wrapAad (keyId : Text) (context : Bytes) : Bytes :=
  Text.utf8 ("dek".toList ++ nul :: Text.natToText envelopeFormatVersion ++ nul :: keyId ++ [nul])
    ++ context

def payloadAad (context : Bytes) : Bytes := Text.utf8 ("field".toList ++ [nul]) ++ context

/-- The sealed value of an envelope, without the wrap of its data key. -/
structure Payload where
  iv : Iv
  tag : { b : Bytes // b.length = tagBytes }
  ciphertext : Bytes

def Envelope.payload (e : Envelope) : Payload := ⟨⟨e.iv, e.iv_length⟩, ⟨e.tag, e.tag_length⟩,
  e.ciphertext⟩

namespace FieldCipher

/-- Wraps a data key under the active key, around a payload. -/
def wrapDataKey (c : FieldCipher) (dataKey : DataKey) (context : Bytes) (wrapIv : Iv)
    (payload : Payload) : Envelope where
  keyId := c.keyring.activeKeyId
  wrapIv := wrapIv.1
  wrapTag := (c.aead.encipher c.keyring.activeKey wrapIv.1 (wrapAad c.keyring.activeKeyId context)
    dataKey.1).2
  wrappedKey := (c.aead.encipher c.keyring.activeKey wrapIv.1 (wrapAad c.keyring.activeKeyId context)
    dataKey.1).1
  iv := payload.iv.1
  tag := payload.tag.1
  ciphertext := payload.ciphertext
  wrapIv_length := wrapIv.2
  wrapTag_length := c.aead.tag_length _ _ _ _
  wrappedKey_length := by rw [c.aead.ciphertext_length]; exact dataKey.2
  iv_length := payload.iv.2
  tag_length := payload.tag.2

def unwrapDataKey (c : FieldCipher) (e : Envelope) (context : Bytes) : Except FieldError DataKey :=
  match c.keyring.find e.keyId with
  | none => .error (.fieldDecryption ("it names key \"".toList ++ e.keyId ++
      "\", which this deployment's key ring does not hold".toList))
  | some key =>
    match c.aead.decipher key e.wrapIv (wrapAad e.keyId context) e.wrappedKey e.wrapTag with
    | none => .error (.fieldDecryption
        "the wrapped data key failed authentication — wrong key, wrong row, or altered bytes".toList)
    | some dataKey =>
      if h : dataKey.length = dataKeyBytes then .ok ⟨dataKey, h⟩
      else .error (.fieldDecryption ("the unwrapped data key is ".toList ++
        Text.natToText dataKey.length ++ " bytes, not ".toList ++
        Text.natToText dataKeyBytes))

def openPayload (c : FieldCipher) (dataKey : DataKey) (context : Bytes) (payload : Payload) :
    Except FieldError Bytes :=
  match c.aead.decipher dataKey.1 payload.iv.1 (payloadAad context) payload.ciphertext
    payload.tag.1 with
  | none => .error (.fieldDecryption
      "the payload failed authentication — the stored bytes have been altered".toList)
  | some plaintext => .ok plaintext

def decrypt (c : FieldCipher) (stored : Bytes) (context : FieldContext) :
    Except FieldError Bytes := do
  let aad ← encodeFieldContext context
  let envelope ← decodeEnvelope stored
  let dataKey ← c.unwrapDataKey envelope aad
  c.openPayload dataKey aad envelope.payload

def decryptText (c : FieldCipher) (stored : Bytes) (context : FieldContext) :
    Except FieldError Text := do
  let plaintext ← c.decrypt stored context
  .ok ((Text.ofUtf8 plaintext).getD (c.lossyText plaintext))

def sealPayload (c : FieldCipher) (dataKey : DataKey) (iv : Iv) (context plaintext : Bytes) :
    Payload where
  iv := iv
  tag := ⟨(c.aead.encipher dataKey.1 iv.1 (payloadAad context) plaintext).2, c.aead.tag_length _ _ _ _⟩
  ciphertext := (c.aead.encipher dataKey.1 iv.1 (payloadAad context) plaintext).1

/-- The random bytes of one `encrypt`. -/
structure Randomness where
  dataKey : DataKey
  iv : Iv
  wrapIv : Iv

def encrypt (c : FieldCipher) (plaintext : Text) (context : FieldContext) (random : Randomness) :
    Except FieldError Bytes := do
  let aad ← encodeFieldContext context
  encodeEnvelope (c.wrapDataKey random.dataKey aad random.wrapIv
    (c.sealPayload random.dataKey random.iv aad (Text.utf8 plaintext)))

def rewrap (c : FieldCipher) (stored : Bytes) (context : FieldContext) (wrapIv : Iv) :
    Except FieldError Bytes := do
  let aad ← encodeFieldContext context
  let envelope ← decodeEnvelope stored
  let dataKey ← c.unwrapDataKey envelope aad
  encodeEnvelope (c.wrapDataKey dataKey aad wrapIv envelope.payload)

def needsRewrap (c : FieldCipher) (stored : Bytes) : Except FieldError Bool := do
  let envelope ← decodeEnvelope stored
  .ok (decide (envelope.keyId ≠ c.keyring.activeKeyId))

lemma unwrapDataKey_wrapDataKey (c d : FieldCipher) (haead : d.aead = c.aead)
    (hfind : d.keyring.find c.keyring.activeKeyId = some c.keyring.activeKey)
    (dataKey context wrapIv payload) :
    d.unwrapDataKey (c.wrapDataKey dataKey context wrapIv payload) context = .ok dataKey := by
  unfold unwrapDataKey
  simp [wrapDataKey, hfind, haead, c.aead.decipher_encipher, dataKey.2]

/-- A ring has no key id that the encoder refuses. -/
lemma encodeEnvelope_wrapDataKey (c : FieldCipher) (dataKey context wrapIv payload) :
    encodeEnvelope (c.wrapDataKey dataKey context wrapIv payload) =
      .ok (spell (Text.ascii c.keyring.activeKeyId)
        (c.wrapDataKey dataKey context wrapIv payload)) := by
  have hid := (keyIdPattern_ascii (c.keyring.ids_valid _ _ c.keyring.active_held)).2
  have hkeyId : (c.wrapDataKey dataKey context wrapIv payload).keyId = c.keyring.activeKeyId := rfl
  rw [encodeEnvelope, hkeyId]
  simp only [Text.length_ascii]
  rw [if_neg (by omega), spell, Text.length_ascii]

variable {wrapIv : Iv}

lemma decodeEnvelope_wrapDataKey {dataKey context payload bytes} (c : FieldCipher)
    (h : encodeEnvelope (c.wrapDataKey dataKey context wrapIv payload) = .ok bytes) :
    decodeEnvelope bytes = .ok (c.wrapDataKey dataKey context wrapIv payload) := by
  have hid := c.keyring.ids_valid _ _ c.keyring.active_held
  exact decodeEnvelope_encodeEnvelope (keyIdPattern_ascii hid).1 h

variable {context : FieldContext}

lemma decrypt_wrapDataKey {aad dataKey payload bytes} (c : FieldCipher)
    (haad : encodeFieldContext context = .ok aad)
    (h : encodeEnvelope (c.wrapDataKey dataKey aad wrapIv payload) = .ok bytes) :
    c.decrypt bytes context = c.openPayload dataKey aad payload := by
  have hdec := c.decodeEnvelope_wrapDataKey h
  have hunw := unwrapDataKey_wrapDataKey c c rfl c.keyring.active_held dataKey aad wrapIv payload
  unfold decrypt
  simp only [haad, hdec, hunw, bind, Except.bind]
  rfl

variable {stored : Bytes}

lemma decryptText_encrypt {plaintext random} (c : FieldCipher)
    (h : c.encrypt plaintext context random = .ok stored) :
    c.decryptText stored context = .ok plaintext := by
  obtain ⟨aad, haad, henc⟩ := bind_eq_ok h
  rw [decryptText, c.decrypt_wrapDataKey haad henc]
  simp [openPayload, sealPayload, c.aead.decipher_encipher]

lemma decryptText_rewrap {rewrapped} (c : FieldCipher)
    (h : c.rewrap stored context wrapIv = .ok rewrapped) :
    c.decryptText rewrapped context = c.decryptText stored context := by
  obtain ⟨aad, haad, h⟩ := bind_eq_ok h
  obtain ⟨envelope, hdec, h⟩ := bind_eq_ok h
  obtain ⟨dataKey, hunw, henc⟩ := bind_eq_ok h
  rw [decryptText, c.decrypt_wrapDataKey haad henc]
  simp [decryptText, decrypt, haad, hdec, hunw]

end FieldCipher

/-! ### Two keys -/

/-- A tag that every input has a part in. -/
def checksum (key iv aad plaintext : Bytes) : Bytes :=
  List.replicate tagBytes ((key ++ iv ++ aad ++ plaintext).foldl (· + ·) 0)

/-- A cipher that satisfies the laws of an AEAD, to run samples with. -/
def checksumAead : Aead where
  encipher key iv aad plaintext := (plaintext, checksum key iv aad plaintext)
  decipher key iv aad ciphertext tag :=
    if tag = checksum key iv aad ciphertext then some ciphertext else none
  decipher_encipher _ _ _ _ := if_pos rfl
  ciphertext_length _ _ _ _ := rfl
  tag_length _ _ _ _ := List.length_replicate

/-- The keys `k1` and `k2`; the second is active once the ring is rotated. -/
def twoKeyRing (rotated : Bool) : Keyring where
  entries := ⟨[(['k', '1'], List.replicate 32 1), (['k', '2'], List.replicate 32 2)], by decide⟩
  activeKeyId := if rotated then ['k', '2'] else ['k', '1']
  activeKey := if rotated then List.replicate 32 2 else List.replicate 32 1
  active_held := by
    cases rotated with
    | false => rfl
    | true => rfl
  ids_valid := by
    intro id key hget
    rw [OrderedMap.get_eq_some] at hget
    simp only [List.mem_cons, Prod.mk.injEq, List.not_mem_nil, or_false] at hget
    rcases hget with ⟨rfl, _⟩ | ⟨rfl, _⟩
    · decide
    · decide
  keys_length := by
    intro id key hget
    rw [OrderedMap.get_eq_some] at hget
    simp only [List.mem_cons, Prod.mk.injEq, List.not_mem_nil, or_false] at hget
    rcases hget with ⟨_, rfl⟩ | ⟨_, rfl⟩
    · rfl
    · rfl

def phoneRandomness : FieldCipher.Randomness :=
  ⟨⟨List.replicate 32 3, rfl⟩, ⟨List.replicate 12 4, rfl⟩, ⟨List.replicate 12 5, rfl⟩⟩

/-- The cipher before and after `k2` became the active key. -/
def phoneCipher (aead : Aead) (rotated : Bool) : FieldCipher :=
  ⟨aead, twoKeyRing rotated, fun _ => []⟩

end BoilerplateExpress.Crypto

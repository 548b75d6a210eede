import BoilerplateExpress.Crypto.Sealing

/-!
# Altered envelopes

What `decryptField` makes of bytes that are not the ones `encryptField` stored. The header is
authenticated as it is decoded, and the decoder clears the top bit of every byte of the key id.
-/
namespace BoilerplateExpress.Crypto

open List

/-- The two forms differ at most in the top bits of the key id of the first. -/
def SameUpToTopBits (stored altered : Bytes) : Prop :=
  altered.take 2 = stored.take 2 ∧
    ((altered.drop 2).take (stored.getD 1 0).toNat).map (· % 128) =
      ((stored.drop 2).take (stored.getD 1 0).toNat).map (· % 128) ∧
    altered.drop (2 + (stored.getD 1 0).toNat) = stored.drop (2 + (stored.getD 1 0).toNat)

instance (stored altered : Bytes) : Decidable (SameUpToTopBits stored altered) :=
  inferInstanceAs (Decidable (_ ∧ _ ∧ _))

lemma ofAscii_eq_iff (a b) :
    Text.ofAscii a = Text.ofAscii b ↔ a.map (· % 128) = b.map (· % 128) := by
  have hinj : Function.Injective (fun x : UInt8 => Char.ofNat x.toNat) := by
    intro x y h
    have hx := JsString.toNat_ofNat x.toNat (.inl (x.toNat_lt.trans (by decide)))
    have hy := JsString.toNat_ofNat y.toNat (.inl (y.toNat_lt.trans (by decide)))
    exact UInt8.toNat_inj.mp (hx.symm.trans ((congrArg Char.toNat h).trans hy))
  have hascii (l : Bytes) :
      Text.ofAscii l = (l.map (· % 128)).map (fun x => Char.ofNat x.toNat) := by simp [Text.ofAscii]
  rw [hascii, hascii, (map_injective_iff.mpr hinj).eq_iff]

/-- Just the forms that agree up to the top bits decode to the same envelope. -/
lemma decodeEnvelope_spell_iff (e keyId altered) (hascii : Text.ofAscii keyId = e.keyId)
    (hpos : 1 ≤ keyId.length) (hleng : keyId.length ≤ 255) :
    decodeEnvelope altered = .ok e ↔ SameUpToTopBits (spell keyId e) altered := by
  have hbyte : ((spell keyId e).getD 1 0).toNat = keyId.length := by
    show (UInt8.ofNat keyId.length).toNat = keyId.length
    rw [UInt8.toNat_ofNat']
    omega
  have hbody : (spell keyId e).drop (2 + keyId.length) = e.body := by
    rw [← drop_drop]
    exact drop_left
  have hname : ((spell keyId e).drop 2).take keyId.length = keyId := take_left
  rw [decodeEnvelope_eq_ok_iff, SameUpToTopBits, hbyte, hbody, hname]
  constructor
  · rintro ⟨keyId', rfl, hascii', _, _⟩
    have hsame := (ofAscii_eq_iff keyId' keyId).mp (hascii'.trans hascii.symm)
    have hlen : keyId'.length = keyId.length := by simpa using congrArg List.length hsame
    refine ⟨by simp [spell, hlen], ?_, ?_⟩
    · rw [← hlen]
      exact (congrArg (List.map (· % 128)) take_left).trans hsame
    · rw [← hlen, ← drop_drop]
      exact drop_left
  · rintro ⟨hhead, hsame, htail⟩
    have hlen : ((altered.drop 2).take keyId.length).length = keyId.length := by
      simpa using congrArg List.length hsame
    refine ⟨(altered.drop 2).take keyId.length, ?_, ?_, by omega, by omega⟩
    · have hcut : altered = altered.take 2 ++ ((altered.drop 2).take keyId.length ++
          altered.drop (2 + keyId.length)) := by
        rw [← drop_drop, take_append_drop, take_append_drop]
      rw [hhead, htail] at hcut
      rw [spell, hlen]
      exact hcut
    · exact ((ofAscii_eq_iff _ keyId).mpr hsame).trans hascii

namespace FieldCipher

/-- What one `encryptField` seals. -/
def encryptSealings (c : FieldCipher) (plaintext : Plaintext) (context : JsFieldContext)
    (random : Randomness) : List Sealing :=
  match encodeJsFieldContext context with
  | .ok aad => [c.wrapSealing random.dataKey aad random.wrapIv,
      c.payloadSealing random.dataKey random.iv aad plaintext.bytes]
  | .error _ => []

end FieldCipher

/-- The additional data is that of a value stored under the context. -/
def SealedFor (context : JsFieldContext) (x : Sealing) : Prop :=
  ∃ aad, encodeJsFieldContext context = .ok aad ∧
    (x.aad = payloadAad aad ∨ ∃ keyId, x.aad = wrapAad keyId aad)

attribute [ext] Envelope

namespace FieldCipher

variable {c : FieldCipher} {plaintext : Plaintext} {context : JsFieldContext} {random : Randomness}
  {aad : Bytes}

/-- The envelope that `encryptField` stores. -/
def encryptedEnvelope (c : FieldCipher) (plaintext : Plaintext) (random : Randomness) (aad : Bytes) :
    Envelope :=
  c.wrapDataKey random.dataKey aad random.wrapIv
    (c.sealPayload random.dataKey random.iv aad plaintext.bytes)

lemma encryptField_eq_ok (haad : encodeJsFieldContext context = .ok aad) :
    c.encryptField plaintext context random = .ok (spell (Text.ascii c.keyring.activeKeyId)
      (c.encryptedEnvelope plaintext random aad)) := by
  rw [encryptField, haad]
  exact encodeEnvelope_wrapDataKey c _ _ _ _

/-- With no other sealing for the context, what decrypts is the envelope that was stored. -/
lemma envelope_of_decryptField {others altered opened}
    (haad : encodeJsFieldContext context = .ok aad) (hoth : ∀ x ∈ others, ¬ SealedFor context x)
    (hideal : c.NoForgery (c.encryptSealings plaintext context random ++ others) altered context)
    (h : c.decryptField altered context = .ok opened) :
    decodeEnvelope altered = .ok (c.encryptedEnvelope plaintext random aad) := by
  obtain ⟨aad', e, key, dataKey, haad', hdec, hfind, hop, hwrap, hpay⟩ :=
    sealed_of_decryptField hideal h
  obtain rfl : aad = aad' := Except.ok.inj (haad.symm.trans haad')
  have hown : c.encryptSealings plaintext context random =
      [c.wrapSealing random.dataKey aad random.wrapIv,
        c.payloadSealing random.dataKey random.iv aad plaintext.bytes] := by
    rw [encryptSealings, haad]
  obtain ⟨_, _, htext⟩ := encodeFieldContext_eq_ok ((encodeJsFieldContext_eq context).symm.trans haad)
  have hunw : unwrapCall e aad key = c.wrapSealing random.dataKey aad random.wrapIv := by
    rw [hown] at hwrap
    simp only [cons_append, mem_cons] at hwrap
    rcases hwrap with hwrap | hwrap | hwrap
    · exact hwrap
    · exact absurd (congrArg Sealing.aad hwrap) (wrapAad_ne_payloadAad _ _ _)
    · exact absurd ⟨aad, haad, .inr ⟨e.keyId, rfl⟩⟩ (hoth _ hwrap)
  simp only [unwrapCall, wrapSealing, Sealing.mk.injEq] at hunw
  obtain ⟨rfl, hwrapIv, hwrapAad, hwrapp, hwrapT⟩ := hunw
  have hkeyId : e.keyId = c.keyring.activeKeyId := by
    rw [htext] at hwrapAad
    exact (wrapAad_inj (nul_notMem_keyId hfind) (nul_notMem_activeKeyId c.keyring) hwrapAad).1
  have hdat : dataKey = random.dataKey := by
    rw [hwrapIv, hwrapAad, hwrapp, hwrapT, c.aead.decipher_encipher] at hop
    exact Subtype.ext (Option.some.inj hop).symm
  have hseal : payloadCall e aad dataKey =
      c.payloadSealing random.dataKey random.iv aad plaintext.bytes := by
    rw [hown] at hpay
    simp only [cons_append, mem_cons] at hpay
    rcases hpay with hpay | hpay | hpay
    · exact absurd (congrArg Sealing.aad hpay).symm (wrapAad_ne_payloadAad _ _ _)
    · exact hpay
    · exact absurd ⟨aad, haad, .inl rfl⟩ (hoth _ hpay)
  simp only [payloadCall, payloadSealing, Sealing.mk.injEq] at hseal
  obtain ⟨_, hiv, _, hcip, htag⟩ := hseal
  rw [hdec]
  exact congrArg Except.ok (Envelope.ext hkeyId hwrapIv hwrapT hwrapp hiv htag hcip)

/-- Whoever holds the key of the wrap reads what was sealed under the context. -/
lemma decryptField_of_decodeEnvelope {stored dataKey wrapIv iv bytes} {reader : FieldCipher}
    (haead : reader.aead = c.aead)
    (hholds : reader.keyring.find c.keyring.activeKeyId = some c.keyring.activeKey)
    (haad : encodeJsFieldContext context = .ok aad) (h : decodeEnvelope stored =
      .ok (c.wrapDataKey dataKey aad wrapIv (c.sealPayload dataKey iv aad bytes))) :
    reader.decryptField stored context = .ok bytes := by
  have hunw := unwrapDataKey_wrapDataKey c reader haead hholds dataKey aad wrapIv
    (c.sealPayload dataKey iv aad bytes)
  simp only [decryptField, haad, h, hunw, bind, Except.bind]
  simp [openPayload, wrapDataKey, Envelope.payload, sealPayload, haead, c.aead.decipher_encipher]

end FieldCipher

/-- With no other sealing for the context, altered bytes fail to decrypt unless they differ
from the stored ones in top bits of the key id alone. -/
theorem altered_field_fails_iff (c : FieldCipher) (plaintext : Plaintext) (context : JsFieldContext)
    (random : FieldCipher.Randomness) (stored altered : Bytes) (others : List Sealing)
    (hstored : c.encryptField plaintext context random = .ok stored)
    (hothers : ∀ x ∈ others, ¬ SealedFor context x)
    (hideal : c.NoForgery (c.encryptSealings plaintext context random ++ others) altered context) :
    (altered ≠ stored → ∃ e, c.decryptField altered context = .error e) ↔
      ¬ (altered ≠ stored ∧ SameUpToTopBits stored altered) := by
  obtain ⟨aad, haad, _⟩ := bind_eq_ok hstored
  have hid := keyIdPattern_ascii (c.keyring.ids_valid _ _ c.keyring.active_held)
  obtain rfl := Except.ok.inj ((FieldCipher.encryptField_eq_ok haad).symm.trans hstored)
  have hsame := decodeEnvelope_spell_iff (c.encryptedEnvelope plaintext random aad)
    (Text.ascii c.keyring.activeKeyId) altered (Text.ofAscii_ascii hid.1)
    (by rw [Text.length_ascii]; omega) (by rw [Text.length_ascii]; omega)
  constructor
  · rintro hfails ⟨hne, hbits⟩
    obtain ⟨e, he⟩ := hfails hne
    rw [FieldCipher.decryptField_of_decodeEnvelope rfl c.keyring.active_held haad (hsame.mpr hbits)] at he
    cases he
  · intro hbits hne
    cases hop : c.decryptField altered context with
    | error e => exact ⟨e, rfl⟩
    | ok opened =>
      have hdec := FieldCipher.envelope_of_decryptField haad hothers hideal hop
      exact absurd ⟨hne, hsame.mp hdec⟩ hbits

def phoneContext : JsFieldContext :=
  ⟨JsString.ofText "user_pii".toList, JsString.ofText "phone_encrypted".toList,
    JsString.ofText ['u']⟩

/-- A phone number stored under `k1`. -/
def storedPhone (aead : Aead) : Except FieldError Bytes :=
  (phoneCipher aead false).encryptField (.buffer [1]) phoneContext
    phoneRandomness

/-- The name of the key is changed to `k2`, and the last byte of the number is changed. -/
theorem altered_field_fails_at_key_and_payload :
    ∃ stored, storedPhone checksumAead = .ok stored ∧
      ∀ altered ∈ [stored.set 3 50, stored.set 92 2], altered ≠ stored ∧
        ∃ e, (phoneCipher checksumAead false).decryptField altered
          phoneContext = .error e := by
  obtain ⟨stored, hst⟩ : ∃ stored, storedPhone checksumAead = .ok stored := ⟨_, rfl⟩
  refine ⟨stored, hst, ?_⟩
  intro altered halt
  have hvalue : (storedPhone checksumAead).toOption = some stored := by
    rw [hst]
    rfl
  have hideal : (storedPhone checksumAead).toOption.all (fun stored =>
      [stored.set 3 50, stored.set 92 2].all (fun altered =>
        altered ≠ stored ∧ ¬ SameUpToTopBits stored altered ∧
          (phoneCipher checksumAead false).NoForgery
            ((phoneCipher checksumAead false).encryptSealings (.buffer [1])
              phoneContext phoneRandomness ++ []) altered phoneContext)) := by decide +kernel
  rw [hvalue] at hideal
  simp only [Option.all_some, all_eq_true, decide_eq_true_eq] at hideal
  obtain ⟨hne, hbits, hforge⟩ := hideal altered halt
  refine ⟨hne, ?_⟩
  exact (altered_field_fails_iff _ _ phoneContext phoneRandomness stored altered [] hst nofun
    hforge).mpr (fun h => hbits h.2) hne

/-- Whatever the cipher, a key id with a top bit set is read as the key id it was made from. -/
theorem altered_key_id_decrypts :
    ¬ ∃ aead : Aead, ∀ stored altered, storedPhone aead = .ok stored → altered ≠ stored →
      ∃ e, (phoneCipher aead false).decryptField altered phoneContext =
        .error e := by
  rintro ⟨aead, h⟩
  obtain ⟨aad, haad⟩ : ∃ aad, encodeJsFieldContext phoneContext = .ok aad := ⟨_, rfl⟩
  have hst : storedPhone aead = .ok (spell [107, 49] _) := FieldCipher.encryptField_eq_ok haad
  have hdec := (decodeEnvelope_eq_ok_iff (spell [235, 49] ((phoneCipher aead false).encryptedEnvelope
    (.buffer [1]) phoneRandomness aad)) _).mpr
    ⟨[235, 49], rfl, rfl, by decide, by decide⟩
  obtain ⟨e, he⟩ := h _ (spell [235, 49] _) hst (by simp [spell])
  rw [FieldCipher.decryptField_of_decodeEnvelope rfl rfl haad hdec] at he
  cases he

end BoilerplateExpress.Crypto

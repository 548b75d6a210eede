import BoilerplateExpress.Crypto.FieldStrings

/-!
# What has been sealed

`Aead` opens what it sealed. That it opens nothing else is a statement about the calls
that are really made, and it is assumed of those: a call of `decipher` that succeeds is
made on a key, a nonce, additional data, a ciphertext and a tag that were sealed together.
-/
namespace BoilerplateExpress.Crypto

open List

/-- One sealing, or one call to open it. -/
structure Sealing where
  key : Bytes
  iv : Bytes
  aad : Bytes
  ciphertext : Bytes
  tag : Bytes
  deriving DecidableEq

namespace FieldCipher

def wrapSealing (c : FieldCipher) (dataKey : DataKey) (context : Bytes) (wrapIv : Iv) : Sealing :=
  let sealed := c.aead.encipher c.keyring.activeKey wrapIv.1
    (wrapAad c.keyring.activeKeyId context) dataKey.1
  ⟨c.keyring.activeKey, wrapIv.1, wrapAad c.keyring.activeKeyId context, sealed.1, sealed.2⟩

def payloadSealing (c : FieldCipher) (dataKey : DataKey) (iv : Iv) (context plaintext : Bytes) :
    Sealing :=
  let sealed := c.aead.encipher dataKey.1 iv.1 (payloadAad context) plaintext
  ⟨dataKey.1, iv.1, payloadAad context, sealed.1, sealed.2⟩

/-- The call of `unwrapDataKey`, under the key that the envelope names. -/
def unwrapCall (e : Envelope) (context key : Bytes) : Sealing :=
  ⟨key, e.wrapIv, wrapAad e.keyId context, e.wrappedKey, e.wrapTag⟩

def payloadCall (e : Envelope) (context : Bytes) (dataKey : DataKey) : Sealing :=
  ⟨dataKey.1, e.iv, payloadAad context, e.ciphertext, e.tag⟩

/-- The calls of `decipher` that `decryptField` makes. -/
def openings (c : FieldCipher) (stored : Bytes) (context : JsFieldContext) : List Sealing :=
  match encodeJsFieldContext context, decodeEnvelope stored with
  | .ok aad, .ok envelope =>
    ((c.keyring.find envelope.keyId).map (unwrapCall envelope aad)).toList ++
      (c.unwrapDataKey envelope aad).toOption.toList.map (payloadCall envelope aad)
  | _, _ => []

/-- The ideal cipher, at the calls of one `decryptField`. -/
def NoForgery (c : FieldCipher) (sealed : List Sealing) (stored : Bytes)
    (context : JsFieldContext) : Prop :=
  ∀ x ∈ c.openings stored context,
    (c.aead.decipher x.key x.iv x.aad x.ciphertext x.tag).isSome → x ∈ sealed

instance (c : FieldCipher) (sealed stored context) :
    Decidable (c.NoForgery sealed stored context) := by
  unfold NoForgery
  infer_instance

lemma unwrapDataKey_eq_ok {e aad dataKey} {c : FieldCipher}
    (h : c.unwrapDataKey e aad = .ok dataKey) :
    ∃ key, c.keyring.find e.keyId = some key ∧
      c.aead.decipher key e.wrapIv (wrapAad e.keyId aad) e.wrappedKey e.wrapTag = some dataKey.1 := by
  unfold unwrapDataKey at h
  split at h
  · cases h
  · next key hfind =>
      split at h
      · cases h
      · next opened hopened =>
          split_ifs at h
          cases h
          exact ⟨key, hfind, hopened⟩

lemma openPayload_eq_ok {dataKey aad payload plaintext} {c : FieldCipher}
    (h : c.openPayload dataKey aad payload = .ok plaintext) :
    c.aead.decipher dataKey.1 payload.iv.1 (payloadAad aad) payload.ciphertext payload.tag.1 =
      some plaintext := by
  unfold openPayload at h
  split at h
  · cases h
  · next opened hop =>
      cases h
      exact hop

/-- What decrypts was sealed, both as the wrap of its data key and as a payload under it. -/
theorem sealed_of_decryptField {c : FieldCipher} {sealed : List Sealing} {stored : Bytes}
    {context : JsFieldContext} {plaintext : Bytes} (hideal : c.NoForgery sealed stored context)
    (h : c.decryptField stored context = .ok plaintext) :
    ∃ aad e key dataKey, encodeJsFieldContext context = .ok aad ∧ decodeEnvelope stored = .ok e ∧
      c.keyring.find e.keyId = some key ∧
      c.aead.decipher key e.wrapIv (wrapAad e.keyId aad) e.wrappedKey e.wrapTag = some dataKey.1 ∧
      unwrapCall e aad key ∈ sealed ∧ payloadCall e aad dataKey ∈ sealed := by
  obtain ⟨aad, haad, h⟩ := bind_eq_ok h
  obtain ⟨e, hdec, h⟩ := bind_eq_ok h
  obtain ⟨dataKey, hunw, h⟩ := bind_eq_ok h
  obtain ⟨key, hfind, hop⟩ := unwrapDataKey_eq_ok hunw
  have hpay := openPayload_eq_ok h
  have hcalls : c.openings stored context = [unwrapCall e aad key, payloadCall e aad dataKey] := by
    simp [openings, haad, hdec, hfind, hunw, Except.toOption]
  refine ⟨aad, e, key, dataKey, haad, hdec, hfind, hop, ?_, ?_⟩
  · refine hideal _ (by rw [hcalls]; exact mem_cons_self) ?_
    exact Option.isSome_iff_exists.mpr ⟨_, hop⟩
  · refine hideal _ (by rw [hcalls]; simp) ?_
    exact Option.isSome_iff_exists.mpr ⟨_, hpay⟩

end FieldCipher

/-! The additional data tells apart the two sealings of an envelope, the key ids and the
contexts. -/

lemma wrapAad_ne_payloadAad (keyId context context') :
    wrapAad keyId context ≠ payloadAad context' := by
  intro h
  have hhead := congrArg head? h
  have hdek : (wrapAad keyId context).head? = some 100 := rfl
  have hfield : (payloadAad context').head? = some 102 := rfl
  rw [hdek, hfield] at hhead
  exact absurd hhead (by decide)

lemma wrapAad_inj {keyId keyId' context context'} (h : nul ∉ keyId) (h' : nul ∉ keyId')
    (heq : wrapAad keyId (Text.utf8 context) = wrapAad keyId' (Text.utf8 context')) :
    keyId = keyId' ∧ context = context' := by
  simp only [wrapAad, ← Text.utf8_append] at heq
  have htext := Text.utf8_injective heq
  simp only [append_assoc, cons_append, append_cancel_left_eq, List.cons.injEq, true_and] at htext
  exact Text.append_separator_inj h h' htext

lemma nul_notMem_keyId {key} {ring : Keyring} {id} (h : ring.find id = some key) : nul ∉ id := by
  intro hmem
  have hpat := ring.ids_valid id key h
  simp only [keyIdPattern, Bool.and_eq_true, all_eq_true] at hpat
  exact absurd (hpat.2 nul hmem) (by decide)

lemma nul_notMem_activeKeyId (ring : Keyring) : nul ∉ ring.activeKeyId :=
  nul_notMem_keyId ring.active_held

lemma checkContextPart_eq_ok {name value} (h : checkContextPart name value = .ok ()) : nul ∉
    value := by
  unfold checkContextPart at h
  split_ifs at h with hemp hnul
  exact hnul

lemma encodeFieldContext_eq_ok {context aad} (h : encodeFieldContext context = .ok aad) :
    nul ∉ context.table ∧ nul ∉ context.column ∧
      aad = Text.utf8 (context.table ++ nul :: (context.column ++ nul :: context.id)) := by
  obtain ⟨_, htable, h⟩ := bind_eq_ok h
  obtain ⟨_, hcol, h⟩ := bind_eq_ok h
  obtain ⟨_, _, h⟩ := bind_eq_ok h
  simp only [Except.ok.injEq, append_assoc] at h
  exact ⟨checkContextPart_eq_ok htable, checkContextPart_eq_ok hcol, h.symm⟩

lemma encodeFieldContext_inj {context aad context'} (h : encodeFieldContext context = .ok aad)
    (h' : encodeFieldContext context' = .ok aad) : context = context' := by
  obtain ⟨htable, hcol, haad⟩ := encodeFieldContext_eq_ok h
  obtain ⟨htable', hcol', haad'⟩ := encodeFieldContext_eq_ok h'
  have htext := Text.utf8_injective (haad.symm.trans haad')
  obtain ⟨htab, hrest⟩ := Text.append_separator_inj htable htable' htext
  obtain ⟨hcols, hids⟩ := Text.append_separator_inj hcol hcol' hrest
  cases context
  simp only at htab hcols hids
  rw [htab, hcols, hids]

end BoilerplateExpress.Crypto

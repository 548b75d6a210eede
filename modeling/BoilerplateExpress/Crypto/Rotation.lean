import BoilerplateExpress.Crypto.NonMalleable

/-!
# Rewrapping along a sequence of key rings

`encrypt`, any number of `rewrap` calls, and `decrypt`. Every ring holds the key that the
envelope names when it is rewrapped. Sealings made elsewhere never use the same key with the
same nonce.
-/
namespace BoilerplateExpress.Crypto

open List

/-- One call of `rewrap`: the ring it runs with, and the nonce it draws. -/
structure RewrapCall where
  ring : Keyring
  wrapIv : Iv

/-- Each ring holds the active key of the one before. -/
def HoldsKeys : Keyring → List RewrapCall → Prop
  | _, [] => True
  | ring, call :: calls =>
    call.ring.find ring.activeKeyId = some ring.activeKey ∧ HoldsKeys call.ring calls

/-- The ring that made the last wrap. -/
def lastRing : Keyring → List RewrapCall → Keyring
  | ring, [] => ring
  | _, call :: calls => lastRing call.ring calls

def Plaintext.wellFormed : Plaintext → Bool
  | .text s => s.wellFormed
  | .buffer _ => true

namespace FieldCipher

def withRing (c : FieldCipher) (ring : Keyring) : FieldCipher := { c with keyring := ring }

def rewrapAll (c : FieldCipher) (context : JsFieldContext) :
    List RewrapCall → Bytes → Except FieldError Bytes
  | [], stored => .ok stored
  | call :: calls, stored => do
    let next ← (c.withRing call.ring).rewrapField stored context call.wrapIv
    c.rewrapAll context calls next

/-- A string is read back with `decryptText`, a buffer with `decrypt`. -/
def Recovers (c : FieldCipher) (stored : Bytes) (context : JsFieldContext) : Plaintext → Prop
  | .text s => c.decryptFieldText stored context = .ok s
  | .buffer b => c.decryptField stored context = .ok b

/-- Everything sealed for one value: the wrap and the payload, and each later wrap. -/
def rotationSealings (c : FieldCipher) (plaintext : Plaintext) (context : JsFieldContext)
    (random : Randomness) (calls : List RewrapCall) : List Sealing :=
  match encodeJsFieldContext context with
  | .ok aad =>
    c.payloadSealing random.dataKey random.iv aad plaintext.bytes ::
      c.wrapSealing random.dataKey aad random.wrapIv ::
        calls.map (fun call => (c.withRing call.ring).wrapSealing random.dataKey aad call.wrapIv)
  | .error _ => []

/-- A value encrypted under `context` and rewrapped by `calls` is recovered by `reader` under
its own context and under no other, and no call touches the payload. -/
structure RotationExact (c : FieldCipher) (plaintext : Plaintext) (context context' : JsFieldContext)
    (random : Randomness) (calls : List RewrapCall) (reader : Keyring) : Prop where
  result : ∃ first last, c.encryptField plaintext context random = .ok first ∧
    c.rewrapAll context calls first = .ok last ∧
    (context' = context → (c.withRing reader).Recovers last context' plaintext) ∧
    (context' ≠ context → ∃ e, (c.withRing reader).decryptField last context' = .error e)
  steps : ∀ before call, before ++ [call] <+: calls → ∃ first old new,
    c.encryptField plaintext context random = .ok first ∧
    c.rewrapAll context before first = .ok old ∧
    (c.withRing call.ring).rewrapField old context call.wrapIv = .ok new ∧
    (decodeEnvelope new).map Envelope.payload = (decodeEnvelope old).map Envelope.payload ∧
    (c.withRing call.ring).needsRewrap new = .ok false

/-- The stored form of a payload whose data key is wrapped under the active key of a ring. -/
def wrapped (c : FieldCipher) (dataKey : DataKey) (aad : Bytes) (payload : Payload) (ring : Keyring)
    (wrapIv : Iv) : Bytes :=
  spell (Text.ascii ring.activeKeyId) ((c.withRing ring).wrapDataKey dataKey aad wrapIv payload)

variable {c : FieldCipher} {context : JsFieldContext} {aad : Bytes} {dataKey : DataKey}
  {payload : Payload}

lemma decodeEnvelope_wrapped (ring wrapIv) :
    decodeEnvelope (c.wrapped dataKey aad payload ring wrapIv) =
      .ok ((c.withRing ring).wrapDataKey dataKey aad wrapIv payload) :=
  decodeEnvelope_wrapDataKey (c.withRing ring)
    (encodeEnvelope_wrapDataKey (c.withRing ring) dataKey aad wrapIv payload)

variable {ring : Keyring}

lemma rewrapField_wrapped (haad : encodeJsFieldContext context = .ok aad) {next}
    (hholds : next.find ring.activeKeyId = some ring.activeKey) (wrapIv wrapIv') :
    (c.withRing next).rewrapField (c.wrapped dataKey aad payload ring wrapIv) context wrapIv' =
      .ok (c.wrapped dataKey aad payload next wrapIv') := by
  have hunw := unwrapDataKey_wrapDataKey (c.withRing ring) (c.withRing next) rfl hholds dataKey aad
    wrapIv payload
  simp only [rewrapField, haad, decodeEnvelope_wrapped, hunw, bind, Except.bind]
  exact encodeEnvelope_wrapDataKey (c.withRing next) dataKey aad wrapIv' payload

lemma rewrapAll_wrapped (c : FieldCipher) (dataKey payload)
    (haad : encodeJsFieldContext context = .ok aad) (calls ring wrapIv)
    (hholds : HoldsKeys ring calls) :
    ∃ wrapIv', c.rewrapAll context calls (c.wrapped dataKey aad payload ring wrapIv) =
        .ok (c.wrapped dataKey aad payload (lastRing ring calls) wrapIv') ∧
      (c.withRing (lastRing ring calls)).wrapSealing dataKey aad wrapIv' ∈
        (c.withRing ring).wrapSealing dataKey aad wrapIv ::
          calls.map (fun call => (c.withRing call.ring).wrapSealing dataKey aad call.wrapIv) := by
  induction calls generalizing ring wrapIv with
  | nil => exact ⟨wrapIv, rfl, mem_cons_self⟩
  | cons call calls ih =>
    obtain ⟨hnext, hrest⟩ := hholds
    obtain ⟨wrapIv', hall, hmem⟩ := ih call.ring call.wrapIv hrest
    refine ⟨wrapIv', ?_, mem_cons_of_mem _ hmem⟩
    simp only [rewrapAll, rewrapField_wrapped haad hnext]
    exact hall

lemma holdsKeys_append {before} {after} (h : HoldsKeys ring (before ++ after)) :
    HoldsKeys ring before ∧ HoldsKeys (lastRing ring before) after := by
  induction before generalizing ring with
  | nil => exact ⟨trivial, h⟩
  | cons call before ih =>
    obtain ⟨hnext, hrest⟩ := h
    obtain ⟨hpre, haft⟩ := ih hrest
    exact ⟨⟨hnext, hpre⟩, haft⟩

variable {reader : Keyring} {plaintext : Plaintext}

lemma recovers_iff {stored} (h : c.decryptField stored context = .ok plaintext.bytes) :
    c.Recovers stored context plaintext ↔ plaintext.wellFormed := by
  cases plaintext with
  | buffer b => exact ⟨fun _ => rfl, fun _ => h⟩
  | text s =>
    have htext : c.decryptFieldText stored context = .ok (JsString.ofText s.toText) := by
      simp [decryptFieldText, h, Plaintext.bytes, JsString.utf8]
    rw [Recovers, htext, Except.ok.injEq]
    exact JsString.ofText_toText_iff s

variable {random : Randomness} {calls : List RewrapCall}

lemma aad_of_rotationSealings {x} (haad : encodeJsFieldContext context = .ok aad)
    (hx : x ∈ c.rotationSealings plaintext context random calls) :
    x.aad = payloadAad aad ∨ ∃ ring : Keyring, x.aad = wrapAad ring.activeKeyId aad := by
  rw [rotationSealings, haad] at hx
  simp only [mem_cons, mem_map] at hx
  rcases hx with rfl | rfl | ⟨call, _, rfl⟩
  · exact .inl rfl
  · exact .inr ⟨c.keyring, rfl⟩
  · exact .inr ⟨call.ring, rfl⟩

/-- Under another context the wrap of the data key was never sealed. -/
lemma decryptField_other_context {wrapIv others context'}
    (haad : encodeJsFieldContext context = .ok aad) (hoth : context'.text ≠ context.text)
    (hholds : reader.find ring.activeKeyId = some ring.activeKey)
    (hseal : (c.withRing ring).wrapSealing dataKey aad wrapIv ∈
      c.rotationSealings plaintext context random calls)
    (hfresh : ∀ x ∈ others, ∀ y ∈ c.rotationSealings plaintext context random calls,
      ¬ (x.key = y.key ∧ x.iv = y.iv)) (hideal : (c.withRing reader).NoForgery
      (c.rotationSealings plaintext context random calls ++ others)
      (c.wrapped dataKey aad payload ring wrapIv) context') :
    ∃ e, (c.withRing reader).decryptField (c.wrapped dataKey aad payload ring wrapIv) context' =
      .error e := by
  cases hop : (c.withRing reader).decryptField (c.wrapped dataKey aad payload ring wrapIv)
    context' with
  | error e => exact ⟨e, rfl⟩
  | ok plaintext' =>
    obtain ⟨aad', e, key, _, haad', hdec, hfind, _, hwrap, _⟩ :=
      sealed_of_decryptField hideal hop
    obtain rfl := Except.ok.inj ((decodeEnvelope_wrapped ring wrapIv).symm.trans hdec)
    obtain rfl : ring.activeKey = key := Option.some.inj (hholds.symm.trans hfind)
    rcases mem_append.mp hwrap with hown | helse
    · rw [encodeJsFieldContext_eq] at haad haad'
      obtain ⟨_, _, htext⟩ := encodeFieldContext_eq_ok haad
      obtain ⟨_, _, htext'⟩ := encodeFieldContext_eq_ok haad'
      rcases aad_of_rotationSealings ((encodeJsFieldContext_eq context).trans haad) hown with
        hpay | ⟨ring', hring'⟩
      · exact absurd hpay (wrapAad_ne_payloadAad _ _ _)
      · have heq : wrapAad ring.activeKeyId aad' = wrapAad ring'.activeKeyId aad := hring'
        rw [htext, htext'] at heq
        have hsame := (wrapAad_inj (nul_notMem_activeKeyId ring) (nul_notMem_activeKeyId ring')
          heq).2
        rw [htext', hsame, ← htext] at haad'
        exact absurd (encodeFieldContext_inj haad' haad) hoth
    · exact absurd ⟨rfl, rfl⟩ (hfresh _ helse _ hseal)

/-- What `encryptField` and a sequence of rewraps leave, and what it decrypts to. -/
lemma rotate_eq_ok {c : FieldCipher} (plaintext random)
    (haad : encodeJsFieldContext context = .ok aad) (hholds : HoldsKeys c.keyring calls) :
    let payload := c.sealPayload random.dataKey random.iv aad plaintext.bytes
    c.encryptField plaintext context random =
        .ok (c.wrapped random.dataKey aad payload c.keyring random.wrapIv) ∧
      ∃ wrapIv, c.rewrapAll context calls
          (c.wrapped random.dataKey aad payload c.keyring random.wrapIv) =
            .ok (c.wrapped random.dataKey aad payload (lastRing c.keyring calls) wrapIv) ∧
        (c.withRing (lastRing c.keyring calls)).wrapSealing random.dataKey aad wrapIv ∈
          c.rotationSealings plaintext context random calls ∧
        ∀ reader : Keyring, reader.find (lastRing c.keyring calls).activeKeyId =
            some (lastRing c.keyring calls).activeKey → (c.withRing reader).decryptField
            (c.wrapped random.dataKey aad payload (lastRing c.keyring calls) wrapIv) context =
              .ok plaintext.bytes := by
  intro payload
  refine ⟨encryptField_eq_ok haad, ?_⟩
  obtain ⟨wrapIv, hlast, hmem⟩ := rewrapAll_wrapped c random.dataKey payload haad calls c.keyring
    random.wrapIv hholds
  refine ⟨wrapIv, hlast, ?_, ?_⟩
  · rw [rotationSealings, haad]
    exact mem_cons_of_mem _ hmem
  · intro reader hrdr
    exact decryptField_of_decodeEnvelope (c := c.withRing (lastRing c.keyring calls)) rfl hrdr
      haad (decodeEnvelope_wrapped _ wrapIv)

/-- No cipher can do better than its encoder. -/
lemma conditions_of_rotationExact {context'} {c : FieldCipher}
    (haad : encodeJsFieldContext context = .ok aad) (hholds : HoldsKeys c.keyring calls)
    (hrdr : reader.find (lastRing c.keyring calls).activeKeyId =
      some (lastRing c.keyring calls).activeKey)
    (h : c.RotationExact plaintext context context' random calls reader) :
    (context' = context → plaintext.wellFormed) ∧
      (context' ≠ context → context'.text ≠ context.text) := by
  obtain ⟨hfst, wrapIv, hlast, _, hopens⟩ := rotate_eq_ok plaintext random haad hholds
  obtain ⟨first, last, hfst', hlast', hsame, hdiff⟩ := h.result
  cases hfst.symm.trans hfst'
  cases hlast.symm.trans hlast'
  have hop := hopens reader hrdr
  constructor
  · rintro rfl
    exact (recovers_iff hop).mp (hsame rfl)
  · intro hne htext
    obtain ⟨e, he⟩ := hdiff hne
    rw [decryptField_eq, htext, ← decryptField_eq, hop] at he
    cases he

/-- One more rewrap leaves the payload alone and names the active key of its ring. -/
lemma rotationExact_step {before call} {c : FieldCipher} (plaintext random)
    (haad : encodeJsFieldContext context = .ok aad)
    (hholds : HoldsKeys c.keyring (before ++ [call])) : ∃ first old new,
      c.encryptField plaintext context random = .ok first ∧
      c.rewrapAll context before first = .ok old ∧
      (c.withRing call.ring).rewrapField old context call.wrapIv = .ok new ∧
      (decodeEnvelope new).map Envelope.payload = (decodeEnvelope old).map Envelope.payload ∧
      (c.withRing call.ring).needsRewrap new = .ok false := by
  obtain ⟨hpre, hnext, _⟩ := holdsKeys_append hholds
  obtain ⟨hfst, oldIv, hold, _, _⟩ := rotate_eq_ok plaintext random haad hpre
  refine ⟨_, _, _, hfst, hold, rewrapField_wrapped haad hnext oldIv call.wrapIv, ?_, ?_⟩
  · rw [decodeEnvelope_wrapped, decodeEnvelope_wrapped]
    rfl
  · simp [needsRewrap, decodeEnvelope_wrapped, wrapDataKey]

end FieldCipher

open FieldCipher in
/-- A rotated value is exact just if it can be written as UTF-8, when it is read under its own
context, and just if the encoder tells the contexts apart, when it is read under another. -/
theorem rotation_exact_iff (c : FieldCipher) (plaintext : Plaintext)
    (context context' : JsFieldContext) (random : Randomness) (calls : List RewrapCall)
    (reader : Keyring) (others : List Sealing)
    (hcontext : ∃ aad, encodeJsFieldContext context = .ok aad)
    (hholds : HoldsKeys c.keyring calls)
    (hreader : reader.find (lastRing c.keyring calls).activeKeyId =
      some (lastRing c.keyring calls).activeKey)
    (hfresh : ∀ x ∈ others, ∀ y ∈ c.rotationSealings plaintext context random calls,
      ¬ (x.key = y.key ∧ x.iv = y.iv))
    (hideal : ∀ first last, c.encryptField plaintext context random = .ok first →
      c.rewrapAll context calls first = .ok last → (c.withRing reader).NoForgery
        (c.rotationSealings plaintext context random calls ++ others) last context') :
    c.RotationExact plaintext context context' random calls reader ↔
      (context' = context → plaintext.wellFormed = true) ∧
        (context' ≠ context → context'.text ≠ context.text) := by
  obtain ⟨aad, haad⟩ := hcontext
  obtain ⟨hfst, wrapIv, hlast, hseal, hopens⟩ :=
    rotate_eq_ok plaintext random haad hholds
  constructor
  · exact conditions_of_rotationExact haad hholds hreader
  · rintro ⟨hsame, hdiff⟩
    refine ⟨⟨_, _, hfst, hlast, ?_, ?_⟩, ?_⟩
    · rintro rfl
      exact (recovers_iff (hopens reader hreader)).mpr (hsame rfl)
    · intro hne
      exact decryptField_other_context haad (hdiff hne) hreader hseal hfresh
        (hideal _ _ hfst hlast)
    · rintro before call ⟨after, rfl⟩
      exact rotationExact_step plaintext random haad (holdsKeys_append hholds).1

/-- The phone number of another user. -/
def otherPhoneContext : JsFieldContext := { phoneContext with id := JsString.ofText ['v'] }

/-- The number is rewrapped under the second key. -/
def phoneRewrap : RewrapCall := ⟨twoKeyRing true, ⟨List.replicate 12 6, rfl⟩⟩

/-- A sealing of another value, with a nonce of its own. -/
def otherWrap : Sealing :=
  (phoneCipher checksumAead true).wrapSealing phoneRandomness.dataKey [1] ⟨List.replicate 12 7, rfl⟩

open FieldCipher in
theorem rotation_exact_for_rewrapped_phone :
    (phoneCipher checksumAead false).RotationExact (.text (JsString.ofText ['1'])) phoneContext
        phoneContext phoneRandomness [phoneRewrap] (twoKeyRing true) ∧
      (phoneCipher checksumAead false).RotationExact (.text (JsString.ofText ['1'])) phoneContext
        otherPhoneContext phoneRandomness [phoneRewrap] (twoKeyRing true) := by
  have hideal : ∀ context' ∈ [phoneContext, otherPhoneContext], ∀ first last,
      (phoneCipher checksumAead false).encryptField (.text (JsString.ofText ['1'])) phoneContext
        phoneRandomness = .ok first →
      (phoneCipher checksumAead false).rewrapAll phoneContext [phoneRewrap] first = .ok last →
      ((phoneCipher checksumAead false).withRing (twoKeyRing true)).NoForgery
        ((phoneCipher checksumAead false).rotationSealings (.text (JsString.ofText ['1']))
          phoneContext phoneRandomness [phoneRewrap] ++ [otherWrap]) last context' := by
    intro context' hcontext' first last hfirst hlast
    have hrun : (((phoneCipher checksumAead false).encryptField (.text (JsString.ofText ['1']))
        phoneContext phoneRandomness).toOption.bind (fun first =>
          ((phoneCipher checksumAead false).rewrapAll phoneContext [phoneRewrap] first).toOption)).all
        (fun last => [phoneContext, otherPhoneContext].all (fun context' =>
          ((phoneCipher checksumAead false).withRing (twoKeyRing true)).NoForgery
            ((phoneCipher checksumAead false).rotationSealings (.text (JsString.ofText ['1']))
              phoneContext phoneRandomness [phoneRewrap] ++ [otherWrap]) last context')) = true := by
      decide +kernel
    rw [hfirst] at hrun
    simp only [Except.toOption, Option.bind_some, hlast, Option.all_some, all_eq_true,
      decide_eq_true_eq] at hrun
    exact hrun context' hcontext'
  have hfresh : ∀ x ∈ [otherWrap], ∀ y ∈ (phoneCipher checksumAead false).rotationSealings
      (.text (JsString.ofText ['1'])) phoneContext phoneRandomness [phoneRewrap],
      ¬ (x.key = y.key ∧ x.iv = y.iv) := by decide +kernel
  constructor
  · refine (rotation_exact_iff _ _ phoneContext phoneContext _ [phoneRewrap] _ [otherWrap] ⟨_, rfl⟩
      ⟨rfl, trivial⟩ rfl hfresh (hideal phoneContext (by simp))).mpr ⟨fun _ => rfl, ?_⟩
    exact fun hne => absurd rfl hne
  · refine (rotation_exact_iff _ _ phoneContext otherPhoneContext _ [phoneRewrap] _ [otherWrap]
      ⟨_, rfl⟩ ⟨rfl, trivial⟩ rfl hfresh (hideal otherPhoneContext (by simp))).mpr ⟨?_, ?_⟩
    · intro heq
      exact absurd heq (by decide)
    · intro _ htext
      exact absurd (congrArg FieldContext.id htext) (by decide)

open FieldCipher in
/-- Whatever the cipher: an id that is a lone surrogate and the id U+FFFD are one row to it,
and a lone surrogate is not read back. -/
theorem lone_surrogates_are_confused :
    (¬ ∃ aead, (phoneCipher aead false).RotationExact (.buffer [1])
        { phoneContext with id := [0xD800] } { phoneContext with id := [0xFFFD] } phoneRandomness []
        (twoKeyRing false)) ∧
      ¬ ∃ aead, (phoneCipher aead false).RotationExact (.text [0xD800]) phoneContext phoneContext
        phoneRandomness [] (twoKeyRing false) := by
  constructor
  · rintro ⟨aead, h⟩
    obtain ⟨_, hdiff⟩ := conditions_of_rotationExact (by rfl) (by trivial) (by rfl) h
    exact hdiff (by decide) rfl
  · rintro ⟨aead, h⟩
    obtain ⟨hsame, _⟩ := conditions_of_rotationExact (by rfl) (by trivial) (by rfl) h
    exact absurd (hsame rfl) (by decide)

end BoilerplateExpress.Crypto

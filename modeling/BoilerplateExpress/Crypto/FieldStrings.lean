import BoilerplateExpress.Crypto.FieldCipher
import BoilerplateExpress.JsString

/-!
# The field cipher over JavaScript strings

The callers of `createFieldCipher` hold strings of code units. What is sealed, and what
a seal is bound to, are their UTF-8 bytes, so the cipher cannot tell strings apart that
its encoder reads as one text.
-/
namespace BoilerplateExpress.Crypto

structure JsFieldContext where
  table : JsString
  column : JsString
  id : JsString
  deriving DecidableEq

/-- The context as the encoder reads it. -/
def JsFieldContext.text (context : JsFieldContext) : FieldContext :=
  ⟨context.table.toText, context.column.toText, context.id.toText⟩

def checkJsContextPart (name : String) (value : JsString) : Except FieldError Unit :=
  if value.length = 0 then
    .error (.fieldDecryption ("context.".toList ++ name.toList ++ " is empty".toList))
  else if 0 ∈ value then
    .error (.fieldDecryption ("context.".toList ++ name.toList ++ " contains a NUL byte".toList))
  else .ok ()

def encodeJsFieldContext (context : JsFieldContext) : Except FieldError Bytes := do
  checkJsContextPart "table" context.table
  checkJsContextPart "column" context.column
  checkJsContextPart "id" context.id
  .ok (JsString.utf8 (context.table ++ 0 :: (context.column ++ 0 :: context.id)))

/-- `string | Buffer`. -/
inductive Plaintext where
  | text (s : JsString)
  | buffer (b : Bytes)

def Plaintext.bytes : Plaintext → Bytes
  | .text s => s.utf8
  | .buffer b => b

namespace FieldCipher

def encryptField (c : FieldCipher) (plaintext : Plaintext) (context : JsFieldContext)
    (random : Randomness) : Except FieldError Bytes := do
  let aad ← encodeJsFieldContext context
  encodeEnvelope (c.wrapDataKey random.dataKey aad random.wrapIv
    (c.sealPayload random.dataKey random.iv aad plaintext.bytes))

def decryptField (c : FieldCipher) (stored : Bytes) (context : JsFieldContext) :
    Except FieldError Bytes := do
  let aad ← encodeJsFieldContext context
  let envelope ← decodeEnvelope stored
  let dataKey ← c.unwrapDataKey envelope aad
  c.openPayload dataKey aad envelope.payload

def decryptFieldText (c : FieldCipher) (stored : Bytes) (context : JsFieldContext) :
    Except FieldError JsString := do
  let plaintext ← c.decryptField stored context
  .ok (JsString.ofText ((Text.ofUtf8 plaintext).getD (c.lossyText plaintext)))

def rewrapField (c : FieldCipher) (stored : Bytes) (context : JsFieldContext) (wrapIv : Iv) :
    Except FieldError Bytes := do
  let aad ← encodeJsFieldContext context
  let envelope ← decodeEnvelope stored
  let dataKey ← c.unwrapDataKey envelope aad
  encodeEnvelope (c.wrapDataKey dataKey aad wrapIv envelope.payload)

end FieldCipher

lemma checkJsContextPart_eq (name value) :
    checkJsContextPart name value = checkContextPart name value.toText := by
  have hnul : (0 : UInt16) ∈ value ↔ nul ∈ value.toText :=
    (JsString.unitChar_mem_toText (u := 0) (by decide) (by decide) value).symm
  have hempty : value.length = 0 ↔ value.toText.length = 0 := by
    rw [List.length_eq_zero_iff, List.length_eq_zero_iff, JsString.toText_eq_nil]
  simp only [checkJsContextPart, checkContextPart, hnul, hempty]

/-- The separator is no surrogate, so the parts are read one by one. -/
theorem encodeJsFieldContext_eq (context) :
    encodeJsFieldContext context = encodeFieldContext context.text := by
  have htext : JsString.toText (context.table ++ 0 :: (context.column ++ 0 :: context.id)) =
      context.table.toText ++ nul :: (context.column.toText ++ nul :: context.id.toText) := by
    rw [JsString.toText_append_cons (by decide), JsString.toText_append_cons (by decide)]
    rfl
  simp [encodeJsFieldContext, encodeFieldContext, checkJsContextPart_eq, JsString.utf8, htext,
    JsFieldContext.text]

namespace FieldCipher

lemma decryptField_eq (c : FieldCipher) (stored context) :
    c.decryptField stored context = c.decrypt stored context.text := by
  rw [decryptField, decrypt, encodeJsFieldContext_eq]

end FieldCipher

end BoilerplateExpress.Crypto

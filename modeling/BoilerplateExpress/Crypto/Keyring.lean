import BoilerplateExpress.OrderedMap
import BoilerplateExpress.Text

/-!
# Key rings

The ring `parseKeyring` of `crypto/keyring.ts` builds: keys of 32 bytes under distinct
ids of 1 to 32 plain characters, one of which is active.
-/
namespace BoilerplateExpress.Crypto

/-- `/^[A-Za-z0-9_.-]{1,32}$/`. -/
def keyIdPattern (id : Text) : Bool :=
  decide (1 ≤ id.length ∧ id.length ≤ 32) &&
    id.all (fun c => Text.isAlphanumeric c || c == '_' || c == '.' || c == '-')

structure Keyring where
  entries : OrderedMap Text Bytes
  activeKeyId : Text
  activeKey : Bytes
  active_held : entries.get activeKeyId = some activeKey
  ids_valid : ∀ id key, entries.get id = some key → keyIdPattern id = true
  keys_length : ∀ id key, entries.get id = some key → key.length = 32

def Keyring.find (ring : Keyring) (keyId : Text) : Option Bytes := ring.entries.get keyId

lemma keyIdPattern_ascii {id} (h : keyIdPattern id) :
    (∀ c ∈ id, c.toNat < 128) ∧ 1 ≤ id.length ∧ id.length ≤ 32 := by
  simp only [keyIdPattern, Bool.and_eq_true, decide_eq_true_eq, List.all_eq_true] at h
  refine ⟨?_, h.1⟩
  intro c hc
  have hchar := h.2 c hc
  simp only [Text.isAlphanumeric, Text.isDigit, Bool.or_eq_true, Bool.and_eq_true,
    decide_eq_true_eq, beq_iff_eq] at hchar
  have hle (d : Char) (hd : d.toNat < 128) (hcd : c ≤ d) : c.toNat < 128 := by
    have hnat : c.toNat ≤ d.toNat := hcd
    omega
  rcases hchar with (((((⟨_, h9⟩ | ⟨_, hz⟩) | ⟨_, hZ⟩) | rfl) | rfl) | rfl)
  · exact hle '9' (by decide) h9
  · exact hle 'z' (by decide) hz
  · exact hle 'Z' (by decide) hZ
  · decide
  · decide
  · decide

end BoilerplateExpress.Crypto

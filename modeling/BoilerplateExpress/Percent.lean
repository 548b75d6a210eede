import BoilerplateExpress.Text

/-!
# Percent-decoding

ECMAScript `decodeURIComponent`: every escape `%XX` is an octet, a run of octets is a
well-formed UTF-8 sequence, and everything else stands for itself. The text is cut
into literal characters and octets first. Decoding is a homomorphism on texts that
decode, which is the rule the proofs about joined texts use.
-/
namespace BoilerplateExpress.Percent

open List

inductive Token where
  | literal (c : Char)
  | octet (b : UInt8)
  deriving DecidableEq

/-- Where the reader is inside an escape. -/
inductive Mode where
  | plain
  | escape
  | escapeLow (high : ℕ)

/-- Reads the escapes; a stray `%` is an error. -/
def tokenise : Mode → Text → Option (List Token)
  | .plain, [] => some []
  | .escape, [] => none
  | .escapeLow _, [] => none
  | .plain, c :: rest =>
    if c = '%' then tokenise .escape rest else (tokenise .plain rest).map (Token.literal c :: ·)
  | .escape, c :: rest => (Text.hexValue c).bind (fun high => tokenise (.escapeLow high) rest)
  | .escapeLow high, c :: rest =>
    (Text.hexValue c).bind (fun low =>
      (tokenise .plain rest).map (Token.octet (UInt8.ofNat (16 * high + low)) :: ·))

/-- How many octets a lead octet announces. -/
def sequenceLength (b : UInt8) : Option ℕ :=
  if b.toNat < 0x80 then some 1
  else if b.toNat < 0xC0 then none
  else if b.toNat < 0xE0 then some 2
  else if b.toNat < 0xF0 then some 3
  else if b.toNat < 0xF8 then some 4
  else none

/-- The one character a complete sequence encodes. -/
def sequenceChar (octets : Bytes) : Option Char :=
  match Text.ofUtf8 octets with
  | some [c] => some c
  | _ => none

/-- Collects the octets of a sequence: `pending` has been read and `missing` more are
announced. -/
def assemble : Bytes → ℕ → List Token → Option Text
  | _, 0, [] => some []
  | _, _ + 1, [] => none
  | _, 0, .literal c :: rest => (assemble [] 0 rest).map (c :: ·)
  | _, _ + 1, .literal _ :: _ => none
  | _, 0, .octet b :: rest =>
    match sequenceLength b with
    | none => none
    | some 1 => (assemble [] 0 rest).map (Char.ofNat b.toNat :: ·)
    | some n => assemble [b] (n - 1) rest
  | pending, missing + 1, .octet b :: rest =>
    if missing = 0 then
      (sequenceChar (pending ++ [b])).bind (fun c => (assemble [] 0 rest).map (c :: ·))
    else assemble (pending ++ [b]) missing rest

def decodeURIComponent (s : Text) : Option Text := (tokenise .plain s).bind (assemble [] 0)

lemma tokenise_append (x y mode ts) (h : tokenise mode x = some ts) :
    tokenise mode (x ++ y) = (tokenise .plain y).map (ts ++ ·) := by
  induction x generalizing mode ts with
  | nil =>
    cases mode with
    | plain =>
      obtain rfl : [] = ts := Option.some.inj h
      simp
    | escape => cases h
    | escapeLow high => cases h
  | cons c x ih =>
    cases mode with
    | plain =>
      simp only [tokenise, cons_append] at h ⊢
      split_ifs at h ⊢ with hc
      · exact ih .escape ts h
      · obtain ⟨us, hus, rfl⟩ := Option.map_eq_some_iff.mp h
        rw [ih .plain us hus, Option.map_map]
        rfl
    | escape =>
      simp only [tokenise, cons_append] at h ⊢
      obtain ⟨high, hhigh, hrest⟩ := Option.bind_eq_some_iff.mp h
      rw [hhigh, Option.bind_some]
      exact ih (.escapeLow high) ts hrest
    | escapeLow high =>
      simp only [tokenise, cons_append] at h ⊢
      obtain ⟨low, hlow, hrest⟩ := Option.bind_eq_some_iff.mp h
      obtain ⟨us, hus, rfl⟩ := Option.map_eq_some_iff.mp hrest
      rw [hlow, Option.bind_some, ih .plain us hus, Option.map_map]
      rfl

lemma assemble_append (ts us pending missing d) (h : assemble pending missing ts = some d) :
    assemble pending missing (ts ++ us) = (assemble [] 0 us).map (d ++ ·) := by
  induction ts generalizing pending missing d with
  | nil =>
    cases missing with
    | zero =>
      obtain rfl : [] = d := Option.some.inj h
      have hpend : assemble pending 0 us = assemble [] 0 us := by
        cases us with
        | nil => rfl
        | cons u us =>
          cases u with
          | literal c => rfl
          | octet b => rfl
      simp [hpend]
    | succ missing => cases h
  | cons t ts ih =>
    cases t with
    | literal c =>
      cases missing with
      | zero =>
        simp only [assemble, cons_append] at h ⊢
        obtain ⟨e, he, rfl⟩ := Option.map_eq_some_iff.mp h
        rw [ih [] 0 e he, Option.map_map]
        rfl
      | succ missing => cases h
    | octet b =>
      cases missing with
      | zero =>
        simp only [assemble, cons_append] at h ⊢
        split at h
        · cases h
        · obtain ⟨e, he, rfl⟩ := Option.map_eq_some_iff.mp h
          rw [ih [] 0 e he, Option.map_map]
          rfl
        · rename_i n _ _
          exact ih [b] (n - 1) d h
      | succ missing =>
        simp only [assemble, cons_append] at h ⊢
        split_ifs at h ⊢ with hlast
        · obtain ⟨c, hc, hrest⟩ := Option.bind_eq_some_iff.mp h
          obtain ⟨e, he, rfl⟩ := Option.map_eq_some_iff.mp hrest
          rw [hc, Option.bind_some, ih [] 0 e he, Option.map_map]
          rfl
        · exact ih (pending ++ [b]) missing d h

lemma decodeURIComponent_append {x d} (y) (h : decodeURIComponent x = some d) :
    decodeURIComponent (x ++ y) = (decodeURIComponent y).map (d ++ ·) := by
  obtain ⟨ts, hts, hd⟩ := Option.bind_eq_some_iff.mp h
  unfold decodeURIComponent
  rw [tokenise_append x y .plain ts hts]
  cases htok : tokenise .plain y with
  | none => rfl
  | some us => exact assemble_append ts us [] 0 d hd

lemma decodeURIComponent_of_not_mem {s} (h : '%' ∉ s) : decodeURIComponent s = some s := by
  induction s with
  | nil => rfl
  | cons c s ih =>
    rw [mem_cons, not_or] at h
    have hsing : decodeURIComponent [c] = some [c] := by
      simp [decodeURIComponent, tokenise, Ne.symm h.1, assemble]
    have happ := decodeURIComponent_append s hsing
    rw [ih h.2] at happ
    exact happ

/-- A percent-encoding of an ASCII text: white space and `%` stand as escapes, and any
other character may. -/
inductive Encoding : Text → Text → Prop
  | nil : Encoding [] []
  | literal {c : Char} {e s : Text} (hpercent : c ≠ '%') (hspace : Text.isSpace c = false)
      (hrest : Encoding e s) : Encoding (c :: e) (c :: s)
  | escape {a b c : Char} {high low : ℕ} {e s : Text} (hhigh : Text.hexValue a = some high)
      (hlow : Text.hexValue b = some low) (hchar : 16 * high + low = c.toNat)
      (hascii : c.toNat < 128) (hrest : Encoding e s) : Encoding ('%' :: a :: b :: e) (c :: s)

variable {e s : Text}

lemma Encoding.decodeURIComponent_eq (h : Encoding e s) : decodeURIComponent e = some s := by
  induction h with
  | nil => rfl
  | @literal c e s hpercent _ _ ih =>
    have hsingle := decodeURIComponent_of_not_mem (s := [c]) (by simpa using hpercent.symm)
    rw [← singleton_append, decodeURIComponent_append e hsingle, ih]
    rfl
  | @escape a b c high low e s hhigh hlow hchar hascii _ ih =>
    have hsingle : decodeURIComponent ['%', a, b] = some [c] := by
      have hoctet : (16 * high + low) % 256 = c.toNat := by omega
      simp [decodeURIComponent, tokenise, hhigh, hlow, assemble, sequenceLength, hoctet, hascii]
    rw [show '%' :: a :: b :: e = ['%', a, b] ++ e from rfl, decodeURIComponent_append e hsingle,
      ih]
    rfl

/-- An encoded text has no white space to trim. -/
theorem Encoding.trim_eq (h : Encoding e s) : Text.trim e = e := by
  have hspace : ∀ c ∈ e, Text.isSpace c = false := by
    induction h with
    | nil => nofun
    | literal _ hspace _ ih => exact forall_mem_cons.mpr ⟨hspace, ih⟩
    | escape hhigh hlow _ _ _ ih =>
      simp only [forall_mem_cons]
      exact ⟨rfl, Text.isSpace_of_hexValue hhigh, Text.isSpace_of_hexValue hlow, ih⟩
  exact Text.trim_eq_self hspace

end BoilerplateExpress.Percent

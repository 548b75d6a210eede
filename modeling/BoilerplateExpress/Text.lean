import Mathlib.Data.Char
import Mathlib.Data.List.Lex
import Mathlib.Data.List.TakeWhile
import Mathlib.Tactic

/-!
# Text as a list of characters

A string is the list of its Unicode scalar values. White space is the ECMAScript
set, which is what `trim` removes at both ends and what `\s` matches in a
regular expression. Texts are ordered lexicographically.
-/
namespace BoilerplateExpress

open List

abbrev Text := List Char

abbrev Bytes := List UInt8

namespace Text

/-- Named, so that every module decides membership in a list of texts by one term. -/
instance lawfulBEq : LawfulBEq Text := List.instLawfulBEq

/-- ECMAScript `WhiteSpace` and `LineTerminator`. -/
def isSpace (c : Char) : Bool :=
  let n := c.toNat
  (9 ≤ n && n ≤ 13) || n == 32 || n == 160 || n == 5760 || (8192 ≤ n && n ≤ 8202) ||
    n == 8232 || n == 8233 || n == 8239 || n == 8287 || n == 12288 || n == 65279

def trim (s : Text) : Text :=
  ((s.dropWhile isSpace).reverse.dropWhile isSpace).reverse

/-- White space only. -/
def Blank (s : Text) : Prop := ∀ c ∈ s, isSpace c = true

/-- No white space at either end. -/
structure Trimmed (s : Text) : Prop where
  head : ∀ c ∈ s.head?, isSpace c = false
  last : ∀ c ∈ s.getLast?, isSpace c = false

lemma dropWhile_isSpace (w t) (hw : Blank w) (ht : ∀ c ∈ t.head?, isSpace c = false) :
    (w ++ t).dropWhile isSpace = t := by
  rw [dropWhile_append_of_pos hw]
  cases t with
  | nil => rfl
  | cons c t => exact dropWhile_cons_of_neg (by simp [ht c (by simp)])

/-- `trim` removes exactly the white space around a trimmed text. -/
theorem trim_append (w t w') (hw : Blank w) (hw' : Blank w') (ht : Trimmed t) :
    trim (w ++ t ++ w') = t := by
  by_cases hne : t = []
  · subst hne
    have hblank : Blank (w ++ [] ++ w') := by
      intro c hc
      simp only [append_nil, mem_append] at hc
      exact hc.elim (hw c) (hw' c)
    have hdrop := dropWhile_isSpace (w ++ [] ++ w') [] hblank (by simp)
    simp only [append_nil] at hdrop
    simp [trim, hdrop]
  · have hhead : ∀ c ∈ (t ++ w').head?, isSpace c = false := by
      rw [head?_append_of_ne_nil _ hne]
      exact ht.head
    have hrev : Blank w'.reverse := fun c hc => hw' c (mem_reverse.mp hc)
    have hlast : ∀ c ∈ t.reverse.head?, isSpace c = false := by
      rw [head?_reverse]
      exact ht.last
    rw [trim, append_assoc, dropWhile_isSpace w (t ++ w') hw hhead, reverse_append,
      dropWhile_isSpace w'.reverse t.reverse hrev hlast, reverse_reverse]

variable {s : Text}

lemma head_dropWhile_isSpace : ∀ c ∈ (s.dropWhile isSpace).head?, isSpace c = false := by
  intro c hc
  have hhead := head?_dropWhile_not isSpace s
  rwa [hc] at hhead

lemma trim_spec (s) : ∃ w w', s = w ++ trim s ++ w' ∧ Blank w ∧ Blank w' ∧ Trimmed (trim s) := by
  have hleft := takeWhile_append_dropWhile (p := isSpace) (l := s)
  have hright := takeWhile_append_dropWhile (p := isSpace) (l := (s.dropWhile isSpace).reverse)
  have hdrop : s.dropWhile isSpace =
      trim s ++ ((s.dropWhile isSpace).reverse.takeWhile isSpace).reverse := by
    rw [trim, ← reverse_append, hright, reverse_reverse]
  refine ⟨s.takeWhile isSpace, ((s.dropWhile isSpace).reverse.takeWhile isSpace).reverse, ?_,
    fun c hc => mem_takeWhile_imp hc, ?_, ?_, ?_⟩
  · rw [append_assoc, ← hdrop, hleft]
  · intro c hc
    exact mem_takeWhile_imp (mem_reverse.mp hc)
  · intro c hc
    apply head_dropWhile_isSpace c
    rw [hdrop]
    cases htrim : trim s with
    | nil => simp [htrim] at hc
    | cons d t => simpa [htrim] using hc
  · intro c hc
    apply head_dropWhile_isSpace c
    rw [trim, getLast?_reverse] at hc
    exact hc

lemma trim_eq_self (h : ∀ c ∈ s, isSpace c = false) : trim s = s := by
  have hends : Trimmed s :=
    ⟨fun c hc => h c (mem_of_mem_head? hc), fun c hc => h c (mem_of_getLast? hc)⟩
  simpa using trim_append [] s [] (by simp [Blank]) (by simp [Blank]) hends

lemma isSpace_eq_false {a c b} (ha : a ≤ c) (hb : c ≤ b) (hlow : 32 < a.toNat)
    (hhigh : b.toNat < 128) : isSpace c = false := by
  have hac : a.toNat ≤ c.toNat := ha
  have hcb : c.toNat ≤ b.toNat := hb
  simp only [isSpace, Bool.or_eq_false_iff, Bool.and_eq_false_iff, decide_eq_false_iff_not,
    beq_eq_false_iff_ne]
  omega

def isDigit (c : Char) : Bool := '0' ≤ c && c ≤ '9'

def isAlphanumeric (c : Char) : Bool :=
  isDigit c || ('a' ≤ c && c ≤ 'z') || ('A' ≤ c && c ≤ 'Z')

/-- The value of a hexadecimal digit. -/
def hexValue (c : Char) : Option ℕ :=
  if isDigit c then some (c.toNat - 48)
  else if 'a' ≤ c ∧ c ≤ 'f' then some (c.toNat - 87)
  else if 'A' ≤ c ∧ c ≤ 'F' then some (c.toNat - 55)
  else none

lemma isSpace_of_hexValue {c n} (h : hexValue c = some n) : isSpace c = false := by
  simp only [hexValue, isDigit, Bool.and_eq_true, decide_eq_true_eq] at h
  split_ifs at h with hdigit hlower hupper
  · exact isSpace_eq_false hdigit.1 hdigit.2 (by decide) (by decide)
  · exact isSpace_eq_false hlower.1 hlower.2 (by decide) (by decide)
  · exact isSpace_eq_false hupper.1 hupper.2 (by decide) (by decide)

/-- The number a string of decimal digits denotes. -/
def digitsToNat (s : Text) : ℕ := s.foldl (fun n c => 10 * n + (c.toNat - 48)) 0

def natToText (n : ℕ) : Text := Nat.toDigits 10 n

lemma digitsToNat_natToText (n) : digitsToNat (natToText n) = n :=
  Nat.ofDigitChars_toDigits (by decide) (by decide)

variable {n : ℕ} {c : Char}

lemma mem_natToText (h : c ∈ natToText n) : 48 ≤ c.toNat ∧ c.toNat ≤ 57 := by
  have hdigit := Nat.isDigit_of_mem_toDigits (by decide) (by decide) h
  simp only [Char.isDigit, Bool.and_eq_true, decide_eq_true_eq] at hdigit
  exact hdigit

lemma natToText_digit (h : isDigit c) : natToText (c.toNat - 48) = [c] := by
  simp only [isDigit, Bool.and_eq_true, decide_eq_true_eq] at h
  have hlow : 48 ≤ c.toNat := h.1
  have hhigh : c.toNat ≤ 57 := h.2
  rw [natToText, Nat.toDigits_of_lt_base (by omega)]
  congr 1
  apply Char.toNat_inj.mp
  rw [Nat.toNat_digitChar_of_lt_ten (by omega)]
  omega

/-- Digits behind a number other than zero continue its numeral. -/
lemma natToText_foldl (h : ∀ c ∈ s, isDigit c) (hn : 0 < n) :
    natToText (s.foldl (fun n c => 10 * n + (c.toNat - 48)) n) = natToText n ++ s := by
  induction s generalizing n with
  | nil => simp
  | cons c rest ih =>
    rw [forall_mem_cons] at h
    have hdigit := natToText_digit h.1
    have hlt : c.toNat - 48 < 10 := by
      simp only [isDigit, Bool.and_eq_true, decide_eq_true_eq] at h
      have hhigh : c.toNat ≤ 57 := h.1.2
      omega
    have hnext := Nat.toDigits_append_toDigits (by decide : 1 < 10) hn hlt
    rw [foldl_cons, ih h.2 (by omega), natToText, ← hnext]
    rw [natToText] at hdigit
    rw [hdigit]
    simp [natToText]

lemma head_natToText (hn : 0 < n) : (natToText n).head? ≠ some '0' := by
  induction n using Nat.strong_induction_on with
  | _ n ih =>
    rw [natToText, Nat.toDigits_eq_if (by decide)]
    split_ifs with hlt
    · interval_cases n <;> decide
    · have hhead := ih (n / 10) (by omega) (by omega)
      rw [natToText] at hhead
      cases hdig : (Nat.toDigits 10 (n / 10)).head? with
      | none => simp at hdig
      | some c => simpa [hdig] using hhead

/-- Digits are the numeral of their number exactly if there is no zero to spare in front. -/
theorem natToText_digitsToNat_iff (hne : s ≠ []) (h : ∀ c ∈ s, isDigit c) :
    natToText (digitsToNat s) = s ↔ (s.head? = some '0' → s = ['0']) := by
  obtain ⟨c, rest, rfl⟩ := exists_cons_of_ne_nil hne
  rw [forall_mem_cons] at h
  by_cases hc : c = '0'
  · subst hc
    constructor
    · intro hspel _
      rcases Nat.eq_zero_or_pos (digitsToNat ('0' :: rest)) with hzero | hpos
      · rw [← hspel, hzero]
        rfl
      · exact absurd (congrArg head? hspel) (head_natToText hpos)
    · intro hplain
      rw [hplain rfl]
      rfl
  · refine iff_of_true ?_ (by simp [hc])
    have hpos : 0 < c.toNat - 48 := by
      simp only [isDigit, Bool.and_eq_true, decide_eq_true_eq] at h
      have hlow : 48 ≤ c.toNat := h.1.1
      have hne' : c.toNat ≠ 48 := fun heq => hc (Char.toNat_inj.mp heq)
      omega
    rw [digitsToNat, foldl_cons, Nat.mul_zero, Nat.zero_add, natToText_foldl h.2 hpos,
      natToText_digit h.1]
    rfl

/-- The number of bytes of the UTF-8 encoding. -/
def utf8Length (s : Text) : ℕ := (s.map Char.utf8Size).sum

@[simp] lemma utf8Length_nil : utf8Length [] = 0 := rfl

@[simp] lemma utf8Length_cons (c) (s : Text) :
    utf8Length (c :: s) = c.utf8Size + utf8Length s := rfl

@[simp] lemma utf8Length_append (s t) : utf8Length (s ++ t) = utf8Length s + utf8Length t := by
  simp [utf8Length]

/-- The UTF-8 encoding. -/
def utf8 (s : Text) : Bytes := s.flatMap String.utf8EncodeChar

/-- The text of a well-formed UTF-8 sequence. -/
def ofUtf8 (b : Bytes) : Option Text := b.toByteArray.utf8Decode?.map Array.toList

@[simp] lemma ofUtf8_utf8 (s) : ofUtf8 (utf8 s) = some s := by
  have h : (utf8 s).toByteArray.utf8Decode? = some s.toArray := utf8Decode?_utf8Encode
  simp [ofUtf8, h]

lemma utf8_append (s t) : utf8 (s ++ t) = utf8 s ++ utf8 t := flatMap_append

lemma utf8_injective : Function.Injective utf8 := by
  intro s t h
  have hdec := congrArg ofUtf8 h
  rw [ofUtf8_utf8, ofUtf8_utf8] at hdec
  exact Option.some.inj hdec

/-- The part before the first separator, and the rest with it. -/
theorem takeWhile_ne_append {α} [DecidableEq α] {c s} (h : c ∉ s) (t : List α) :
    (s ++ c :: t).takeWhile (· ≠ c) = s ∧ (s ++ c :: t).dropWhile (· ≠ c) = c :: t := by
  have hplain : ∀ u ∈ s, decide (u ≠ c) := by
    intro u hu
    have hne : u ≠ c := by
      rintro rfl
      exact h hu
    exact decide_eq_true hne
  rw [takeWhile_append_of_pos hplain, dropWhile_append_of_pos hplain]
  simp

/-- The parts before and after the first separator. -/
def cut {α : Type*} [DecidableEq α] (c : α) (s : List α) : Option (List α × List α) :=
  if c ∈ s then some (s.takeWhile (· ≠ c), (s.dropWhile (· ≠ c)).tail) else none

lemma cut_eq_some_iff {α} [DecidableEq α] {c} {s before after : List α} :
    cut c s = some (before, after) ↔ s = before ++ c :: after ∧ c ∉ before := by
  constructor
  · intro h
    unfold cut at h
    split_ifs at h with hc
    obtain ⟨front, back, rfl, hfront⟩ := eq_append_cons_of_mem hc
    obtain ⟨htake, hdrop⟩ := takeWhile_ne_append hfront back
    rw [htake, hdrop] at h
    obtain ⟨rfl, rfl⟩ := Prod.mk.inj (Option.some.inj h)
    exact ⟨rfl, hfront⟩
  · rintro ⟨rfl, hbefore⟩
    obtain ⟨htake, hdrop⟩ := takeWhile_ne_append hbefore after
    rw [cut, if_pos (by simp), htake, hdrop]
    rfl

/-- Texts that a separator ends are determined by what they are part of. -/
theorem append_separator_inj {t s' t'} (hs : c ∉ s) (ht : c ∉ t)
    (h : s ++ c :: s' = t ++ c :: t') : s = t ∧ s' = t' := by
  have htake := congrArg (takeWhile (· ≠ c)) h
  rw [(takeWhile_ne_append hs s').1, (takeWhile_ne_append ht t').1] at htake
  subst htake
  exact ⟨rfl, (List.cons.inj (append_cancel_left h)).2⟩

/-- Texts joined by a separator that stands in none but the last of them can be told
apart, if they are equally many. -/
theorem intercalate_concat_inj {xs ys} {x y} (hlen : xs.length = ys.length)
    (hxs : ∀ s ∈ xs, c ∉ s) (hys : ∀ s ∈ ys, c ∉ s)
    (h : [c].intercalate (xs ++ [x]) = [c].intercalate (ys ++ [y])) : xs = ys ∧ x = y := by
  have hcons (s : Text) (ss : List Text) (t : Text) :
      [c].intercalate (s :: ss ++ [t]) = s ++ c :: [c].intercalate (ss ++ [t]) := by
    cases ss <;> simp
  induction xs generalizing ys with
  | nil =>
    obtain rfl := length_eq_zero_iff.mp hlen.symm
    exact ⟨rfl, by simpa using h⟩
  | cons s ss ih =>
    cases ys with
    | nil => cases hlen
    | cons t ts =>
      rw [hcons, hcons] at h
      obtain ⟨hhead, htail⟩ := append_separator_inj (hxs s (by simp)) (hys t (by simp)) h
      obtain ⟨hrest, hlast⟩ := ih (Nat.succ.inj hlen) (fun u hu => hxs u (by simp [hu]))
        (fun u hu => hys u (by simp [hu])) htail
      exact ⟨by rw [hhead, hrest], hlast⟩

/-- One byte for each character, its low eight bits. -/
def ascii (s : Text) : Bytes := s.map (fun c => UInt8.ofNat c.toNat)

/-- One character for each byte, its top bit cleared. -/
def ofAscii (b : Bytes) : Text := b.map (fun x => Char.ofNat (x.toNat % 128))

@[simp] lemma length_ascii (s) : (ascii s).length = s.length := by simp [ascii]

lemma ofAscii_ascii (h : ∀ c ∈ s, c.toNat < 128) : ofAscii (ascii s) = s := by
  induction s with
  | nil => rfl
  | cons c s ih =>
    have hc : c.toNat < 128 := h c (by simp)
    have hbyte : (UInt8.ofNat c.toNat).toNat % 128 = c.toNat := by
      rw [UInt8.toNat_ofNat']
      omega
    have htail := ih (fun d hd => h d (by simp [hd]))
    simp only [ofAscii, ascii, map_cons] at htail ⊢
    rw [hbyte, Char.ofNat_toNat, htail]

/-- A list that is read element by element, where one that cannot be read spoils all. -/
theorem mapM_eq_some_iff {α β : Type} {f} {l : List α} {l' : List β} :
    l.mapM f = some l' ↔ List.Forall₂ (fun a b => f a = some b) l l' := by
  induction l generalizing l' with
  | nil => cases l' <;> simp
  | cons a l ih =>
    cases ha : f a with
    | none => cases l' <;> simp [ha]
    | some b =>
      cases hl : l.mapM f with
      | none => cases l' <;> simp [← ih, hl]
      | some bs => cases l' <;> simp [ha, ← ih, hl]

lemma mem_of_mapM {α β : Type} {f} {l : List α} {l'} (h : l.mapM f = some l') (b : β) :
    b ∈ l' ↔ ∃ a ∈ l, f a = some b := by
  rw [mapM_eq_some_iff] at h
  induction h with
  | nil => simp
  | cons hab _ ih => simp [ih, hab, eq_comm]

lemma mapM_eq_none_iff {α β : Type} {f : α → Option β} {l : List α} :
    l.mapM f = none ↔ ∃ a ∈ l, f a = none := by
  induction l with
  | nil => simp
  | cons a l ih =>
    rw [mapM_cons, exists_mem_cons_iff, ← ih]
    cases f a <;> cases l.mapM f <;> simp

/-- One character inside a JSON string literal. -/
def jsonEscape (c : Char) : Text :=
  if c = '"' then ['\\', '"']
  else if c = '\\' then ['\\', '\\']
  else if c.toNat = 8 then ['\\', 'b']
  else if c.toNat = 9 then ['\\', 't']
  else if c.toNat = 10 then ['\\', 'n']
  else if c.toNat = 12 then ['\\', 'f']
  else if c.toNat = 13 then ['\\', 'r']
  else if c.toNat < 32 then
    ['\\', 'u', '0', '0', Nat.digitChar (c.toNat / 16), Nat.digitChar (c.toNat % 16)]
  else [c]

/-- A JSON string literal. -/
def jsonQuote (s : Text) : Text := '"' :: s.flatMap jsonEscape ++ ['"']

end Text

end BoilerplateExpress

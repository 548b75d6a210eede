import BoilerplateExpress.Text

/-!
# Strings of UTF-16 code units

A JavaScript string is a list of code units, and a surrogate may stand in it without its
other half. An encoder reads such a unit as U+FFFD.
-/
namespace BoilerplateExpress

open List

abbrev JsString := List UInt16

namespace JsString

def isHigh (u : UInt16) : Bool := decide (0xD800 ≤ u.toNat ∧ u.toNat ≤ 0xDBFF)

def isLow (u : UInt16) : Bool := decide (0xDC00 ≤ u.toNat ∧ u.toNat ≤ 0xDFFF)

def replacement : Char := Char.ofNat 0xFFFD

/-- The character of a surrogate pair. -/
def pairChar (high low : UInt16) : Char :=
  Char.ofNat (0x10000 + (high.toNat - 0xD800) * 0x400 + (low.toNat - 0xDC00))

/-- The character of a unit that stands alone. -/
def unitChar (u : UInt16) : Char :=
  if isHigh u || isLow u then replacement else Char.ofNat u.toNat

def toText : JsString → Text
  | [] => []
  | [u] => [unitChar u]
  | u :: v :: rest =>
    if isHigh u && isLow v then pairChar u v :: toText rest
    else unitChar u :: toText (v :: rest)

/-- Every surrogate stands in a pair. -/
def wellFormed : JsString → Bool
  | [] => true
  | [u] => !(isHigh u || isLow u)
  | u :: v :: rest =>
    if isHigh u && isLow v then wellFormed rest
    else !(isHigh u || isLow u) && wellFormed (v :: rest)

def ofChar (c : Char) : JsString :=
  if c.toNat < 0x10000 then [UInt16.ofNat c.toNat]
  else [UInt16.ofNat (0xD800 + (c.toNat - 0x10000) / 0x400),
    UInt16.ofNat (0xDC00 + (c.toNat - 0x10000) % 0x400)]

def ofText (t : Text) : JsString := t.flatMap ofChar

/-- `Buffer.from(s, 'utf8')`. -/
def utf8 (s : JsString) : Bytes := Text.utf8 (toText s)

lemma toNat_ofNat (n) (h : n < 0xD800 ∨ 0xDFFF < n ∧ n < 0x110000) : (Char.ofNat n).toNat = n := by
  have hvalid : n.isValidChar := h
  rw [Char.ofNat, dif_pos hvalid]
  rfl

lemma char_range (c : Char) : c.toNat < 0xD800 ∨ 0xDFFF < c.toNat ∧ c.toNat < 0x110000 := c.valid

variable {u : UInt16}

lemma toNat_unitChar (h : (isHigh u || isLow u) = false) : (unitChar u).toNat = u.toNat := by
  rw [unitChar, h, if_neg (by decide)]
  simp only [isHigh, isLow, Bool.or_eq_false_iff, decide_eq_false_iff_not] at h
  have hlt := u.toNat_lt
  exact toNat_ofNat _ (by omega)

lemma toNat_pairChar {v} (h : (isHigh u && isLow v)) :
    (pairChar u v).toNat = 0x10000 + (u.toNat - 0xD800) * 0x400 + (v.toNat - 0xDC00) := by
  simp only [isHigh, isLow, Bool.and_eq_true, decide_eq_true_eq] at h
  exact toNat_ofNat _ (by omega)

lemma ofChar_unitChar (h : (isHigh u || isLow u) = false) : ofChar (unitChar u) = [u] := by
  have hlt := u.toNat_lt
  rw [ofChar, toNat_unitChar h, if_pos (by omega), UInt16.ofNat_toNat]

lemma ofChar_pairChar {v} (h : (isHigh u && isLow v)) : ofChar (pairChar u v) = [u, v] := by
  rw [ofChar, toNat_pairChar h]
  simp only [isHigh, isLow, Bool.and_eq_true, decide_eq_true_eq] at h
  rw [if_neg (by omega)]
  have hu : 0xD800 + (0x10000 + (u.toNat - 0xD800) * 0x400 + (v.toNat - 0xDC00) - 0x10000) / 0x400 =
      u.toNat := by omega
  have hv : 0xDC00 + (0x10000 + (u.toNat - 0xD800) * 0x400 + (v.toNat - 0xDC00) - 0x10000) % 0x400 =
      v.toNat := by omega
  rw [hu, hv, UInt16.ofNat_toNat, UInt16.ofNat_toNat]

variable {s : JsString}

lemma ofText_toText (h : wellFormed s) : ofText (toText s) = s := by
  induction s using toText.induct with
  | case1 => rfl
  | case2 u =>
    have hu : (isHigh u || isLow u) = false := by simpa [wellFormed] using h
    simp [toText, ofText, ofChar_unitChar hu]
  | case3 u v rest hpair ih =>
    rw [wellFormed, if_pos hpair] at h
    have hrest := ih h
    rw [ofText] at hrest
    rw [toText, if_pos hpair, ofText, flatMap_cons, ofChar_pairChar hpair, hrest]
    rfl
  | case4 u v rest hpair ih =>
    rw [wellFormed, if_neg hpair, Bool.and_eq_true, Bool.not_eq_true'] at h
    have hrest := ih h.2
    rw [ofText] at hrest
    rw [toText, if_neg hpair, ofText, flatMap_cons, ofChar_unitChar h.1, hrest]
    rfl

variable {n : ℕ}

lemma toNat_ofNat_unit (h : n < 0x10000) : (UInt16.ofNat n).toNat = n := UInt16.toNat_ofNat_of_lt' h

lemma isSurrogate_ofNat (h : n < 0xD800 ∨ 0xDFFF < n ∧ n < 0x10000) :
    (isHigh (UInt16.ofNat n) || isLow (UInt16.ofNat n)) = false := by
  have hn : (UInt16.ofNat n).toNat = n := toNat_ofNat_unit (by omega)
  simp only [isHigh, isLow, Bool.or_eq_false_iff, decide_eq_false_iff_not]
  omega

lemma wellFormed_cons (h : (isHigh u || isLow u) = false) (s : JsString) :
    wellFormed (u :: s) = wellFormed s := by
  have hhigh : isHigh u = false := (Bool.or_eq_false_iff.mp h).1
  cases s with
  | nil => simp [wellFormed, h]
  | cons v rest => rw [wellFormed, h, hhigh, Bool.false_and, if_neg (by decide), Bool.not_false,
      Bool.true_and]

lemma wellFormed_ofChar (c s) : wellFormed (ofChar c ++ s) = wellFormed s := by
  have hrange := char_range c
  unfold ofChar
  split_ifs with hc
  · exact wellFormed_cons (isSurrogate_ofNat (by omega)) s
  · have hhigh : (UInt16.ofNat (0xD800 + (c.toNat - 0x10000) / 0x400)).toNat =
        0xD800 + (c.toNat - 0x10000) / 0x400 := toNat_ofNat_unit (by omega)
    have hlow : (UInt16.ofNat (0xDC00 + (c.toNat - 0x10000) % 0x400)).toNat =
        0xDC00 + (c.toNat - 0x10000) % 0x400 := toNat_ofNat_unit (by omega)
    have hpair : (isHigh (UInt16.ofNat (0xD800 + (c.toNat - 0x10000) / 0x400)) &&
        isLow (UInt16.ofNat (0xDC00 + (c.toNat - 0x10000) % 0x400))) := by
      simp only [isHigh, isLow, Bool.and_eq_true, decide_eq_true_eq]
      omega
    show wellFormed (_ :: _ :: s) = wellFormed s
    rw [wellFormed, if_pos hpair]

lemma wellFormed_ofText (t) : wellFormed (ofText t) := by
  induction t with
  | nil => rfl
  | cons c t ih => rw [ofText, flatMap_cons, wellFormed_ofChar, ← ofText, ih]

/-- Only a string without lone surrogates is read back from its characters. -/
theorem ofText_toText_iff (s) : ofText (toText s) = s ↔ wellFormed s := by
  constructor
  · intro h
    rw [← h]
    exact wellFormed_ofText _
  · exact ofText_toText

lemma toText_cons (h : (isHigh u || isLow u) = false) (s : JsString) :
    toText (u :: s) = unitChar u :: toText s := by
  have hhigh : isHigh u = false := (Bool.or_eq_false_iff.mp h).1
  cases s with
  | nil => rfl
  | cons v rest => rw [toText, hhigh, Bool.false_and, if_neg (by decide)]

/-- No pair spans a unit that is not a surrogate. -/
theorem toText_append_cons (h : (isHigh u || isLow u) = false) (s t : JsString) :
    toText (s ++ u :: t) = toText s ++ unitChar u :: toText t := by
  have hlow : isLow u = false := (Bool.or_eq_false_iff.mp h).2
  induction s using toText.induct with
  | case1 => exact toText_cons h t
  | case2 v =>
    show toText (v :: u :: t) = unitChar v :: unitChar u :: toText t
    rw [toText, hlow, Bool.and_false, if_neg (by decide), toText_cons h]
  | case3 v w rest hpair ih =>
    show toText (v :: w :: (rest ++ u :: t)) = _
    rw [toText, toText, if_pos hpair, if_pos hpair, ih]
    rfl
  | case4 v w rest hpair ih =>
    show toText (v :: w :: (rest ++ u :: t)) = _
    rw [toText, toText, if_neg hpair, if_neg hpair]
    exact congrArg (unitChar v :: ·) ih

lemma toText_eq_nil : toText s = [] ↔ s = [] := by
  cases s using toText.fun_cases with
  | case1 => simp [toText]
  | case2 u => simp [toText]
  | case3 u v rest hpair => simp [toText, hpair]
  | case4 u v rest hpair => simp [toText, hpair]

lemma unitChar_eq_iff (h : (isHigh u || isLow u) = false) (hu : u.toNat ≠ 0xFFFD) (v) :
    unitChar u = unitChar v ↔ u = v := by
  constructor
  · intro heq
    have hnat := congrArg Char.toNat heq
    rw [toNat_unitChar h] at hnat
    cases hv : isHigh v || isLow v with
    | false =>
      rw [toNat_unitChar hv] at hnat
      exact UInt16.toNat_inj.mp hnat
    | true =>
      rw [unitChar, hv, if_pos rfl] at hnat
      exact absurd hnat hu
  · exact fun heq => congrArg unitChar heq

/-- A unit that is not a surrogate is found in the string where its character is found. -/
theorem unitChar_mem_toText (h : (isHigh u || isLow u) = false) (hu : u.toNat ≠ 0xFFFD) (s) :
    unitChar u ∈ toText s ↔ u ∈ s := by
  induction s using toText.induct with
  | case1 => simp [toText]
  | case2 v => simp [toText, unitChar_eq_iff h hu]
  | case3 v w rest hpair ih =>
    have hpair' := hpair
    simp only [isHigh, isLow, Bool.and_eq_true, decide_eq_true_eq] at hpair'
    have hchar : unitChar u ≠ pairChar v w := by
      intro heq
      have hnat := congrArg Char.toNat heq
      have hlt := u.toNat_lt
      rw [toNat_unitChar h, toNat_pairChar hpair] at hnat
      omega
    simp only [isHigh, isLow, Bool.or_eq_false_iff, decide_eq_false_iff_not] at h
    have hv : u ≠ v := by
      rintro rfl
      omega
    have hw : u ≠ w := by
      rintro rfl
      omega
    rw [toText, if_pos hpair, mem_cons, mem_cons, mem_cons, ih]
    simp [hchar, hv, hw]
  | case4 v w rest hpair ih =>
    rw [toText, if_neg hpair, mem_cons, mem_cons, ih, unitChar_eq_iff h hu]

/-- ECMAScript `WhiteSpace` and `LineTerminator`; all of them are single units. -/
def isSpace (u : UInt16) : Bool := Text.isSpace (unitChar u)

def trim (s : JsString) : JsString :=
  ((s.dropWhile isSpace).reverse.dropWhile isSpace).reverse

lemma dropWhile_eq_self {α : Type} {p} {s : List α} (h : ∀ u ∈ s.head?, p u = false) :
    s.dropWhile p = s := by
  cases s with
  | nil => rfl
  | cons u s => rw [dropWhile_cons_of_neg (by simp [h u (by simp)])]

lemma trim_eq_self (hhead : ∀ u ∈ s.head?, isSpace u = false)
    (hlast : ∀ u ∈ s.getLast?, isSpace u = false) : trim s = s := by
  have hrev : ∀ u ∈ s.reverse.head?, isSpace u = false := by
    rw [head?_reverse]
    exact hlast
  rw [trim, dropWhile_eq_self hhead, dropWhile_eq_self hrev, reverse_reverse]

/-- One unit inside a JSON string literal; a surrogate without its other half is escaped. -/
def jsonEscape (u : UInt16) : JsString :=
  if isHigh u || isLow u then ofText (['\\', 'u'] ++ Nat.toDigits 16 u.toNat)
  else ofText (Text.jsonEscape (unitChar u))

def jsonUnits : JsString → JsString
  | [] => []
  | [u] => jsonEscape u
  | u :: v :: rest =>
    if isHigh u && isLow v then u :: v :: jsonUnits rest else jsonEscape u ++ jsonUnits (v :: rest)

/-- `JSON.stringify` of a string. -/
def jsonQuote (s : JsString) : JsString := 34 :: jsonUnits s ++ [34]

/-- A natural number in decimal digits. -/
def natUnits (n : ℕ) : JsString := ofText (Text.natToText n)

/-- The number a string of decimal digits denotes. -/
def digitsToNat (s : JsString) : ℕ := s.foldl (fun n u => 10 * n + (u.toNat - 48)) 0

lemma digitsToNat_cons (u) (s : JsString) :
    digitsToNat (u :: s) = (u.toNat - 48) * 10 ^ s.length + digitsToNat s := by
  have hfrom : ∀ (s : JsString) (n : ℕ), s.foldl (fun n u => 10 * n + (u.toNat - 48)) n =
      n * 10 ^ s.length + digitsToNat s := by
    intro s
    induction s with
    | nil => simp [digitsToNat]
    | cons v s ih =>
      intro n
      rw [digitsToNat, foldl_cons, foldl_cons, ih, ih (10 * 0 + _), length_cons]
      ring
  rw [digitsToNat, foldl_cons, hfrom]
  ring

lemma digitsToNat_lt (h : ∀ u ∈ s, u.toNat ≤ 57) : digitsToNat s < 10 ^ s.length := by
  induction s with
  | nil => simp [digitsToNat]
  | cons u s ih =>
    have hu := h u mem_cons_self
    have hs := ih (fun v hv => h v (mem_cons_of_mem u hv))
    have hdigit : (u.toNat - 48) * 10 ^ s.length ≤ 9 * 10 ^ s.length :=
      Nat.mul_le_mul_right _ (by omega)
    rw [digitsToNat_cons, length_cons, pow_succ]
    omega

lemma ofChar_of_lt {c} (h : c.toNat < 0xD800) : ofChar c = [UInt16.ofNat c.toNat] := by
  rw [ofChar, if_pos (by omega)]

lemma toText_ofText {t} (h : ∀ c ∈ t, c.toNat < 0xD800) : toText (ofText t) = t := by
  induction t with
  | nil => rfl
  | cons c t ih =>
    have hc := h c mem_cons_self
    have hsur := isSurrogate_ofNat (.inl hc)
    have hunit : unitChar (UInt16.ofNat c.toNat) = c := by
      rw [unitChar, hsur, if_neg (by decide), toNat_ofNat_unit (by omega), Char.ofNat_toNat]
    rw [ofText, flatMap_cons, ofChar_of_lt hc, singleton_append, toText_cons hsur,
      hunit, ← ofText, ih (fun d hd => h d (mem_cons_of_mem c hd))]

lemma toText_natUnits (n) : toText (natUnits n) = Text.natToText n := by
  refine toText_ofText ?_
  intro c hc
  have hdigit := Text.mem_natToText hc
  omega

lemma mem_natUnits (h : u ∈ natUnits n) : 48 ≤ u.toNat ∧ u.toNat ≤ 57 := by
  obtain ⟨c, hc, hu⟩ := mem_flatMap.mp h
  have hdigit := Text.mem_natToText hc
  rw [ofChar_of_lt (by omega), mem_singleton] at hu
  rw [hu, toNat_ofNat_unit (by omega)]
  exact hdigit

lemma length_natUnits_le {e} (he : 0 < e) (h : n < 10 ^ e) : (natUnits n).length ≤ e := by
  have hplain : ∀ t : Text, (∀ c ∈ t, c.toNat < 0xD800) → (ofText t).length = t.length := by
    intro t ht
    induction t with
    | nil => rfl
    | cons c t ih =>
      have hhead := ofChar_of_lt (ht c mem_cons_self)
      have htail := ih (fun d hd => ht d (mem_cons_of_mem c hd))
      rw [ofText, flatMap_cons, hhead, singleton_append, length_cons, length_cons]
      exact congrArg (· + 1) htail
  have hlen : (natUnits n).length = (Text.natToText n).length := by
    refine hplain _ ?_
    intro c hc
    have hdigit := Text.mem_natToText hc
    omega
  rw [hlen]
  exact Nat.toDigits_length 10 n e he h

lemma natUnits_ne_nil (n) : natUnits n ≠ [] := by
  intro h
  have htext := toText_natUnits n
  rw [h] at htext
  exact Nat.toDigits_ne_nil htext.symm

lemma natUnits_injective : Function.Injective natUnits := by
  intro m n h
  have htext := congrArg (fun s => Text.digitsToNat (toText s)) h
  simpa [toText_natUnits, Text.digitsToNat_natToText] using htext

end JsString

end BoilerplateExpress

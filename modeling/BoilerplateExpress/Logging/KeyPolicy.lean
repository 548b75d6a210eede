import BoilerplateExpress.Logging.ValuePatterns
import BoilerplateExpress.OrderedMap

/-!
# Which keys are sensitive

`logging/key-policy.ts`. A key is split into words and is sensitive when a run of up to four
of them spells a term. The matcher keeps the answers it gave; the cache carries with it that
each answer is right and that there are at most 4096, so it can be forgotten in proofs.
-/
namespace BoilerplateExpress.Logging

open EventStream (units)
open List

def maxRunWords : ℕ := 4

def maxCachedKeys : ℕ := 4096

def defaultSensitiveKeys : List JsString :=
  ["password", "passwd", "pwd", "passphrase", "secret", "token", "apikey", "authorization",
    "cookie", "sessionid", "privatekey", "credentials", "otp", "email", "phone", "ssn",
    "socialsecuritynumber", "nationalid", "passportnumber", "dob", "dateofbirth", "birthdate",
    "firstname", "lastname", "fullname", "givenname", "familyname", "surname", "streetaddress",
    "postalcode", "postcode", "zipcode", "creditcard", "cardnumber", "cvv", "cvc", "iban"].map units

/-- `toLowerCase` of ASCII, which is all that the words of a key hold. -/
def toLowerUnit (u : UInt16) : UInt16 := if isUpper u then u + 32 else u

/-- A word ends between two units: at a camelCase hump, before the last capital of an acronym
that a word follows, and from a letter to a digit. -/
def endsWord (u v : UInt16) (next : Option UInt16) : Bool :=
  ((isLower u || isDigit u) && isUpper v) || (isUpper u && isUpper v && next.any isLower) ||
    (isAlpha u && isDigit v)

def humps : JsString → List JsString
  | [] => []
  | [u] => [[u]]
  | u :: v :: rest =>
    if endsWord u v rest.head? then [u] :: humps (v :: rest)
    else (humps (v :: rest)).modifyHead (u :: ·)

/-- The words of a key. Splitting at each separator instead of each run of them gives only
empty words more, and those are dropped. -/
def keyWords (key : JsString) : List JsString :=
  (((key.splitOnP (fun u => !isAlnum u)).flatMap humps).filter (fun word => 0 < word.length)).map
    (fun word => word.map toLowerUnit)

/-- Every run of words in the key, joined, lower case. -/
def keyRuns (key : JsString) : List JsString :=
  (keyWords key).tails.flatMap (fun words =>
    ((words.take maxRunWords).inits.drop 1).map List.flatten)

example : keyRuns (units "x-APIKey2") =
    ["x", "xapi", "xapikey", "xapikey2", "api", "apikey", "apikey2", "key", "key2", "2"].map units := by
  decide +kernel

def normaliseKey (extra : JsString) : JsString := (extra.filter isAlnum).map toLowerUnit

/-- The terms of a matcher. -/
def sensitiveTerms (extraKeys : List JsString) : List JsString :=
  defaultSensitiveKeys ++ (extraKeys.map normaliseKey).filter (fun term => 0 < term.length)

def spellsTerm (terms : List JsString) (key : JsString) : Bool :=
  (keyRuns key).any (fun run => terms.contains run)

structure KeyMatcher where
  terms : List JsString
  cache : OrderedMap JsString Bool
  cached_eq : ∀ key answer, cache.get key = some answer → answer = spellsTerm terms key
  bounded : cache.size ≤ maxCachedKeys

def createSensitiveKeyMatcher (extraKeys : List JsString) : KeyMatcher where
  terms := sensitiveTerms extraKeys
  cache := .empty
  cached_eq := by simp
  bounded := Nat.zero_le _

namespace KeyMatcher

/-- The cache after an answer is added, cleared first when it is full. -/
def remember (matcher : KeyMatcher) (key : JsString) : OrderedMap JsString Bool :=
  let cache := if maxCachedKeys ≤ matcher.cache.size then .empty else matcher.cache
  cache.set key (spellsTerm matcher.terms key)

lemma remember_eq {key other answer} (matcher : KeyMatcher)
    (h : (matcher.remember key).get other = some answer) :
    answer = spellsTerm matcher.terms other := by
  rcases OrderedMap.get_set_eq_some.mp h with ⟨rfl, rfl⟩ | ⟨_, hget⟩
  · rfl
  · split_ifs at hget with hfull
    · simp at hget
    · exact matcher.cached_eq other answer hget

lemma remember_size {key} (matcher : KeyMatcher) (h : matcher.cache.get key = none) :
    (matcher.remember key).size ≤ maxCachedKeys := by
  unfold remember OrderedMap.size
  split_ifs with hfull
  · rw [OrderedMap.entries_set_of_none (OrderedMap.get_empty key)]
    simp [OrderedMap.empty, maxCachedKeys]
  · rw [OrderedMap.entries_set_of_none h, length_append, length_singleton]
    exact not_le.mp hfull

def isSensitiveKey (matcher : KeyMatcher) (key : JsString) : Bool × KeyMatcher :=
  match h : matcher.cache.get key with
  | some cached => (cached, matcher)
  | none =>
    (spellsTerm matcher.terms key,
      { matcher with
        cache := matcher.remember key
        cached_eq := fun _ _ => matcher.remember_eq
        bounded := matcher.remember_size h })

/-- The cache changes no answer. -/
theorem isSensitiveKey_spec (matcher : KeyMatcher) (key) :
    (matcher.isSensitiveKey key).1 = spellsTerm matcher.terms key ∧
      (matcher.isSensitiveKey key).2.terms = matcher.terms := by
  unfold isSensitiveKey
  split
  · rename_i cached hcac
    exact ⟨matcher.cached_eq key cached hcac, rfl⟩
  · exact ⟨rfl, rfl⟩

/-- The answers of a matcher that is asked for one key after the other. -/
def answers (matcher : KeyMatcher) : List JsString → List Bool
  | [] => []
  | key :: keys =>
    (matcher.isSensitiveKey key).1 :: (matcher.isSensitiveKey key).2.answers keys

/-- A matcher that is used for every line answers each time as a new one would. -/
theorem answers_eq (extraKeys keys) (matcher : KeyMatcher)
    (h : matcher.terms = sensitiveTerms extraKeys) :
    matcher.answers keys =
      keys.map (fun key => ((createSensitiveKeyMatcher extraKeys).isSensitiveKey key).1) := by
  induction keys generalizing matcher with
  | nil => rfl
  | cons key keys ih =>
    obtain ⟨hans, hterms⟩ := matcher.isSensitiveKey_spec key
    have hnew := ((createSensitiveKeyMatcher extraKeys).isSensitiveKey_spec key).1
    rw [answers, map_cons, hans, hnew, h, ih _ (hterms.trans h)]
    rfl

end KeyMatcher

/-- A built-in term is sensitive as a key whatever a deployment adds. -/
lemma password_sensitive (extraKeys) :
    spellsTerm (sensitiveTerms extraKeys) (units "password") := by
  have hruns : keyRuns (units "password") = [units "password"] := by decide +kernel
  have hterm : units "password" ∈ defaultSensitiveKeys := by decide +kernel
  rw [spellsTerm, hruns]
  simp [sensitiveTerms, hterm]

/-! ### Configured keys -/

lemma flatten_modifyHead {α : Type*} {u : α} {words} (h : words ≠ []) :
    (words.modifyHead (u :: ·)).flatten = u :: words.flatten := by
  obtain ⟨word, rest, rfl⟩ := exists_cons_of_ne_nil h
  rfl

lemma flatten_humps (part) : (humps part).flatten = part := by
  fun_induction humps part with
  | case1 => rfl
  | case2 u => rfl
  | case3 u v rest hends ih => rw [flatten_cons, ih, singleton_append]
  | case4 u v rest hends ih =>
    rw [flatten_modifyHead, ih]
    intro hnil
    rw [hnil] at ih
    cases ih

lemma flatten_splitOnP (key : JsString) :
    (key.splitOnP (fun u => !isAlnum u)).flatten = key.filter isAlnum := by
  induction key with
  | nil => rfl
  | cons u key ih =>
    rw [splitOnP_cons_eq_if_modifyHead]
    cases hu : isAlnum u with
    | true => simp [hu, flatten_modifyHead (splitOnP_ne_nil _ key), ih]
    | false => simp [hu, ih]

/-- The words of a key spell the term that is configured for it. -/
lemma flatten_keyWords (key) : (keyWords key).flatten = normaliseKey key := by
  have hparts : ∀ parts : List JsString, (parts.flatMap humps).flatten = parts.flatten := by
    intro parts
    induction parts with
    | nil => rfl
    | cons part parts ih => rw [flatMap_cons, flatten_append, flatten_humps, ih, flatten_cons]
  have hemp : (fun word : JsString => decide (0 < word.length)) = fun word => !word.isEmpty := by
    funext word
    cases word <;> rfl
  rw [keyWords, hemp, ← map_flatten, flatten_filter_not_isEmpty, hparts,
    flatten_splitOnP, normaliseKey]

lemma normaliseKey_mem_keyRuns {key} (hne : normaliseKey key ≠ [])
    (hwords : (keyWords key).length ≤ maxRunWords) : normaliseKey key ∈ keyRuns key := by
  rw [← flatten_keyWords] at hne ⊢
  refine mem_flatMap.mpr ⟨keyWords key, (mem_tails _ _).mpr suffix_rfl, ?_⟩
  refine mem_map_of_mem ?_
  rw [take_of_length_le hwords]
  cases hkey : keyWords key with
  | nil =>
    rw [hkey] at hne
    exact absurd rfl hne
  | cons word words => simp

/-- A run that spells the whole key has all of its words. -/
lemma words_le_of_mem_keyRuns {key} (h : normaliseKey key ∈ keyRuns key) :
    (keyWords key).length ≤ maxRunWords := by
  obtain ⟨words, htail, hmem⟩ := mem_flatMap.mp h
  obtain ⟨run, hrun, heq⟩ := mem_map.mp hmem
  obtain ⟨before, hbefore⟩ := (mem_tails _ _).mp htail
  have hpref := (mem_inits _ _).mp (mem_of_mem_drop hrun)
  obtain ⟨behind, hbehind⟩ := hpref.trans <| take_prefix maxRunWords words
  have hlen : run.length ≤ maxRunWords := hpref.length_le.trans (length_take_le ..)
  have hwords : ∀ part : List JsString, (∀ word ∈ part, word ∈ keyWords key) → part.flatten = [] →
      part = [] := by
    intro part hpart hnil
    refine eq_nil_iff_forall_not_mem.mpr fun word hword => ?_
    obtain ⟨word', hword', hne⟩ := mem_map.mp (hpart word hword)
    have hpos : 0 < word'.length := of_decide_eq_true (mem_filter.mp hword').2
    rw [← length_map toLowerUnit, hne, flatten_eq_nil_iff.mp hnil word hword] at hpos
    exact lt_irrefl _ hpos
  have hall : keyWords key = before ++ run ++ behind := by
    rw [append_assoc, hbehind, hbefore]
  rw [← flatten_keyWords] at heq
  have hlength := congrArg length heq
  rw [hall] at hlength
  simp only [flatten_append, length_append] at hlength
  have hfront := hwords before (by grind) (length_eq_zero_iff.mp (by omega))
  have hback := hwords behind (by grind) (length_eq_zero_iff.mp (by omega))
  rwa [hall, hfront, hback, nil_append, append_nil]

lemma answers_concat (extraKeys queried : List JsString) (key : JsString) :
    ((createSensitiveKeyMatcher extraKeys).answers (queried ++ [key])).getLast? =
      some (spellsTerm (sensitiveTerms extraKeys) key) := by
  rw [KeyMatcher.answers_eq extraKeys _ _ rfl, map_append, map_singleton, getLast?_concat,
    ((createSensitiveKeyMatcher extraKeys).isSensitiveKey_spec key).1]
  rfl

lemma spellsTerm_iff (extraKeys : List JsString) (key : JsString) :
    spellsTerm (sensitiveTerms extraKeys) key = true ↔
      ((createSensitiveKeyMatcher []).isSensitiveKey key).1 = true ∨
        ∃ extra ∈ extraKeys, normaliseKey extra ≠ [] ∧ normaliseKey extra ∈ keyRuns key := by
  rw [((createSensitiveKeyMatcher []).isSensitiveKey_spec key).1]
  simp only [spellsTerm, createSensitiveKeyMatcher, sensitiveTerms, any_eq_true, contains_iff_mem,
    mem_append, mem_filter, mem_map, map_nil, filter_nil, not_mem_nil, or_false, length_pos_iff,
    decide_eq_true_eq]
  constructor
  · rintro ⟨run, hrun, hdef | ⟨⟨extra, hextra, rfl⟩, hne⟩⟩
    · exact .inl ⟨run, hrun, hdef⟩
    · exact .inr ⟨extra, hextra, hne, hrun⟩
  · rintro (⟨run, hrun, hdef⟩ | ⟨extra, hextra, hne, hrun⟩)
    · exact ⟨run, hrun, .inl hdef⟩
    · exact ⟨_, hrun, .inr ⟨⟨extra, hextra, rfl⟩, hne⟩⟩

/-- A key is sensitive in every list that holds it, whatever was asked before, exactly if it has a
letter or digit and up to four words, or is sensitive without configuration; and what is sensitive
without configuration is so with any. -/
theorem configured_key_sensitive_iff (key : JsString) :
    ((∀ extraKeys queried : List JsString, key ∈ extraKeys →
        ((createSensitiveKeyMatcher extraKeys).answers (queried ++ [key])).getLast? = some true) ↔
      (key.any isAlnum = true ∧ (keyWords key).length ≤ maxRunWords) ∨
        ((createSensitiveKeyMatcher []).isSensitiveKey key).1 = true) ∧
    (((createSensitiveKeyMatcher []).isSensitiveKey key).1 = true →
      ∀ extraKeys queried : List JsString,
        ((createSensitiveKeyMatcher extraKeys).answers (queried ++ [key])).getLast? =
          some true) := by
  have halnum : key.any isAlnum = true ↔ normaliseKey key ≠ [] := by
    simp [normaliseKey, any_eq_true, filter_eq_nil_iff]
  simp only [answers_concat, Option.some.injEq, spellsTerm_iff, halnum]
  refine ⟨⟨?_, ?_⟩, fun hdef extraKeys _ => .inl hdef⟩
  · intro h
    rcases h [key] [] mem_cons_self with hdef | ⟨extra, hextra, hne, hrun⟩
    · exact .inr hdef
    · obtain rfl := mem_singleton.mp hextra
      exact .inl ⟨hne, words_le_of_mem_keyRuns hrun⟩
  · rintro (⟨hne, hwords⟩ | hdef) extraKeys queried hkey
    · exact .inr ⟨key, hkey, hne, normaliseKey_mem_keyRuns hne hwords⟩
    · exact .inl hdef

theorem configured_ipAddress_sensitive :
    ((createSensitiveKeyMatcher [units "ip_address"]).answers
      [units "id", units "ip_address"]).getLast? = some true :=
  (configured_key_sensitive_iff (units "ip_address")).1.mpr (.inl (by decide +kernel))
    [units "ip_address"] [units "id"] mem_cons_self

/-- A key of five words is printed although it is configured. -/
theorem configured_key_printed :
    ((createSensitiveKeyMatcher [units "mothers_maiden_name_on_file"]).isSensitiveKey
      (units "mothers_maiden_name_on_file")).1 = false := by decide +kernel

end BoilerplateExpress.Logging

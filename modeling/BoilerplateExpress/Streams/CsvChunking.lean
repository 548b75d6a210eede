import BoilerplateExpress.Streams.CsvParser

/-!
# The parser one unit at a time

`consume` reads runs in slices and looks one unit ahead after a CR. `feed` takes a single
unit, never looks ahead, and leaves every CR pending. A chunk read by `consume` leaves the
parser where its units fed one by one leave it, so the cuts between chunks are invisible.
-/
namespace BoilerplateExpress.Streams

open EventStream (units lineFeed carriageReturn byteOrderMark)
open List

namespace Parser

def feedUnquoted (c : CsvDialect) (p : Parser) (char : UInt16) : Except CsvFailure Parser :=
  if char = c.delimiter then .ok { p with recordTouched := true }.closeField
  else if char = lineFeed then .ok p.closeRecord
  else if char = carriageReturn then .ok { p with pendingCr := true }
  else { p with recordTouched := true }.append c [char]

def feedAfterQuote (c : CsvDialect) (p : Parser) (char : UInt16) : Except CsvFailure Parser :=
  if char = c.quote then do
    let p ← p.append c [c.quote]
    .ok { p with state := .quoted }
  else if char = c.delimiter then .ok p.closeField
  else if char = lineFeed then .ok { p with state := .fieldStart }.closeRecord
  else if char = carriageReturn then .ok { p with state := .fieldStart, pendingCr := true }
  else p.refuse char

def feedState (c : CsvDialect) (p : Parser) (char : UInt16) : Except CsvFailure Parser :=
  match p.state with
  | .fieldStart =>
    if char = c.quote then .ok { p with recordTouched := true, state := .quoted }
    else { p with state := .unquoted }.feedUnquoted c char
  | .unquoted => p.feedUnquoted c char
  | .quoted =>
    if char = c.quote then .ok { p with state := .afterQuote }
    else { p with line := p.line + if char = lineFeed then 1 else 0 }.append c [char]
  | .afterQuote => p.feedAfterQuote c char

/-- One unit, after the CR before it has been resolved. -/
def feed (c : CsvDialect) (p : Parser) (char : UInt16) : Except CsvFailure Parser :=
  if p.pendingCr then
    let p := { p with pendingCr := false }.closeRecord
    if char = lineFeed then .ok p else p.feedState c char
  else p.feedState c char

def feedAll (c : CsvDialect) (p : Parser) (input : JsString) : Except CsvFailure Parser :=
  input.foldlM (feed c) p

@[simp] lemma feedAll_nil (c) (p : Parser) : p.feedAll c [] = .ok p := rfl

@[simp] lemma feedAll_cons (c) (p : Parser) (char) (rest : JsString) :
    p.feedAll c (char :: rest) = p.feed c char >>= fun q => q.feedAll c rest := by simp [feedAll]

lemma feedAll_append (c) (p : Parser) (s t) :
    p.feedAll c (s ++ t) = p.feedAll c s >>= fun q => q.feedAll c t := by simp [feedAll]

variable {p : Parser}

lemma feed_of_not_pending (h : p.pendingCr = false) (c char) :
    p.feed c char = p.feedState c char := by simp [feed, h]

variable {c : CsvDialect} {q : Parser} {text : JsString}

lemma append_eq_ok (h : p.append c text = .ok q) :
    c.maxRecordChars.exceeded (p.recordChars + text.length) = false ∧
      q = { p with recordChars := p.recordChars + text.length, field := p.field ++ text } := by
  simp only [append] at h
  split_ifs at h with hexc
  · cases h
  · exact ⟨by simpa using hexc, (Except.ok.inj h).symm⟩

/-- A text too long for the record is refused wherever it is cut. -/
lemma append_append (c) (p : Parser) (s t) :
    p.append c (s ++ t) = p.append c s >>= fun q => q.append c t := by
  simp only [append, length_append, ← Nat.add_assoc]
  by_cases hs : c.maxRecordChars.exceeded (p.recordChars + s.length)
  · have hst := Limit.exceeded_mono (Nat.le_add_right _ t.length) hs
    rw [if_pos hs, if_pos hst]
    rfl
  · rw [if_neg hs]
    show _ = if _ then _ else _
    split_ifs <;> simp [fail]

lemma append_cons (c) (p : Parser) (char) (run : JsString) :
    p.append c (char :: run) = p.append c [char] >>= fun q => q.appendRun c run := by
  cases run with
  | nil => cases p.append c [char] <;> rfl
  | cons next run => exact append_append c p [char] (next :: run)

variable {run : JsString}

lemma feedAll_unquoted_run (c) (hst : p.state = .unquoted) (hpend : p.pendingCr = false)
    (hrun : ∀ char ∈ run, ordinary c char) :
    p.feedAll c run =
      { p with recordTouched := p.recordTouched || !run.isEmpty }.appendRun c run := by
  induction run generalizing p with
  | nil => simp [appendRun]
  | cons char run ih =>
    have hchar := hrun char mem_cons_self
    simp only [ordinary, Bool.not_eq_true', Bool.or_eq_false_iff, decide_eq_false_iff_not] at hchar
    have hfeed : p.feed c char = { p with recordTouched := true }.append c [char] := by
      simp [feed_of_not_pending hpend, feedState, hst, feedUnquoted, hchar]
    rw [feedAll_cons, hfeed, appendRun, if_neg (cons_ne_nil char run)]
    simp only [isEmpty_cons, Bool.not_false, Bool.or_true]
    rw [append_cons c _ char run]
    cases hq : append c { p with recordTouched := true } [char] with
    | error failure => rfl
    | ok q =>
      have hq' := (append_eq_ok hq).2
      have hrest := ih (p := q) (by simp [hq', hst]) (by simp [hq', hpend])
        (fun u hu => hrun u (mem_cons_of_mem char hu))
      have htch : { q with recordTouched := q.recordTouched || !run.isEmpty } = q := by
        simp [hq']
      rw [htch] at hrest
      exact hrest

lemma feedAll_quoted_run (hst : p.state = .quoted) (hpend : p.pendingCr = false)
    (hrun : ∀ char ∈ run, char ≠ c.quote) :
    p.feedAll c run = { p with line := p.line + run.count lineFeed }.appendRun c run := by
  induction run generalizing p with
  | nil => simp [appendRun]
  | cons char run ih =>
    have hchar := hrun char mem_cons_self
    have hfeed : p.feed c char =
        { p with line := p.line + if char = lineFeed then 1 else 0 }.append c [char] := by
      simp [feed_of_not_pending hpend, feedState, hst, hchar]
    have hcnt : p.line + (char :: run).count lineFeed =
        p.line + (if char = lineFeed then 1 else 0) + run.count lineFeed := by
      rw [count_cons]
      simp only [beq_iff_eq]
      omega
    rw [feedAll_cons, hfeed, appendRun, if_neg (cons_ne_nil char run),
      append_cons c _ char run, hcnt]
    -- the lines of the rest of the run are counted after the first unit was accepted
    simp only [append]
    by_cases hexc : c.maxRecordChars.exceeded (p.recordChars + [char].length)
    · rw [if_pos hexc, if_pos hexc]
      rfl
    · rw [if_neg hexc, if_neg hexc]
      exact ih hst hpend (fun u hu => hrun u (mem_cons_of_mem char hu))

/-- What is left after the terminator is read as after its unit fed alone. -/
lemma terminate_feedAll (c) (hpend : p.pendingCr = false) (char) (rest : JsString) :
    (p.terminate (char :: rest)).1.feedAll c (p.terminate (char :: rest)).2 =
      (if char = lineFeed then p.closeRecord else { p with pendingCr := true }).feedAll c rest := by
  by_cases hlf : char = lineFeed
  · simp [terminate, hlf]
  · cases rest with
    | nil => simp [terminate, hlf]
    | cons next rest =>
      have hres : { p with pendingCr := false } = p := by simp [← hpend]
      have hcl := p.closeRecord_pendingCr.trans hpend
      by_cases hnext : next = lineFeed
      · simp [terminate, hlf, hnext, feed, hres]
      · have hfeed := feed_of_not_pending hcl c next
        simp [terminate, hlf, hnext, hfeed]
        simp [feed, hres, hnext]

variable {char : UInt16}

lemma ordinary_eq_false (h : ordinary c char = false) :
    char = c.delimiter ∨ char ≠ c.delimiter ∧ (char = lineFeed ∨ char = carriageReturn) := by
  simp only [ordinary, Bool.not_eq_false', Bool.or_eq_true, decide_eq_true_eq] at h
  tauto

variable {input : JsString}

lemma endUnquoted_feedAll (hst : p.state = .unquoted) (hpend : p.pendingCr = false)
    (hhead : ∀ char ∈ input.head?, ordinary c char = false) :
    (p.endUnquoted c input).1.feedAll c (p.endUnquoted c input).2 = p.feedAll c input := by
  cases input with
  | nil => rfl
  | cons char rest =>
    have hfeed : p.feed c char = p.feedUnquoted c char := by
      simp [feed_of_not_pending hpend, feedState, hst]
    rcases ordinary_eq_false (hhead char rfl) with hd | ⟨hd, hbreak⟩
    · simp [endUnquoted, hfeed, feedUnquoted, if_pos hd]
    · simp only [endUnquoted, hd, if_false, terminate_feedAll c hpend, feedAll_cons, hfeed,
        feedUnquoted]
      split_ifs with hlf hcr
      · rfl
      · rfl
      · exact absurd hbreak (by simp [hlf, hcr])

lemma endQuoted_feedAll (hst : p.state = .quoted) (hpend : p.pendingCr = false)
    (hhead : ∀ char ∈ input.head?, char = c.quote) :
    (p.endQuoted input).1.feedAll c (p.endQuoted input).2 = p.feedAll c input := by
  cases input with
  | nil => rfl
  | cons char rest =>
    have hchar : char = c.quote := hhead char rfl
    simp [endQuoted, feed_of_not_pending hpend, feedState, hst, hchar]

lemma head_dropWhile (stop) (input : JsString) :
    ∀ char ∈ (input.dropWhile stop).head?, stop char = false := by
  intro char hchar
  have hnot := head?_dropWhile_not stop input
  rwa [Option.mem_def.mp hchar] at hnot

lemma appendRun_eq_ok (h : p.appendRun c run = .ok q) :
    q.state = p.state ∧ q.pendingCr = p.pendingCr := by
  unfold appendRun at h
  split_ifs at h
  · rw [Except.ok.injEq] at h
    simp [h]
  · simp [(append_eq_ok h).2]

lemma readUnquoted_feedAll (c) (hst : p.state = .unquoted) (hpend : p.pendingCr = false)
    (input) : (p.readUnquoted c input >>= fun r => r.1.feedAll c r.2) = p.feedAll c input := by
  have hcut := takeWhile_append_dropWhile (p := ordinary c) (l := input)
  have hhead := head_dropWhile (ordinary c) input
  have hrun := feedAll_unquoted_run c hst hpend
    (fun char hchar => mem_takeWhile_imp (p := ordinary c) (l := input) hchar)
  have hfeed := feedAll_append c p (input.takeWhile (ordinary c)) (input.dropWhile (ordinary c))
  rw [hcut, hrun] at hfeed
  rw [hfeed, readUnquoted]
  cases hq : appendRun c { p with recordTouched :=
      p.recordTouched || !(input.takeWhile (ordinary c)).isEmpty } (input.takeWhile (ordinary c)) with
  | error failure => rfl
  | ok q =>
    obtain ⟨hqst, hqpen⟩ := appendRun_eq_ok hq
    exact endUnquoted_feedAll (hqst.trans hst) (hqpen.trans hpend) hhead

lemma readQuoted_feedAll (c) (hst : p.state = .quoted) (hpend : p.pendingCr = false) (input) :
    (p.readQuoted c input >>= fun r => r.1.feedAll c r.2) = p.feedAll c input := by
  have hcut := takeWhile_append_dropWhile (p := (· ≠ c.quote)) (l := input)
  have hhead : ∀ char ∈ (input.dropWhile (· ≠ c.quote)).head?, char = c.quote := by
    simpa using head_dropWhile (· ≠ c.quote) input
  have hplain : ∀ char ∈ input.takeWhile (· ≠ c.quote), char ≠ c.quote := by
    intro char hchar
    simpa using mem_takeWhile_imp hchar
  have hrun := feedAll_quoted_run hst hpend hplain
  have hfeed := feedAll_append c p (input.takeWhile (· ≠ c.quote)) (input.dropWhile (· ≠ c.quote))
  rw [hcut, hrun] at hfeed
  rw [hfeed, readQuoted]
  cases hq : appendRun c { p with line := p.line + (input.takeWhile (· ≠ c.quote)).count lineFeed }
      (input.takeWhile (· ≠ c.quote)) with
  | error failure => rfl
  | ok q =>
    obtain ⟨hqst, hqpen⟩ := appendRun_eq_ok hq
    exact endQuoted_feedAll (hqst.trans hst) (hqpen.trans hpend) hhead

lemma readAfterQuote_feedAll (c) (hst : p.state = .afterQuote) (hpend : p.pendingCr = false)
    (char) (rest : JsString) :
    (p.readAfterQuote c (char :: rest) >>= fun r => r.1.feedAll c r.2) =
      p.feedAll c (char :: rest) := by
  have hfeed : p.feed c char = p.feedAfterQuote c char := by
    simp [feed_of_not_pending hpend, feedState, hst]
  have hterm := terminate_feedAll c (p := { p with state := .fieldStart }) hpend char rest
  rw [feedAll_cons, hfeed]
  simp only [readAfterQuote, feedAfterQuote]
  by_cases hquote : char = c.quote
  · rw [if_pos hquote, if_pos hquote]
    cases p.append c [c.quote] <;> rfl
  rw [if_neg hquote, if_neg hquote]
  by_cases hdelim : char = c.delimiter
  · rw [if_pos hdelim, if_pos hdelim]
    rfl
  rw [if_neg hdelim, if_neg hdelim]
  by_cases hlf : char = lineFeed
  · rw [if_pos hlf, if_pos (by simp [hlf])]
    rw [if_pos hlf] at hterm
    exact hterm
  rw [if_neg hlf]
  by_cases hcr : char = carriageReturn
  · rw [if_pos hcr, if_pos (by simp [hcr])]
    rw [if_neg hlf] at hterm
    exact hterm
  · rw [if_neg hcr, if_neg (by simp [hlf, hcr])]
    rfl

lemma dispatch_feedAll (c) (hpend : p.pendingCr = false) (char) (rest : JsString) :
    (p.dispatch c (char :: rest) >>= fun r => r.1.feedAll c r.2) = p.feedAll c (char :: rest) := by
  unfold dispatch
  cases hst : p.state with
  | fieldStart =>
    by_cases hquote : char = c.quote
    · simp [readFieldStart, feed_of_not_pending hpend, feedState, hst, hquote]
    · simp [readFieldStart, feed, hpend, feedState, hst, hquote]
  | unquoted => exact readUnquoted_feedAll c hst hpend (char :: rest)
  | quoted => exact readQuoted_feedAll c hst hpend (char :: rest)
  | afterQuote => exact readAfterQuote_feedAll c hst hpend char rest

lemma turn_feedAll (c) (p : Parser) (char rest) :
    (p.turn c char rest >>= fun r => r.1.feedAll c r.2) = p.feedAll c (char :: rest) := by
  unfold turn
  by_cases hpend : p.pendingCr
  · have hcl : ({ p with pendingCr := false }.closeRecord).pendingCr = false := by simp
    have hdis := dispatch_feedAll c hcl char rest
    rw [feedAll_cons, feed_of_not_pending hcl] at hdis
    by_cases hlf : char = lineFeed
    · simp [hpend, feed, hlf]
    · simp only [hpend, hlf, feedAll_cons, feed]
      exact hdis
  · rw [if_neg hpend]
    exact dispatch_feedAll c (by simpa using hpend) char rest

/-- The loop leaves the parser where the units fed one by one leave it. -/
theorem consumeLoop_eq_feedAll (c p input) : consumeLoop c p input = p.feedAll c input := by
  fun_induction consumeLoop c p input with
  | case1 p => rfl
  | case2 p char rest failure hturn =>
    rw [← turn_feedAll, hturn]
    rfl
  | case3 p char rest q left hturn ih =>
    rw [← turn_feedAll, hturn, ih]
    rfl

/-- What reading never does: it takes back no record and leaves the start alone. -/
structure Extends (p q : Parser) : Prop where
  atStart : q.atStart = p.atStart
  pushed : p.pushed <+: q.pushed

lemma Extends.refl (p : Parser) : p.Extends p := ⟨rfl, prefix_rfl⟩

lemma Extends.trans {r} (hpq : p.Extends q) (hqr : q.Extends r) : p.Extends r :=
  ⟨hqr.atStart.trans hpq.atStart, hpq.pushed.trans hqr.pushed⟩

lemma closeRecord_extends (p : Parser) : p.Extends p.closeRecord := by
  refine ⟨p.closeRecord_atStart, ?_⟩
  unfold closeRecord
  split_ifs
  · exact prefix_append _ _
  · exact prefix_rfl

/-- Everything a unit can do to a parser without a pending CR. -/
inductive Fed (c : CsvDialect) (p : Parser) (char : UInt16) : Parser → Prop where
  | opens (hstate : p.state = .fieldStart) (hchar : char = c.quote) :
      Fed c p char { p with recordTouched := true, state := .quoted }
  | plain (hstate : p.state = .fieldStart ∨ p.state = .unquoted)
      (hlf : char ≠ lineFeed) (hcr : char ≠ carriageReturn)
      (hfits : c.maxRecordChars.exceeded (p.recordChars + 1) = false) :
      Fed c p char { p with
        state := .unquoted, recordTouched := true, recordChars := p.recordChars + 1,
        field := p.field ++ [char] }
  | content (hstate : p.state = .quoted) (hchar : char ≠ c.quote)
      (hfits : c.maxRecordChars.exceeded (p.recordChars + 1) = false) :
      Fed c p char { p with
        state := .quoted, line := p.line + if char = lineFeed then 1 else 0,
        recordChars := p.recordChars + 1, field := p.field ++ [char] }
  | closesQuote (hstate : p.state = .quoted) (hchar : char = c.quote) :
      Fed c p char { p with state := .afterQuote }
  | doubled (hstate : p.state = .afterQuote) (hchar : char = c.quote)
      (hfits : c.maxRecordChars.exceeded (p.recordChars + 1) = false) :
      Fed c p char { p with
        state := .quoted, recordChars := p.recordChars + 1, field := p.field ++ [char] }
  | closesField (touched : Bool) (hstate : p.state ≠ .quoted) (hchar : char = c.delimiter)
      (htouched : p.state = .afterQuote ∧ touched = p.recordTouched ∨ touched = true) :
      Fed c p char { p with recordTouched := touched }.closeField
  | closesRecord (hstate : p.state ≠ .quoted) (hchar : char = lineFeed) : Fed c p char p.closeRecord
  | holdsCr (state : State) (hstate : p.state ≠ .quoted) (hchar : char = carriageReturn) :
      Fed c p char { p with state := state, pendingCr := true }

lemma fed_of_feedUnquoted (hstate : p.state = .fieldStart ∨ p.state = .unquoted)
    (h : { p with state := .unquoted }.feedUnquoted c char = .ok q) : Fed c p char q := by
  have hquoted : p.state ≠ .quoted := by rcases hstate with hstate | hstate <;> simp [hstate]
  unfold feedUnquoted at h
  split_ifs at h with hd hlf hcr
  · exact Except.ok.inj h ▸ .closesField true hquoted hd (.inr rfl)
  · exact Except.ok.inj h ▸ .closesRecord hquoted hlf
  · exact Except.ok.inj h ▸ .holdsCr _ hquoted hcr
  · obtain ⟨hfits, rfl⟩ := append_eq_ok h
    exact .plain hstate hlf hcr hfits

lemma fed_of_feedAfterQuote (hst : p.state = .afterQuote)
    (h : p.feedAfterQuote c char = .ok q) : Fed c p char q := by
  have hquo : p.state ≠ .quoted := by simp [hst]
  unfold feedAfterQuote at h
  split_ifs at h with hquote hd hlf hcr
  · obtain ⟨r, hr, hq⟩ := bind_eq_ok h
    obtain ⟨hfits, rfl⟩ := append_eq_ok hr
    exact Except.ok.inj hq ▸ hquote ▸ .doubled hst hquote hfits
  · exact Except.ok.inj h ▸ .closesField p.recordTouched hquo hd (.inl ⟨hst, rfl⟩)
  · exact Except.ok.inj h ▸ .closesRecord hquo hlf
  · exact Except.ok.inj h ▸ .holdsCr _ hquo hcr
  · cases h

lemma fed_of_feedState (h : p.feedState c char = .ok q) : Fed c p char q := by
  unfold feedState at h
  cases hst : p.state with
  | fieldStart =>
    simp only [hst] at h
    split_ifs at h with hquote
    · exact Except.ok.inj h ▸ .opens hst hquote
    · exact fed_of_feedUnquoted (.inl hst) h
  | unquoted =>
    simp only [hst] at h
    exact fed_of_feedUnquoted (.inr hst) (hst ▸ h)
  | quoted =>
    simp only [hst] at h
    by_cases hquote : char = c.quote
    · rw [if_pos hquote] at h
      exact Except.ok.inj h ▸ .closesQuote hst hquote
    · rw [if_neg hquote] at h
      obtain ⟨hfits, rfl⟩ := append_eq_ok h
      exact .content hst hquote hfits
  | afterQuote =>
    simp only [hst] at h
    exact fed_of_feedAfterQuote hst h

/-- The parser once a pending CR is known to stand alone. -/
def resolve (p : Parser) : Parser :=
  if p.pendingCr then { p with pendingCr := false }.closeRecord else p

lemma resolve_of_not_pending (h : p.pendingCr = false) : p.resolve = p := by simp [resolve, h]

lemma resolve_extends (p : Parser) : p.Extends p.resolve := by
  have hcl := closeRecord_extends { p with pendingCr := false }
  unfold resolve
  split_ifs
  · exact ⟨hcl.atStart, hcl.pushed⟩
  · exact Extends.refl p

/-- A pending CR is resolved first, and takes an LF with it. -/
lemma fed_of_feed (h : p.feed c char = .ok q) :
    (p.pendingCr ∧ char = lineFeed ∧ q = p.resolve) ∨ Fed c p.resolve char q := by
  unfold feed at h
  split_ifs at h with hpend hlf
  · exact .inl ⟨hpend, hlf, by simpa [resolve, hpend] using h.symm⟩
  · exact .inr (fed_of_feedState (by simpa [resolve, hpend] using h))
  · rw [resolve_of_not_pending (by simpa using hpend)]
    exact .inr (fed_of_feedState h)

lemma Fed.extends (h : Fed c p char q) : p.Extends q := by
  cases h with
  | closesRecord => exact p.closeRecord_extends
  | _ => exact ⟨rfl, prefix_rfl⟩

lemma feed_extends (h : p.feed c char = .ok q) : p.Extends q := by
  rcases fed_of_feed h with ⟨-, -, rfl⟩ | hfed
  · exact p.resolve_extends
  · exact p.resolve_extends.trans hfed.extends

lemma feedAll_extends (h : p.feedAll c input = .ok q) : p.Extends q := by
  induction input generalizing p with
  | nil => exact Except.ok.inj h ▸ Extends.refl p
  | cons char rest ih =>
    obtain ⟨r, hr, hq⟩ := bind_eq_ok h
    exact (feed_extends hr).trans (ih hq)

lemma consume_of_started (c) (h : p.atStart = false) (text) :
    p.consume c text = p.feedAll c text := by
  cases text with
  | nil => rfl
  | cons first rest => simp [consume, h, consumeLoop_eq_feedAll]

lemma consume_at_start (c) (h : p.atStart) (first) (rest : JsString) :
    p.consume c (first :: rest) = feedAll c { p with atStart := false }
      (if first = byteOrderMark then rest else first :: rest) := by
  simp [consume, h, consumeLoop_eq_feedAll]

/-- A cut between two chunks is invisible. -/
theorem consume_append (c) (p : Parser) (s t) :
    p.consume c (s ++ t) = p.consume c s >>= fun q => q.consume c t := by
  cases hstart : p.atStart with
  | false =>
    rw [consume_of_started c hstart, consume_of_started c hstart, feedAll_append]
    cases hq : p.feedAll c s with
    | error failure => rfl
    | ok q => exact (consume_of_started c ((feedAll_extends hq).atStart.trans hstart) t).symm
  | true =>
    cases s with
    | nil => rfl
    | cons first rest =>
      have hstrip : (if first = byteOrderMark then rest ++ t else first :: (rest ++ t)) =
          (if first = byteOrderMark then rest else first :: rest) ++ t := by split_ifs <;> rfl
      rw [cons_append, consume_at_start c hstart, consume_at_start c hstart, hstrip, feedAll_append]
      cases hq : feedAll c { p with atStart := false }
          (if first = byteOrderMark then rest else first :: rest) with
      | error failure => rfl
      | ok q =>
        have hrest := consume_of_started c (feedAll_extends hq).atStart t
        exact hrest.symm

lemma consume_pushed (h : p.consume c text = .ok q) : p.pushed <+: q.pushed := by
  cases text with
  | nil => exact Except.ok.inj h ▸ prefix_rfl
  | cons first rest =>
    cases hstart : p.atStart with
    | false =>
      rw [consume_of_started c hstart] at h
      exact (feedAll_extends h).pushed
    | true =>
      rw [consume_at_start c hstart] at h
      have hq := feedAll_extends h
      exact hq.pushed

lemma flush_eq_ok {records} (h : p.flush = .ok records) :
    records = (if p.resolve.recordTouched then p.resolve.closeRecord else p.resolve).pushed := by
  change (if p.resolve.state = .quoted then p.resolve.fail _ _ _
    else .ok (if p.resolve.recordTouched then p.resolve.closeRecord else p.resolve).pushed) = _ at h
  by_cases hquo : p.resolve.state = .quoted
  · rw [if_pos hquo] at h
    cases h
  · rw [if_neg hquo] at h
    exact (Except.ok.inj h).symm

lemma flush_pushed {records} (h : p.flush = .ok records) : p.pushed <+: records := by
  rw [flush_eq_ok h]
  split_ifs
  · exact p.resolve_extends.pushed.trans p.resolve.closeRecord_extends.pushed
  · exact p.resolve_extends.pushed

lemma foldlM_consume (c p) (texts : List JsString) :
    texts.foldlM (consume c) p = p.consume c texts.flatten := by
  induction texts generalizing p with
  | nil => rfl
  | cons text texts ih =>
    rw [flatten_cons, consume_append, foldlM_cons]
    simp [ih]

end Parser

lemma CsvDialect.parseTexts_eq (c texts) :
    c.parseTexts texts = Parser.consume c {} texts.flatten >>= Parser.flush := by
  rw [parseTexts, Parser.foldlM_consume]

lemma CsvDialect.parse_eq {decode d} (c) (hd : d.Reassembles decode) (chunks) :
    c.parse d chunks = Parser.consume c {} (decode chunks.flatten) >>= Parser.flush := by
  rw [CsvDialect.parse, c.parseTexts_eq, hd.whole]

/-- The settings of a parser without options. -/
def defaultDialect : CsvDialect := ⟨44, 34, defaultMaxRecordChars, by decide⟩

/-- A decoder that holds everything back until the end. -/
def bufferingDecoder (decode : Bytes → JsString) : StringDecoder where
  Held := Bytes
  start := []
  write held chunk := ([], held ++ chunk)
  finish := decode

lemma bufferingDecoder_whole (decode chunks) :
    ((bufferingDecoder decode).texts chunks).flatten = decode chunks.flatten := by
  have hheld : ∀ held : Bytes,
      ((bufferingDecoder decode).textsFrom held chunks).flatten = decode (held ++ chunks.flatten) := by
    induction chunks with
    | nil => simp [StringDecoder.textsFrom, bufferingDecoder]
    | cons chunk chunks ih =>
      intro held
      have hrest := ih (held ++ chunk)
      simpa [StringDecoder.textsFrom, bufferingDecoder] using hrest
  exact hheld []

/-- `decode` of UTF-8 that drops a text it cannot read. -/
def decodeUtf8 (bytes : Bytes) : JsString := JsString.ofText ((Text.ofUtf8 bytes).getD [])

lemma bufferingDecoder_reassembles : (bufferingDecoder decodeUtf8).Reassembles decodeUtf8 where
  whole := bufferingDecoder_whole decodeUtf8
  utf8 s hs := by
    rw [decodeUtf8, JsString.utf8, Text.ofUtf8_utf8, Option.getD_some, JsString.ofText_toText hs]

/-- The records, their lines and the error are the same for every way of cutting a text,
and for every way of cutting the bytes of a document. -/
theorem csv_parsing_ignores_chunks (c : CsvDialect) :
    (∀ texts texts' : List JsString, texts.flatten = texts'.flatten →
      c.parseTexts texts = c.parseTexts texts') ∧
    ∀ (d : StringDecoder) (decode : Bytes → JsString), d.Reassembles decode →
      ∀ chunks chunks' : List Bytes, chunks.flatten = chunks'.flatten →
        c.parse d chunks = c.parse d chunks' := by
  have htexts : ∀ texts texts' : List JsString, texts.flatten = texts'.flatten →
      c.parseTexts texts = c.parseTexts texts' := by
    intro texts texts' hflat
    rw [c.parseTexts_eq, c.parseTexts_eq, hflat]
  refine ⟨htexts, ?_⟩
  intro d decode hdec chunks chunks' hflat
  rw [c.parse_eq hdec, c.parse_eq hdec, hflat]

theorem csv_chunks_cut_at_the_seams :
    defaultDialect.parseTexts [units "\uFEFFa\r", [], units "\n\"b\"", units "\"c\"\r"] =
        defaultDialect.parseTexts [units "\uFEFFa\r\n\"b\"\"c\"\r"] ∧
      defaultDialect.parseTexts [units "\uFEFFa\r\n\"b\"\"c\"\r"] =
        .ok [⟨1, [units "a"]⟩, ⟨2, [units "b\"c"]⟩] ∧
      defaultDialect.parse (bufferingDecoder decodeUtf8) [[97, 13], [], [10, 98]] =
        defaultDialect.parse (bufferingDecoder decodeUtf8) [[97], [13, 10, 98]] := by
  obtain ⟨htexts, hbytes⟩ := csv_parsing_ignores_chunks defaultDialect
  refine ⟨htexts _ _ (by decide +kernel), by decide +kernel, ?_⟩
  exact hbytes _ _ bufferingDecoder_reassembles _ _ (by decide)

end BoilerplateExpress.Streams

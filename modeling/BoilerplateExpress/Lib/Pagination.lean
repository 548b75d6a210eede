import BoilerplateExpress.Errors
import BoilerplateExpress.EventStream
import BoilerplateExpress.Keyset
import Mathlib.Data.Prod.Lex

/-!
# Keyset pagination

`lib/pagination.ts`: a cursor holds the sort value and the id of the last row of a page, and
the next page starts beyond that pair. The statement that fetches a page is the caller's: the
rows that meet the condition, in the order of the pair, one more than the page holds. A walk
over the pages visits the whole table, each row once and in order.
-/
namespace BoilerplateExpress.Pagination

open EventStream (units)
open List

inductive Direction where
  | asc
  | desc
  deriving DecidableEq, Repr

/-- `JSON.stringify` and `base64url` of an object with a sort value and an id, and the way
back. A property that is not there is `none`; a text that is no object at all cannot be
decoded, and neither can the empty one. -/
structure CursorCodec (α β : Type) where
  encode : α → β → JsString
  decode : JsString → Option (Option α × Option β)
  decode_encode : ∀ sortValue id, decode (encode sortValue id) = some (some sortValue, some id)
  decode_empty : decode [] = none

/-- A condition: its text, and the comparison of rows that PostgreSQL makes of it, with the
parameters it is given. -/
structure CursorWhereClause (α β : Type) where
  sql : JsString
  comparison : Option (Direction × α × β)

structure BuildCursorOptions where
  cursor : Option JsString
  sortColumn : JsString
  direction : Direction
  paramStart : ℕ := 1

structure CursorPage (ρ : Type) where
  data : List ρ
  nextCursor : Option JsString
  hasNextPage : Bool
  limit : ℕ

variable {ρ α β : Type}

def invalidCursor : AppError := ⟨400, "Invalid pagination cursor", some "INVALID_CURSOR", []⟩

def decodeCursor (codec : CursorCodec α β) (cursor : JsString) :
    Except AppError (Option α × Option β) :=
  match codec.decode cursor with
  | none => .error invalidCursor
  | some decoded => .ok decoded

def operator : Direction → JsString
  | .asc => units ">"
  | .desc => units "<"

/-- An empty cursor is no cursor. -/
def buildCursorWhere (codec : CursorCodec α β) (options : BuildCursorOptions) :
    Except AppError (CursorWhereClause α β) :=
  match options.cursor with
  | none | some [] => .ok ⟨[], none⟩
  | some cursor =>
    match decodeCursor codec cursor with
    | .error error => .error error
    | .ok (some sortValue, some id) =>
      .ok
        { sql := units "(\"" ++ options.sortColumn ++ units "\", \"id\") " ++
            operator options.direction ++ units " ($" ++ JsString.natUnits options.paramStart ++
            units ", $" ++ JsString.natUnits (options.paramStart + 1) ++ units ")"
          comparison := some (options.direction, sortValue, id) }
    | .ok _ => .error invalidCursor

lemma buildCursorWhere_encode (codec sortColumn direction) (sortValue : α) (id : β) :
    ∃ clause, buildCursorWhere codec
        { cursor := some (codec.encode sortValue id), sortColumn, direction } = .ok clause ∧
      clause.comparison = some (direction, sortValue, id) := by
  have hdecode := codec.decode_encode sortValue id
  cases hencode : codec.encode sortValue id with
  | nil =>
    rw [hencode, codec.decode_empty] at hdecode
    cases hdecode
  | cons u cursor =>
    rw [hencode] at hdecode
    simp [buildCursorWhere, decodeCursor, hdecode]

/-- Fails on a row without one of the two columns. -/
def createCursor (codec : CursorCodec α β) (row : Option α × Option β) (sortColumn : JsString) :
    Except JsString JsString :=
  match row with
  | (some sortValue, some id) => .ok (codec.encode sortValue id)
  | _ => .error (units "Row is missing required fields: " ++ sortColumn ++ units ", id")

/-- A row that was fetched beyond the limit tells that there is a next page. -/
def paginate (codec : CursorCodec α β) (columns : ρ → Option α × Option β) (rows : List ρ)
    (limit : ℕ) (sortColumn : JsString) : Except JsString (CursorPage ρ) :=
  if limit < rows.length then
    match (rows.take limit).getLast? with
    | none => .ok ⟨rows.take limit, none, true, limit⟩
    | some lastRow =>
      match createCursor codec (columns lastRow) sortColumn with
      | .error message => .error message
      | .ok cursor => .ok ⟨rows.take limit, some cursor, true, limit⟩
  else .ok ⟨rows, none, false, limit⟩

/-- A table with a sort column and an id column, no id twice. -/
structure Table (ρ α β : Type) where
  rows : List ρ
  sortValue : ρ → α
  id : ρ → β
  unique_ids : (rows.map id).Nodup

/-- What a page may fail with. -/
inductive PageError where
  | app (error : AppError)
  | error (message : JsString)

section Walk

variable [LinearOrder α] [LinearOrder β]

/-- The order of rows, by the sort value and then by the id. -/
def precedes (direction : Direction) (x y : α ×ₗ β) : Prop :=
  match direction with
  | .asc => x < y
  | .desc => y < x

instance (direction : Direction) : DecidableRel (precedes direction : α ×ₗ β → α ×ₗ β → Prop) :=
  match direction with
  | .asc => fun x y => inferInstanceAs (Decidable (x < y))
  | .desc => fun x y => inferInstanceAs (Decidable (y < x))

instance (direction : Direction) :
    IsStrictTotalOrder (α ×ₗ β) (precedes direction) :=
  match direction with
  | .asc => inferInstanceAs (IsStrictTotalOrder (α ×ₗ β) (· < ·))
  | .desc => inferInstanceAs (IsStrictTotalOrder (α ×ₗ β) (· > ·))

/-- Row values are compared from left to right. -/
def CursorWhereClause.holds (clause : CursorWhereClause α β) (key : α ×ₗ β) : Bool :=
  match clause.comparison with
  | none => true
  | some (direction, sortValue, id) => precedes direction (toLex (sortValue, id)) key

namespace Table

def key (table : Table ρ α β) (row : ρ) : α ×ₗ β := toLex (table.sortValue row, table.id row)

/-- The rows that meet a condition, in order, at most so many of them. -/
def select (table : Table ρ α β) (direction : Direction) (clause : CursorWhereClause α β)
    (count : ℕ) : List ρ :=
  (Keyset.sort (precedes direction) table.key
    (table.rows.filter fun row => clause.holds (table.key row))).take count

/-- The page a client gets for a cursor. -/
def page (table : Table ρ α β) (codec : CursorCodec α β) (direction : Direction)
    (sortColumn : JsString) (limit : ℕ) (cursor : Option JsString) :
    Except PageError (CursorPage ρ) :=
  match buildCursorWhere codec { cursor, sortColumn, direction } with
  | .error error => .error (.app error)
  | .ok clause =>
    match paginate codec (fun row => (some (table.sortValue row), some (table.id row)))
      (table.select direction clause (limit + 1)) limit sortColumn with
    | .error message => .error (.error message)
    | .ok page => .ok page

/-- A client that follows the cursors from one on, to a page that has none. -/
inductive Visits (table : Table ρ α β) (codec : CursorCodec α β) (direction : Direction)
    (sortColumn : JsString) (limit : ℕ) : Option JsString → List (CursorPage ρ) → Prop
  | last {cursor : Option JsString} {page : CursorPage ρ} :
      table.page codec direction sortColumn limit cursor = .ok page → page.nextCursor = none →
      Visits table codec direction sortColumn limit cursor [page]
  | next {cursor : Option JsString} {page : CursorPage ρ} {nextCursor : JsString}
      {pages : List (CursorPage ρ)} :
      table.page codec direction sortColumn limit cursor = .ok page →
      page.nextCursor = some nextCursor →
      Visits table codec direction sortColumn limit (some nextCursor) pages →
      Visits table codec direction sortColumn limit cursor (page :: pages)

variable {limit : ℕ} {rest : List ρ}

lemma take_ne_nil (hlimit : 1 ≤ limit) (h : limit < rest.length) : rest.take limit ≠ [] := by
  intro hnil
  have hlength := congrArg List.length hnil
  rw [length_take, length_nil] at hlength
  omega

/-- The table in order. -/
def ordered (table : Table ρ α β) (direction : Direction) : List ρ :=
  Keyset.sort (precedes direction) table.key table.rows

omit [LinearOrder α] [LinearOrder β] in
lemma nodup_keys (table : Table ρ α β) : (table.rows.map table.key).Nodup := by
  have hids : table.rows.map table.id = (table.rows.map table.key).map (fun k => (ofLex k).2) := by
    simp [key]
  exact List.Nodup.of_map _ (hids ▸ table.unique_ids)

lemma inOrder_ordered (table : Table ρ α β) (direction) :
    Keyset.InOrder (precedes direction) table.key (table.ordered direction) :=
  Keyset.inOrder_sort table.nodup_keys

/-- The cursor of a client that has seen these rows. -/
def cursorAfter (table : Table ρ α β) (codec : CursorCodec α β) (seen : List ρ) :
    Option JsString :=
  seen.getLast?.map fun row => codec.encode (table.sortValue row) (table.id row)

lemma select_eq (table : Table ρ α β) (direction clause count) :
    table.select direction clause count =
      ((table.ordered direction).filter fun row => clause.holds (table.key row)).take count := by
  rw [select, Keyset.sort_filter table.nodup_keys]
  rfl

variable {seen : List ρ}

lemma select_cursorAfter {direction} (table : Table ρ α β) (codec) (sortColumn)
    (h : table.ordered direction = seen ++ rest) (count) :
    ∃ clause, buildCursorWhere codec
        { cursor := table.cursorAfter codec seen, sortColumn, direction } = .ok clause ∧
      table.select direction clause count = rest.take count := by
  rcases eq_nil_or_concat' seen with rfl | ⟨init, a, rfl⟩
  · refine ⟨⟨[], none⟩, rfl, ?_⟩
    rw [select_eq, h, nil_append]
    simp [CursorWhereClause.holds]
  · have hcurs : table.cursorAfter codec (init ++ [a]) =
        some (codec.encode (table.sortValue a) (table.id a)) := by simp [cursorAfter]
    obtain ⟨clause, hclause, hcom⟩ := buildCursorWhere_encode codec sortColumn direction
      (table.sortValue a) (table.id a)
    refine ⟨clause, by rw [hcurs, hclause], ?_⟩
    rw [append_assoc, singleton_append] at h
    have hbeyond := (h ▸ table.inOrder_ordered direction).filter_beyond
    rw [select_eq, h]
    simp only [CursorWhereClause.holds, hcom]
    rw [show toLex (table.sortValue a, table.id a) = table.key a from rfl, hbeyond]

omit [LinearOrder α] [LinearOrder β] in
/-- A page of fetched rows, with the cursor of its last row if one row more was fetched. -/
lemma paginate_eq (table : Table ρ α β) (codec : CursorCodec α β) (sortColumn : JsString)
    (rows : List ρ) (limit : ℕ) :
    paginate codec (fun row => (some (table.sortValue row), some (table.id row))) rows limit
        sortColumn =
      .ok ⟨rows.take limit, if limit < rows.length then table.cursorAfter codec (rows.take limit)
        else none, decide (limit < rows.length), limit⟩ := by
  unfold paginate
  by_cases hmore : limit < rows.length
  · cases hlast : (rows.take limit).getLast? with
    | none => simp [hmore, hlast, cursorAfter]
    | some lastRow => simp [hmore, hlast, createCursor, cursorAfter]
  · simp [hmore, take_of_length_le (not_lt.mp hmore)]

omit [LinearOrder α] [LinearOrder β] in
lemma exists_cursorAfter (table : Table ρ α β) (codec : CursorCodec α β) (seen : List ρ)
    {rows} (h : rows ≠ []) :
    table.cursorAfter codec (seen ++ rows) = table.cursorAfter codec rows ∧
      ∃ cursor, table.cursorAfter codec rows = some cursor := by
  refine ⟨?_, ?_⟩
  · rw [cursorAfter, cursorAfter, getLast?_append_of_ne_nil _ h]
  · rw [cursorAfter, getLast?_eq_some_getLast h]
    exact ⟨_, rfl⟩

/-- The page after the rows seen: the first rows of the rest, and a cursor if there are more. -/
lemma page_cursorAfter {direction} (table : Table ρ α β) (codec) (sortColumn) (hlimit : 1 ≤ limit)
    (h : table.ordered direction = seen ++ rest) :
    ∃ page, table.page codec direction sortColumn limit (table.cursorAfter codec seen) = .ok page ∧
      page.data = rest.take limit ∧
      page.nextCursor = if limit < rest.length then table.cursorAfter codec (seen ++ rest.take limit)
        else none := by
  obtain ⟨clause, hclause, hsel⟩ := table.select_cursorAfter codec sortColumn h (limit + 1)
  have hmore : limit < (rest.take (limit + 1)).length ↔ limit < rest.length := by
    rw [length_take]
    omega
  simp only [page, hclause, hsel, paginate_eq]
  refine ⟨_, rfl, ?_, ?_⟩
  · rw [take_take, Nat.min_eq_left (by omega)]
  · simp only [hmore, take_take, Nat.min_eq_left (show limit ≤ limit + 1 by omega)]
    split_ifs with hlong
    · exact (table.exists_cursorAfter codec seen (take_ne_nil hlimit hlong)).1.symm
    · rfl

/-- The walk from the rows seen on, by induction on the rows that are left. -/
lemma visits_from {direction} (table) (codec : CursorCodec α β) (sortColumn) (hlimit : 1 ≤ limit)
    (h : table.ordered direction = seen ++ rest) :
    ∃ pages, Visits table codec direction sortColumn limit (table.cursorAfter codec seen) pages ∧
      pages.flatMap CursorPage.data = rest := by
  induction hn : rest.length using Nat.strong_induction_on generalizing seen rest with
  | _ n ih =>
    obtain ⟨page, hpage, hdata, hnext⟩ := table.page_cursorAfter codec sortColumn hlimit h
    by_cases hmore : limit < rest.length
    · rw [if_pos hmore] at hnext
      have hsplit : table.ordered direction = (seen ++ rest.take limit) ++ rest.drop limit := by
        rw [append_assoc, take_append_drop, h]
      have hlen : (rest.drop limit).length < n := by
        rw [length_drop]
        omega
      obtain ⟨pages, hpages, hflat⟩ := ih _ hlen hsplit rfl
      obtain ⟨heq, cursor, hcurs⟩ :=
        table.exists_cursorAfter codec seen (take_ne_nil hlimit hmore)
      rw [heq, hcurs] at hnext hpages
      refine ⟨page :: pages, .next hpage hnext hpages, ?_⟩
      rw [flatMap_cons, hdata, hflat, take_append_drop]
    · rw [if_neg hmore] at hnext
      refine ⟨[page], .last hpage hnext, ?_⟩
      rw [flatMap_singleton, hdata, take_of_length_le (not_lt.mp hmore)]

end Table

/-- Whatever the table, the direction and the size of a page, the walk from the first page ends
with a page that has no cursor, and its pages together are the table in order. -/
theorem keyset_pagination_complete (table : Table ρ α β) (codec : CursorCodec α β)
    (direction : Direction) (sortColumn : JsString) (limit : ℕ) (hlimit : 1 ≤ limit) :
    ∃ pages, table.Visits codec direction sortColumn limit none pages ∧
      (pages.flatMap CursorPage.data).Perm table.rows ∧
      (pages.flatMap CursorPage.data).Pairwise
        (fun a b => precedes direction (table.key a) (table.key b)) := by
  obtain ⟨pages, hpages, hflat⟩ := table.visits_from codec sortColumn hlimit
    (nil_append (table.ordered direction)).symm
  refine ⟨pages, hpages, ?_, ?_⟩
  · rw [hflat]
    exact Keyset.perm_sort table.rows
  · rw [hflat]
    exact table.inOrder_ordered direction

end Walk

/-- `base64url` of a digit between a colon and a comma, and of one at the end of the object. -/
def scoreUnits (score : Fin 10) : JsString :=
  units (["MCwi", "MSwi", "Miwi", "Mywi", "NCwi", "NSwi", "Niwi", "Nywi", "OCwi", "OSwi"].getD
    score "")

def idUnits (id : Fin 10) : JsString :=
  units (["OjB9", "OjF9", "OjJ9", "OjN9", "OjR9", "OjV9", "OjZ9", "Ojd9", "Ojh9", "Ojl9"].getD
    id "")

/-- The cursor of a row with a score and an id of one digit each. -/
def encodeDigits (score id : Fin 10) : JsString :=
  units "eyJzY29yZSI6" ++ scoreUnits score ++ units "aWQi" ++ idUnits id

def digitCodec : CursorCodec (Fin 10) (Fin 10) where
  encode := encodeDigits
  decode cursor := do
    let score ← (finRange 10).find? fun score => scoreUnits score == (cursor.drop 12).take 4
    let id ← (finRange 10).find? fun id => idUnits id == cursor.drop 20
    if encodeDigits score id = cursor then some (some score, some id) else none
  decode_encode := by decide +kernel
  decode_empty := by decide +kernel

/-- Three rows share a sort value. -/
def tiedRows : Table (Fin 10 × Fin 10) (Fin 10) (Fin 10) where
  rows := [(5, 1), (3, 7), (5, 9), (5, 2)]
  sortValue := Prod.fst
  id := Prod.snd
  unique_ids := by decide

/-- The tie straddles two pages of two rows. -/
theorem keyset_pagination_of_ties :
    ∃ pages, tiedRows.Visits digitCodec .desc (units "score") 2 none pages ∧
      pages.flatMap CursorPage.data = [(5, 9), (5, 2), (5, 1), (3, 7)] := by
  obtain ⟨pages, hpages, hperm, horder⟩ :=
    keyset_pagination_complete tiedRows digitCodec .desc (units "score") 2 (by decide)
  have horder' : Keyset.InOrder (precedes .desc) tiedRows.key [(5, 9), (5, 2), (5, 1), (3, 7)] := by
    rw [Keyset.InOrder]
    decide
  exact ⟨pages, hpages, Keyset.InOrder.eq_of_perm horder horder' (hperm.trans (by decide))⟩

end BoilerplateExpress.Pagination

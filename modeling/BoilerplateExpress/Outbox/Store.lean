import BoilerplateExpress.OrderedMap
import BoilerplateExpress.Text

/-!
# The outbox table

`PostgresOutboxStore` (`outbox/outbox.store.ts`) over the rows of `outbox_messages`. Times
are milliseconds of the database's clock. A delivered row is deleted, so a row that exists
is either owed to somebody or dead.
-/
namespace BoilerplateExpress.Outbox

open List

inductive Status where
  | pending
  | dead
  deriving DecidableEq, Repr

structure OutboxRow where
  id : Text
  seq : ℕ
  status : Status
  attempts : ℕ
  availableAt : ℤ
  lastError : Option Text
  deriving DecidableEq, Repr

/-- A claimed row as the relay sees it. `seq` is not part of the message in the program; it
tells two messages with one id apart that existed one after the other. -/
structure OutboxMessage where
  id : Text
  seq : ℕ
  attempts : ℕ
  deriving DecidableEq, Repr

abbrev Table := OrderedMap Text OutboxRow

def toMessage (row : OutboxRow) : OutboxMessage := ⟨row.id, row.seq, row.attempts⟩

/-- A row as `enqueue` inserts it; the column defaults are those of the migration. -/
def enqueued (id : Text) (seq : ℕ) (now : ℤ) : OutboxRow := ⟨id, seq, .pending, 0, now, none⟩

/-- The order of `ORDER BY available_at, seq`. -/
def claimedBefore (a b : OutboxRow) : Prop :=
  a.availableAt < b.availableAt ∨ a.availableAt = b.availableAt ∧ a.seq ≤ b.seq

instance : DecidableRel claimedBefore :=
  fun a b => inferInstanceAs (Decidable
    (a.availableAt < b.availableAt ∨ a.availableAt = b.availableAt ∧ a.seq ≤ b.seq))

/-- The rows that `claimDue` locks; a row that is locked already is skipped. -/
def claimDue (rows : Table) (locked : Text → Bool) (now : ℤ) (limit : ℕ) : List OutboxRow :=
  let due := (rows.entries.map Prod.snd).filter (fun row =>
    decide (row.status = .pending) && decide (row.availableAt ≤ now) && !locked row.id)
  (due.insertionSort claimedBefore).take limit

/-- How the relay records the outcome of a dispatch. -/
inductive Mark where
  | remove
  | reschedule (delayMs : ℤ) (reason : Text)
  | deadLetter (reason : Text)
  deriving DecidableEq

namespace Mark

def isRemove : Mark → Bool
  | .remove => true
  | _ => false

def isReschedule : Mark → Bool
  | .reschedule _ _ => true
  | _ => false

def isDeadLetter : Mark → Bool
  | .deadLetter _ => true
  | _ => false

/-- What the statement makes of the row it names; `now` is the start of its transaction. -/
def effect (now : ℤ) : Mark → OutboxRow → Option OutboxRow
  | .remove, _ => none
  | .reschedule delayMs reason, row => some { row with
      attempts := row.attempts + 1
      availableAt := now + delayMs
      lastError := some reason }
  | .deadLetter reason, row => some { row with
      attempts := row.attempts + 1
      status := .dead
      lastError := some reason }

lemma effect_eq_some {now old row} {mark : Mark} (h : mark.effect now old = some row) :
    mark.isRemove = false ∧ row.id = old.id ∧ row.seq = old.seq ∧ row.attempts = old.attempts + 1 ∧
      row.status = (if mark.isDeadLetter then .dead else old.status) := by
  cases mark with
  | remove => cases h
  | _ =>
    cases h
    exact ⟨rfl, rfl, rfl, rfl, rfl⟩

def apply (now : ℤ) (rows : Table) (id : Text) : Mark → Table
  | .remove => rows.delete id
  | .reschedule delayMs reason => rows.modify id (fun row => { row with
      attempts := row.attempts + 1
      availableAt := now + delayMs
      lastError := some reason })
  | .deadLetter reason => rows.modify id (fun row => { row with
      attempts := row.attempts + 1
      status := .dead
      lastError := some reason })

lemma get_apply (now rows id) (mark : Mark) (j) :
    (mark.apply now rows id).get j =
      if j = id then (rows.get j).bind (mark.effect now) else rows.get j := by
  cases mark with
  | remove =>
    rw [apply, OrderedMap.get_delete]
    by_cases hj : j = id
    · cases rows.get j <;> simp [effect]
    · simp [hj]
  | _ =>
    rw [apply, OrderedMap.get_modify]
    by_cases hj : j = id
    · cases rows.get j <;> simp [effect]
    · simp [hj]

end Mark

/-- The statements of a transaction, in the order in which they were sent. -/
def applyMarks (now : ℤ) (rows : Table) (marks : List (OutboxMessage × Mark)) : Table :=
  marks.foldl (fun rows p => p.2.apply now rows p.1.id) rows

lemma mem_claimDue {rows locked now limit row} (h : row ∈ claimDue rows locked now limit) :
    (∃ id, rows.get id = some row) ∧ row.status = .pending ∧ locked row.id = false := by
  have hsort := mem_of_mem_take h
  rw [mem_insertionSort] at hsort
  obtain ⟨hrow, hdue⟩ := mem_filter.mp hsort
  obtain ⟨⟨id, row'⟩, hmem, rfl⟩ := mem_map.mp hrow
  simp only [Bool.and_eq_true, decide_eq_true_eq, Bool.not_eq_true'] at hdue
  exact ⟨⟨id, (OrderedMap.get_eq_some _ _ _).mpr hmem⟩, hdue.1.1, hdue.2⟩

lemma claimDue_nodup {rows} (hkeyed : ∀ id row, rows.get id = some row → row.id = id)
    (locked now limit) : ((claimDue rows locked now limit).map OutboxRow.id).Nodup := by
  have hids : (rows.entries.map Prod.snd).map OutboxRow.id = rows.entries.map Prod.fst := by
    rw [map_map]
    refine map_congr_left ?_
    intro e he
    exact hkeyed e.1 e.2 ((OrderedMap.get_eq_some _ _ _).mpr he)
  have hall : ((rows.entries.map Prod.snd).map OutboxRow.id).Nodup := hids ▸ rows.nodup
  have hdue := hall.sublist (List.Sublist.map OutboxRow.id (filter_sublist (p := fun row =>
    decide (row.status = .pending) && decide (row.availableAt ≤ now) && !locked row.id)))
  have hsort := ((perm_insertionSort claimedBefore _).map OutboxRow.id).nodup_iff.mpr hdue
  exact hsort.sublist (List.Sublist.map OutboxRow.id (take_sublist limit _))

end BoilerplateExpress.Outbox

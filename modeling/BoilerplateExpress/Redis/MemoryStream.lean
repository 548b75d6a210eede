import BoilerplateExpress.OrderedMap
import BoilerplateExpress.Text

/-!
# A consumer group in memory

`MemoryStreamCommands` (`redis/stream.memory.ts`) for one stream and one group on it.
Every command is one step and reads the clock once, in milliseconds. Ids compare by
their two numbers; the cursor is the id handed out last, and everything that was ever
delivered lies at or below it.
-/
namespace BoilerplateExpress.Redis

open List

/-- An entry id, `<ms>-<seq>`. -/
structure EntryId where
  ms : ℕ
  seq : ℕ
  deriving DecidableEq, Repr

def compareEntryIds (a b : EntryId) : ℤ :=
  if (a.ms : ℤ) - b.ms ≠ 0 then (a.ms : ℤ) - b.ms else (a.seq : ℤ) - b.seq

/-- The id as it is sent over the wire. -/
def EntryId.text (id : EntryId) : Text := Text.natToText id.ms ++ '-' :: Text.natToText id.seq

structure StreamEntry where
  id : EntryId
  fields : List (Text × Text)
  deriving DecidableEq, Repr

structure PendingRecord where
  consumer : Text
  deliveredAt : ℕ
  deliveryCount : ℕ
  deriving DecidableEq, Repr

structure PendingEntry where
  id : EntryId
  consumer : Text
  idleMs : ℤ
  deliveryCount : ℕ
  deriving DecidableEq, Repr

structure MemoryStream where
  entries : List StreamEntry
  sequence : ℕ
  cursor : Option EntryId
  pending : OrderedMap EntryId PendingRecord
  consumers : List Text

namespace MemoryStream

/-- A group created on a stream, after everything already there (`$`) or before it. -/
def createGroup (entries : List StreamEntry) (sequence : ℕ) (fromStart : Bool) :
    MemoryStream where
  entries := entries
  sequence := sequence
  cursor := if fromStart then none else entries.getLast?.map StreamEntry.id
  pending := OrderedMap.empty
  consumers := []

/-- The entries are trimmed from the front; the pending list may keep their ids. -/
def append (s : MemoryStream) (now : ℕ) (fields : List (Text × Text)) (maxLen : Option ℕ) :
    MemoryStream :=
  let entries := s.entries ++ [⟨⟨now, s.sequence + 1⟩, fields⟩]
  { s with
    sequence := s.sequence + 1
    entries := entries.drop (entries.length - maxLen.getD entries.length) }

def addConsumer (s : MemoryStream) (consumer : Text) : MemoryStream :=
  if consumer ∈ s.consumers then s else { s with consumers := s.consumers ++ [consumer] }

/-- The entry was handed out before, by this cursor. -/
def atOrBelow (cursor : Option EntryId) (id : EntryId) : Prop :=
  ∃ c, cursor = some c ∧ compareEntryIds id c ≤ 0

instance (cursor : Option EntryId) (id : EntryId) : Decidable (atOrBelow cursor id) :=
  match cursor with
  | none => isFalse (by simp [atOrBelow])
  | some c => decidable_of_iff (compareEntryIds id c ≤ 0) (by simp [atOrBelow])

def deliver (s : MemoryStream) (now : ℕ) (consumer : Text) (id : EntryId) : MemoryStream :=
  { s with
    cursor := some id
    pending := s.pending.set id ⟨consumer, now, 1⟩ }

/-- The loop of `readGroupSync`, with the number of entries it may still deliver. -/
def readFrom (now : ℕ) (consumer : Text) :
    List StreamEntry → ℕ → MemoryStream → MemoryStream × List StreamEntry
  | [], _, s => (s, [])
  | _ :: _, 0, s => (s, [])
  | e :: es, n + 1, s =>
    if atOrBelow s.cursor e.id then readFrom now consumer es (n + 1) s
    else
      let r := readFrom now consumer es n (s.deliver now consumer e.id)
      (r.1, e :: r.2)

def readGroup (s : MemoryStream) (now : ℕ) (consumer : Text) (count : ℕ) :
    MemoryStream × List StreamEntry :=
  readFrom now consumer s.entries count (s.addConsumer consumer)

def ack (s : MemoryStream) (id : EntryId) : MemoryStream :=
  { s with pending := s.pending.delete id }

/-- Ids are ordered by number, but the page boundary compares their texts. -/
def pendingEntries (s : MemoryStream) (now minIdleMs count : ℕ)
    (startExclusiveOf : Option Text) : List PendingEntry :=
  let matching := s.pending.entries.filter (fun e =>
    decide (e.2.deliveredAt + minIdleMs ≤ now) &&
      startExclusiveOf.all (fun boundary => decide (boundary < e.1.text)))
  let sorted := matching.insertionSort (fun a b => compareEntryIds a.1 b.1 ≤ 0)
  (sorted.take count).map
    (fun e => ⟨e.1, e.2.consumer, (now : ℤ) - e.2.deliveredAt, e.2.deliveryCount⟩)

/-- One id of `XCLAIM`: the new state, and the entry if it was claimed. -/
def claimOne (s : MemoryStream) (now : ℕ) (consumer : Text) (minIdleMs : ℕ) (id : EntryId) :
    MemoryStream × Option StreamEntry :=
  match s.pending.get id with
  | none => (s, none)
  | some held =>
    if now < held.deliveredAt + minIdleMs then (s, none)
    else
      match s.entries.find? (fun e => e.id = id) with
      | none => (s.ack id, none)
      | some e =>
        ({ s with pending := s.pending.set id ⟨consumer, now, held.deliveryCount + 1⟩ },
          some e)

def claimFrom (now : ℕ) (consumer : Text) (minIdleMs : ℕ) :
    List EntryId → MemoryStream → MemoryStream × List StreamEntry
  | [], s => (s, [])
  | id :: ids, s =>
    let one := s.claimOne now consumer minIdleMs id
    let r := claimFrom now consumer minIdleMs ids one.1
    (r.1, one.2.toList ++ r.2)

def claim (s : MemoryStream) (now : ℕ) (consumer : Text) (minIdleMs : ℕ) (ids : List EntryId) :
    MemoryStream × List StreamEntry :=
  claimFrom now consumer minIdleMs ids (s.addConsumer consumer)

def consumerPendingCount (s : MemoryStream) (consumer : Text) : ℕ :=
  s.pending.entries.countP (fun e => decide (e.2.consumer = consumer))

/-- `XGROUP DELCONSUMER` drops what is pending on the consumer. -/
def deleteConsumer (s : MemoryStream) (consumer : Text) : MemoryStream :=
  { s with
    pending := s.pending.filter (fun _ p => decide (p.consumer ≠ consumer))
    consumers := s.consumers.erase consumer }

/-- Handing out an entry above the cursor leaves everything below the new cursor. -/
lemma atOrBelow_of_above {e} {cursor id} (habove : ¬ atOrBelow cursor e) (h : atOrBelow cursor id) :
    atOrBelow (some e) id := by
  obtain ⟨c, hc, hle⟩ := h
  have hlt : ¬ compareEntryIds e c ≤ 0 := fun hle => habove ⟨c, hc, hle⟩
  refine ⟨e, rfl, ?_⟩
  unfold compareEntryIds at *
  split_ifs at * <;> omega

/-- What a command does to the group when it hands the entries of `taken` to a consumer. The cursor
only rises. An entry handed out is pending on the consumer as of now; it was never delivered
before, or it is one of `ids` that has been idle for `minIdleMs`, and has one more delivery. Any
other entry is left as it was, unless it was trimmed. -/
structure Hands (now minIdleMs : ℕ) (consumer : Text) (ids : List EntryId) (s t : MemoryStream)
    (taken : List StreamEntry) : Prop where
  entries : t.entries = s.entries
  sequence : t.sequence = s.sequence
  cursor : ∀ id, atOrBelow s.cursor id → atOrBelow t.cursor id
  taken_mem : ∀ e ∈ taken, e ∈ s.entries
  given : ∀ e ∈ taken, ∃ count, t.pending.get e.id = some ⟨consumer, now, count⟩ ∧
    (count = 1 ∧ ¬ atOrBelow s.cursor e.id ∧ atOrBelow t.cursor e.id ∨
      e.id ∈ ids ∧ ∃ p, s.pending.get e.id = some p ∧ p.deliveredAt + minIdleMs ≤ now ∧
        count = p.deliveryCount + 1)
  kept : ∀ id, (∀ e ∈ taken, e.id ≠ id) → t.pending.get id = s.pending.get id ∨
    t.pending.get id = none ∧ ∀ e ∈ s.entries, e.id ≠ id

variable {now minIdleMs : ℕ} {consumer : Text} {ids : List EntryId} {s t : MemoryStream}
  {taken : List StreamEntry}

lemma hands_refl (s) : Hands now minIdleMs consumer ids s s [] :=
  ⟨rfl, rfl, fun _ h => h, by simp, by simp, fun _ _ => .inl rfl⟩

lemma Hands.pending {p} (h : Hands now minIdleMs consumer ids s t taken) {id}
    (hp : t.pending.get id = some p) :
    s.pending.get id = some p ∨ p.deliveredAt = now ∧ ∃ e ∈ taken, e.id = id := by
  by_cases hin : ∃ e ∈ taken, e.id = id
  · obtain ⟨e, he, rfl⟩ := hin
    obtain ⟨count, hget, -⟩ := h.given e he
    exact .inr ⟨by rw [← Option.some.inj (hget.symm.trans hp)], e, he, rfl⟩
  · rcases h.kept id (fun e he heid => hin ⟨e, he, heid⟩) with hsame | ⟨hnone, -⟩
    · exact .inl (hsame.symm.trans hp)
    · rw [hnone] at hp
      cases hp

lemma hands_addConsumer {name} (h : Hands now minIdleMs consumer ids (s.addConsumer name) t taken) :
    Hands now minIdleMs consumer ids s t taken := by
  unfold addConsumer at h
  split_ifs at h
  · exact h
  · exact ⟨h.entries, h.sequence, h.cursor, h.taken_mem, h.given, h.kept⟩

/-- One entry is handed out, and then the others. It is not idle any more, so it is not claimed
again. -/
lemma hands_cons {e} {cursor count} (hidle : 0 < minIdleMs) (hmem : e ∈ s.entries)
    (hcurs : ∀ id, atOrBelow s.cursor id → atOrBelow cursor id)
    (hcnt : count = 1 ∧ ¬ atOrBelow s.cursor e.id ∧ atOrBelow cursor e.id ∨
      e.id ∈ ids ∧ ∃ p, s.pending.get e.id = some p ∧ p.deliveredAt + minIdleMs ≤ now ∧
        count = p.deliveryCount + 1) (h : Hands now minIdleMs consumer ids
      { s with cursor := cursor, pending := s.pending.set e.id ⟨consumer, now, count⟩ } t taken) :
    Hands now minIdleMs consumer ids s t (e :: taken) := by
  have hself : ∃ count, t.pending.get e.id = some ⟨consumer, now, count⟩ ∧
      (count = 1 ∧ ¬ atOrBelow s.cursor e.id ∧ atOrBelow t.cursor e.id ∨
        e.id ∈ ids ∧ ∃ p, s.pending.get e.id = some p ∧ p.deliveredAt + minIdleMs ≤ now ∧
          count = p.deliveryCount + 1) := by
    by_cases hin : ∃ d ∈ taken, d.id = e.id
    · obtain ⟨d, hd, hid⟩ := hin
      obtain ⟨count', hget, hnew | ⟨-, p, hp, hold, -⟩⟩ := h.given d hd
      · rw [hid] at hget hnew
        exact ⟨count', hget, .inl ⟨hnew.1, fun hbelow => hnew.2.1 (hcurs _ hbelow), hnew.2.2⟩⟩
      · rw [hid, OrderedMap.get_set, if_pos rfl] at hp
        rw [← Option.some.inj hp] at hold
        dsimp only at hold
        omega
    · rcases h.kept e.id (fun d hd hid => hin ⟨d, hd, hid⟩) with hsame | ⟨-, hgone⟩
      · refine ⟨count, by simpa using hsame, hcnt.imp_left ?_⟩
        exact fun hnew => ⟨hnew.1, hnew.2.1, h.cursor _ hnew.2.2⟩
      · exact absurd rfl (hgone e hmem)
  refine ⟨h.entries, h.sequence, fun id hid => h.cursor id (hcurs id hid), ?_, ?_, ?_⟩
  · exact forall_mem_cons.mpr ⟨hmem, h.taken_mem⟩
  · refine forall_mem_cons.mpr ⟨hself, ?_⟩
    intro d hd
    by_cases hid : d.id = e.id
    · rw [hid]
      exact hself
    · obtain ⟨count', hget, hnew | ⟨hin, p, hp, hold⟩⟩ := h.given d hd
      · exact ⟨count', hget, .inl ⟨hnew.1, fun hbelow => hnew.2.1 (hcurs _ hbelow), hnew.2.2⟩⟩
      · rw [OrderedMap.get_set, if_neg hid] at hp
        exact ⟨count', hget, .inr ⟨hin, p, hp, hold⟩⟩
  · intro id hnot
    obtain ⟨hne, hrest⟩ := forall_mem_cons.mp hnot
    have hkept := h.kept id hrest
    rwa [OrderedMap.get_set, if_neg (Ne.symm hne)] at hkept

lemma hands_drop {id} (hnone : ∀ e ∈ s.entries, e.id ≠ id)
    (h : Hands now minIdleMs consumer ids (s.ack id) t taken) :
    Hands now minIdleMs consumer ids s t taken := by
  refine ⟨h.entries, h.sequence, h.cursor, h.taken_mem, ?_, ?_⟩
  · intro e he
    obtain ⟨count, hget, hnew | ⟨hin, p, hp, hold⟩⟩ := h.given e he
    · exact ⟨count, hget, .inl hnew⟩
    · exact ⟨count, hget, .inr ⟨hin, p, (OrderedMap.get_delete_eq_some.mp hp).2, hold⟩⟩
  · intro j hj
    rcases h.kept j hj with hsame | hgone
    · rw [ack, OrderedMap.get_delete] at hsame
      split_ifs at hsame with hjid
      · exact .inr ⟨hsame, hjid ▸ hnone⟩
      · exact .inl hsame
    · exact .inr hgone

lemma hands_readFrom (hidle : 0 < minIdleMs) (now consumer es n s) (hes : ∀ e ∈ es, e ∈ s.entries) :
    Hands now minIdleMs consumer [] s (readFrom now consumer es n s).1
      (readFrom now consumer es n s).2 := by
  induction es generalizing n s with
  | nil => exact hands_refl s
  | cons e es ih =>
    obtain ⟨he, hes⟩ := forall_mem_cons.mp hes
    cases n with
    | zero => exact hands_refl s
    | succ n =>
      simp only [readFrom]
      split_ifs with hbelow
      · exact ih (n + 1) s hes
      · refine hands_cons hidle he (fun id => atOrBelow_of_above hbelow) (.inl ⟨rfl, hbelow, ?_⟩)
          (ih n (s.deliver now consumer e.id) hes)
        exact ⟨e.id, rfl, by simp [compareEntryIds]⟩

lemma hands_claimFrom (hidle : 0 < minIdleMs) (now : ℕ) (consumer : Text) (ids all : List EntryId)
    (s : MemoryStream) (hids : ∀ id ∈ ids, id ∈ all) :
    Hands now minIdleMs consumer all s (claimFrom now consumer minIdleMs ids s).1
      (claimFrom now consumer minIdleMs ids s).2 := by
  induction ids generalizing s with
  | nil => exact hands_refl s
  | cons id ids ih =>
    obtain ⟨hid, hrest⟩ := forall_mem_cons.mp hids
    simp only [claimFrom, claimOne]
    cases hheld : s.pending.get id with
    | none => exact ih s hrest
    | some held =>
      dsimp only
      split_ifs with hrec
      · exact ih s hrest
      · cases hfind : s.entries.find? (fun e => e.id = id) with
        | none =>
          refine hands_drop ?_ (ih (s.ack id) hrest)
          exact fun e he => by simpa using find?_eq_none.mp hfind e he
        | some e =>
          obtain rfl : e.id = id := by simpa using find?_some hfind
          exact hands_cons hidle (mem_of_find?_eq_some hfind) (fun _ h => h)
            (.inr ⟨hid, held, hheld, by omega, rfl⟩) (ih _ hrest)

lemma hands_readGroup (hidle : 0 < minIdleMs) (now consumer count s) :
    Hands now minIdleMs consumer [] s (s.readGroup now consumer count).1
      (s.readGroup now consumer count).2 := by
  refine hands_addConsumer (hands_readFrom hidle now consumer s.entries count _ ?_)
  unfold addConsumer
  split_ifs <;> exact fun _ he => he

lemma of_consumerPendingCount_eq_zero (h : s.consumerPendingCount consumer = 0) (id p)
    (hp : s.pending.get id = some p) : p.consumer ≠ consumer := by
  have hnone := countP_eq_zero.mp h (id, p) ((OrderedMap.get_eq_some _ _ _).mp hp)
  simpa using hnone

lemma deleteConsumer_pending (h : ∀ id p, s.pending.get id = some p → p.consumer ≠ consumer) (id) :
    (s.deleteConsumer consumer).pending.get id = s.pending.get id := by
  unfold deleteConsumer
  rw [OrderedMap.get_filter]
  cases hp : s.pending.get id with
  | none => rfl
  | some p => simpa using h id p hp

end MemoryStream

end BoilerplateExpress.Redis

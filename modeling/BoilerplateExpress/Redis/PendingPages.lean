import BoilerplateExpress.Keyset
import BoilerplateExpress.Redis.MemoryStream

/-!
# Paging the pending list

`pendingEntries` sorts ids by their numbers and compares them with the cursor as texts. A caller
that pages with the last id of each page as the next cursor sees every idle entry once and in
order if the two orders agree on the idle ids. They part at the tenth entry of a millisecond:
`1712-10` is after `1712-9` in the stream, and before it as a text.
-/
namespace BoilerplateExpress.Redis

open List

def precedes (a b : EntryId) : Prop := compareEntryIds a b < 0

instance : DecidableRel precedes := fun a b => inferInstanceAs (Decidable (compareEntryIds a b < 0))

instance : IsStrictTotalOrder EntryId precedes where
  trichotomous := by
    rintro ⟨ms, seq⟩ ⟨ms', seq'⟩ hab hba
    simp only [precedes, compareEntryIds] at hab hba
    simp only [EntryId.mk.injEq]
    split_ifs at hab hba <;> omega
  irrefl := by simp [precedes, compareEntryIds]
  trans := by
    intro a b c hab hbc
    simp only [precedes, compareEntryIds] at *
    split_ifs at * <;> omega

lemma compareEntryIds_nonpos_iff (a b) : compareEntryIds a b ≤ 0 ↔ ¬ precedes b a := by
  simp only [precedes, compareEntryIds]
  split_ifs <;> omega

namespace MemoryStream

def shown (now : ℕ) (e : EntryId × PendingRecord) : PendingEntry :=
  ⟨e.1, e.2.consumer, (now : ℤ) - e.2.deliveredAt, e.2.deliveryCount⟩

/-- The entries pending for at least so long, in the order of the stream. -/
def idleEntries (s : MemoryStream) (now minIdleMs : ℕ) : List PendingEntry :=
  (Keyset.sort precedes Prod.fst (s.pending.entries.filter
    (fun e => decide (e.2.deliveredAt + minIdleMs ≤ now)))).map (shown now)

/-- Calls of `pendingEntries`, each from the last id of the one before, up to an empty page. -/
def pagePending (s : MemoryStream) (now minIdleMs count : ℕ) : ℕ → Option Text → List PendingEntry
  | 0, _ => []
  | calls + 1, startExclusiveOf =>
    let page := s.pendingEntries now minIdleMs count startExclusiveOf
    match page.getLast? with
    | none => []
    | some last => page ++ pagePending s now minIdleMs count calls (some last.id.text)

def textBeyond (a b : PendingEntry) : Bool := decide (a.id.text < b.id.text)

section

variable (s : MemoryStream) (now minIdleMs count : ℕ)

lemma pendingEntries_eq (startExclusiveOf) :
    s.pendingEntries now minIdleMs count startExclusiveOf = ((s.idleEntries now minIdleMs).filter
        (fun e => startExclusiveOf.all (fun boundary => decide (boundary < e.id.text)))).take
        count := by
  have hsort : ∀ rows : List (EntryId × PendingRecord),
      rows.insertionSort (fun a b => compareEntryIds a.1 b.1 ≤ 0) =
        Keyset.sort precedes Prod.fst rows := by
    intro rows
    simp [Keyset.sort, compareEntryIds_nonpos_iff]
  rw [pendingEntries, idleEntries, hsort, filter_map, ← map_take,
    Keyset.sort_filter s.pending.nodup, Keyset.sort_filter s.pending.nodup, filter_filter]
  congr 2
  exact filter_congr (fun e _ => Bool.and_comm ..)

/-- Paging is a walk over the idle entries whose cursor goes by the texts. -/
theorem pagePending_eq_walk (calls cursor) :
    s.pagePending now minIdleMs count calls (cursor.map (·.id.text)) =
      Keyset.walk textBeyond (s.idleEntries now minIdleMs) count calls cursor := by
  induction calls generalizing cursor with
  | zero => rfl
  | succ calls ih =>
    have hpage : s.pendingEntries now minIdleMs count (cursor.map (·.id.text)) =
        ((s.idleEntries now minIdleMs).filter
          (fun row => cursor.all (textBeyond · row))).take count := by
      rw [pendingEntries_eq]
      cases cursor <;> rfl
    rw [pagePending, Keyset.walk, hpage]
    cases hlast : (((s.idleEntries now minIdleMs).filter
        (fun row => cursor.all (textBeyond · row))).take count).getLast? with
    | none => rfl
    | some last =>
      dsimp only
      rw [← ih (some last)]
      rfl

lemma inOrder_idleEntries : Keyset.InOrder precedes PendingEntry.id
    (s.idleEntries now minIdleMs) := by
  have hnd : ((s.pending.entries.filter
      (fun e => decide (e.2.deliveredAt + minIdleMs ≤ now))).map Prod.fst).Nodup :=
    s.pending.nodup.sublist (filter_sublist.map _)
  exact pairwise_map.mpr (Keyset.inOrder_sort hnd)

lemma mem_idleEntries (e) : e ∈ s.idleEntries now minIdleMs ↔
    ∃ record, s.pending.get e.id = some record ∧ record.deliveredAt + minIdleMs ≤ now ∧
      e = shown now (e.id, record) := by
  simp only [idleEntries, mem_map, (Keyset.perm_sort _).mem_iff, mem_filter,
    decide_eq_true_eq, OrderedMap.get_eq_some]
  constructor
  · rintro ⟨⟨id, record⟩, ⟨hmem, hidle⟩, rfl⟩
    exact ⟨record, hmem, hidle, rfl⟩
  · rintro ⟨record, hmem, hidle, he⟩
    exact ⟨(e.id, record), ⟨hmem, hidle⟩, he.symm⟩

end

/-- The list has every entry that is pending for at least so long, once and in the order of the
stream. -/
structure VisitsIdle (s : MemoryStream) (now minIdleMs : ℕ) (visited : List PendingEntry) :
    Prop where
  increasing : visited.Pairwise (fun a b => compareEntryIds a.id b.id < 0)
  complete : ∀ e, e ∈ visited ↔
    ∃ record, s.pending.get e.id = some record ∧ record.deliveredAt + minIdleMs ≤ now ∧
      e = ⟨e.id, record.consumer, (now : ℤ) - record.deliveredAt, record.deliveryCount⟩

lemma nodup_of_increasing {visited} (h : Keyset.InOrder precedes PendingEntry.id visited) :
    visited.Nodup := by
  refine h.imp ?_
  rintro a b hab rfl
  exact irrefl_of precedes _ hab

/-- The texts of the idle ids compare as the ids do. -/
def TextsAgree (s : MemoryStream) (now minIdleMs : ℕ) : Prop :=
  ∀ a ∈ s.idleEntries now minIdleMs, ∀ b ∈ s.idleEntries now minIdleMs,
    (a.id.text < b.id.text ↔ compareEntryIds a.id b.id < 0)

instance (s : MemoryStream) (now minIdleMs : ℕ) : Decidable (TextsAgree s now minIdleMs) :=
  inferInstanceAs (Decidable (∀ a ∈ _, ∀ b ∈ _, (_ ↔ _)))

lemma visitsIdle_of_textsAgree {s} {now minIdleMs count calls}
    (hcount : 1 ≤ count) (hcalls : s.pending.size < calls) (hagree : TextsAgree s now minIdleMs) :
    VisitsIdle s now minIdleMs (s.pagePending now minIdleMs count calls none) := by
  have hidle := inOrder_idleEntries s now minIdleMs
  have hlen : (s.idleEntries now minIdleMs).length < calls := by
    refine lt_of_le_of_lt ?_ hcalls
    rw [idleEntries, length_map, (Keyset.perm_sort _).length_eq]
    exact length_filter_le _ _
  have hbeyond : ∀ seen a rest, s.idleEntries now minIdleMs = seen ++ a :: rest →
      (s.idleEntries now minIdleMs).filter (textBeyond a) = rest := by
    intro seen a rest hrows
    have ha : a ∈ s.idleEntries now minIdleMs := by simp [hrows]
    have hfol : (s.idleEntries now minIdleMs).filter
        (fun e => decide (precedes a.id e.id)) = rest := by
      rw [hrows] at hidle ⊢
      exact hidle.filter_beyond
    rw [← hfol]
    exact filter_congr fun e he => decide_eq_decide.mpr (hagree a ha e he)
  have hvis : s.pagePending now minIdleMs count calls none = s.idleEntries now minIdleMs :=
    (s.pagePending_eq_walk now minIdleMs count calls none).trans
      (Keyset.walk_eq hcount hbeyond (nil_append _).symm (by simp) hlen)
  rw [hvis]
  exact ⟨hidle, mem_idleEntries s now minIdleMs⟩

/-- Along a complete walk with pages of one the texts increase. -/
lemma textsAgree_of_visitsIdle {s} {now minIdleMs calls}
    (h : VisitsIdle s now minIdleMs (s.pagePending now minIdleMs 1 calls none)) :
    TextsAgree s now minIdleMs := by
  have hwalk : s.pagePending now minIdleMs 1 calls none =
      Keyset.walk textBeyond (s.idleEntries now minIdleMs) 1 calls none :=
    s.pagePending_eq_walk now minIdleMs 1 calls none
  have htexts : (s.pagePending now minIdleMs 1 calls none).Pairwise
      (fun a b => a.id.text < b.id.text) := by
    have hchain := Keyset.walk_one_chain textBeyond (s.idleEntries now minIdleMs) calls none
    rw [hwalk, ← pairwise_map (f := fun e : PendingEntry => e.id.text), ← isChain_iff_pairwise,
      isChain_map]
    exact hchain.imp fun _ _ hbeyond => of_decide_eq_true hbeyond
  -- two orders that agree from left to right agree
  have hboth := htexts.and h.increasing
  have hmem : ∀ e ∈ s.idleEntries now minIdleMs, e ∈ s.pagePending now minIdleMs 1 calls none :=
    fun e he => (h.complete e).mpr ((mem_idleEntries s now minIdleMs e).mp he)
  intro a ha b hb
  refine Pairwise.forall_of_forall_of_flip (R := fun a b : PendingEntry =>
    (a.id.text < b.id.text ↔ precedes a.id b.id)) ?_ ?_ ?_ (hmem a ha) (hmem b hb)
  · exact fun e _ => iff_of_false (lt_irrefl _) (irrefl_of precedes _)
  · exact hboth.imp fun hab => iff_of_true hab.1 hab.2
  · exact hboth.imp fun hab => iff_of_false (lt_asymm hab.1) (asymm_of precedes hab.2)

/-- Paging visits the idle entries, each once and in order, with pages of any size and any number of
calls above the number of pending entries, exactly if their texts agree with the order of the
stream. -/
theorem paging_complete_iff_texts_agree (s : MemoryStream) (now minIdleMs : ℕ) :
    (∀ count calls, 1 ≤ count → s.pending.size < calls →
      VisitsIdle s now minIdleMs (s.pagePending now minIdleMs count calls none)) ↔
      TextsAgree s now minIdleMs := by
  constructor
  · intro h
    exact textsAgree_of_visitsIdle (h 1 (s.pending.size + 1) le_rfl (Nat.lt_succ_self _))
  · exact fun hagree count calls hcount hcalls => visitsIdle_of_textsAgree hcount hcalls hagree

/-- So many entries written in one millisecond and delivered to one consumer. -/
def burst (entries : ℕ) : MemoryStream :=
  let written := (List.range entries).foldl (fun s _ => s.append 1712 [] none)
    (createGroup [] 0 true)
  (written.readGroup 1712 ['a'] entries).1

theorem paging_complete_three :
    VisitsIdle (burst 3) 2000 5 ((burst 3).pagePending 2000 5 2 4 none) :=
  (paging_complete_iff_texts_agree (burst 3) 2000 5).mpr (by decide +kernel) 2 4 (by decide)
    (by decide +kernel)

/-- The tenth entry of a millisecond is never listed with pages of nine, and with a page of ten
the ninth comes twice. -/
theorem paging_misses_tenth :
    (¬ VisitsIdle (burst 10) 2000 5 ((burst 10).pagePending 2000 5 9 11 none)) ∧
      ¬ VisitsIdle (burst 10) 2000 5 ((burst 10).pagePending 2000 5 10 11 none) := by
  refine ⟨?_, ?_⟩
  · intro h
    have : (⟨⟨1712, 10⟩, ['a'], 288, 1⟩ : PendingEntry) ∈ (burst 10).pagePending 2000 5 9 11 none :=
      (h.complete _).mpr ⟨⟨['a'], 1712, 1⟩, by decide +kernel, by decide, rfl⟩
    revert this
    decide +kernel
  · intro h
    have := nodup_of_increasing h.increasing
    revert this
    decide +kernel

end MemoryStream

end BoilerplateExpress.Redis

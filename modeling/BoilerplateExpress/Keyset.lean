import Mathlib.Data.List.Sort
import Mathlib.Order.RelClasses
import Mathlib.Tactic

/-!
# Rows in the order of a key

Rows with different keys stand in exactly one order. A row of that order separates it: the
rows beyond its key are the ones that follow it.
-/
namespace BoilerplateExpress.Keyset

open List

variable {ρ K : Type} (lt : K → K → Prop) (key : ρ → K)

/-- Each row strictly before the ones that follow it. -/
def InOrder (rows : List ρ) : Prop := rows.Pairwise (fun a b => lt (key a) (key b))

variable [DecidableRel lt]

def sort (rows : List ρ) : List ρ := rows.insertionSort (fun a b => ¬ lt (key b) (key a))

variable {lt key}

lemma perm_sort (rows) : (sort lt key rows).Perm rows := perm_insertionSort _ _

omit [DecidableRel lt] in
lemma InOrder.filter {rows} (h : InOrder lt key rows) (p : ρ → Bool) :
    InOrder lt key (rows.filter p) :=
  List.Pairwise.sublist filter_sublist h

variable [IsStrictTotalOrder K lt]

omit [DecidableRel lt] in
lemma eq_of_not_lt {a b} (h : ¬ lt a b) (h' : ¬ lt b a) : a = b := by
  rcases trichotomous_of lt a b with hlt | heq | hlt
  · exact absurd hlt h
  · exact heq
  · exact absurd hlt h'

omit [DecidableRel lt] in
lemma not_lt_trans {a b c} (hab : ¬ lt b a) (hbc : ¬ lt c b) : ¬ lt c a := by
  intro hca
  rcases trichotomous_of lt b c with hlt | heq | hlt
  · exact hab (trans_of lt hlt hca)
  · exact hab (heq ▸ hca)
  · exact hbc hlt

lemma inOrder_sort {rows} (h : (rows.map key).Nodup) : InOrder lt key (sort lt key rows) := by
  have hweak : (sort lt key rows).Pairwise (fun a b => ¬ lt (key b) (key a)) := by
    have : IsTrans ρ (fun a b => ¬ lt (key b) (key a)) := ⟨fun _ _ _ => not_lt_trans⟩
    have : Std.Total (fun a b => ¬ lt (key b) (key a)) :=
      ⟨fun a b => or_iff_not_imp_left.mpr fun hba => asymm_of lt (not_not.mp hba)⟩
    exact pairwise_insertionSort _ rows
  have hkeys : (sort lt key rows).Pairwise (fun a b => key a ≠ key b) :=
    pairwise_map.mp (((perm_sort rows).map key).nodup_iff.mpr h)
  refine (hweak.and hkeys).imp ?_
  rintro a b ⟨hnot, hne⟩
  by_contra hlt
  exact hne (eq_of_not_lt hlt hnot)

omit [DecidableRel lt] in
lemma InOrder.eq_of_perm {rows rows'} (h : InOrder lt key rows)
    (h' : InOrder lt key rows') (hperm : rows.Perm rows') : rows = rows' := by
  refine hperm.eq_of_pairwise ?_ h h'
  intro a b _ _ hab hba
  exact absurd hba (asymm_of lt hab)

/-- Rows may be selected before or after they are put in order. -/
theorem sort_filter {rows} (h : (rows.map key).Nodup) (p) :
    sort lt key (rows.filter p) = (sort lt key rows).filter p := by
  have hnd : ((rows.filter p).map key).Nodup := h.sublist (filter_sublist.map key)
  refine (inOrder_sort hnd).eq_of_perm ((inOrder_sort h).filter p) ?_
  exact (perm_sort _).trans ((perm_sort rows).filter p).symm

lemma InOrder.filter_beyond {seen a rest} (h : InOrder lt key (seen ++ a :: rest)) :
    (seen ++ a :: rest).filter (fun row => lt (key a) (key row)) = rest := by
  obtain ⟨-, hrest, hcross⟩ := pairwise_append.mp h
  have hseen : seen.filter (fun row => lt (key a) (key row)) = [] := by
    rw [filter_eq_nil_iff]
    intro b hb
    simpa using asymm_of lt (hcross b hb a mem_cons_self)
  have hself : ¬ lt (key a) (key a) := irrefl_of lt (key a)
  have hall : rest.filter (fun row => lt (key a) (key row)) = rest := by
    rw [filter_eq_self]
    intro b hb
    simpa using (pairwise_cons.mp hrest).1 b hb
  rw [filter_append, hseen, nil_append, filter_cons_of_neg (by simpa using hself), hall]

/-! ### Pages -/

/-- The rows of at most so many pages, up to the first empty one. A page holds the first rows
beyond the cursor, and its last row is the next cursor. -/
def walk (beyond : ρ → ρ → Bool) (rows : List ρ) (k : ℕ) : ℕ → Option ρ → List ρ
  | 0, _ => []
  | calls + 1, cursor =>
    let page := (rows.filter (fun row => cursor.all (beyond · row))).take k
    match page.getLast? with
    | none => []
    | some last => page ++ walk beyond rows k calls (some last)

/-- If the rows beyond a row are those that follow it, the walk visits every row in order. -/
theorem walk_eq {k rows beyond calls cursor} (hk : 0 < k)
    (hbeyond : ∀ seen a rest, rows = seen ++ a :: rest → rows.filter (beyond a) = rest)
    {seen following : List ρ} (hrows : rows = seen ++ following)
    (hrest : rows.filter (fun row => cursor.all (beyond · row)) = following)
    (hcalls : following.length < calls) : walk beyond rows k calls cursor = following := by
  induction calls generalizing cursor seen following with
  | zero => cases hcalls
  | succ calls ih =>
    rw [walk, hrest]
    by_cases hnil : following = []
    · simp [hnil]
    · have hpage : following.take k ≠ [] := by
        simp only [ne_eq, take_eq_nil_iff, not_or]
        exact ⟨hk.ne', hnil⟩
      have hsplit : rows = (seen ++ following.take k) ++ following.drop k := by
        rw [hrows, append_assoc, take_append_drop]
      have hlast : rows = (seen ++ (following.take k).dropLast) ++
          (following.take k).getLast hpage :: following.drop k := by
        rw [hsplit]
        nth_rewrite 1 [← dropLast_append_getLast hpage]
        simp
      have hshor : (following.drop k).length < calls := by
        have := length_pos_iff.mpr hnil
        rw [length_drop]
        omega
      have hnext : walk beyond rows k calls (some ((following.take k).getLast hpage)) =
          following.drop k := ih hsplit (hbeyond _ _ _ hlast) hshor
      simp only [getLast?_eq_some_getLast hpage]
      rw [hnext, take_append_drop]

/-- With pages of one row every row is beyond the one before it. -/
theorem walk_one_chain (beyond : ρ → ρ → Bool) (rows : List ρ) (calls : ℕ) (cursor : Option ρ) :
    (cursor.toList ++ walk beyond rows 1 calls cursor).IsChain (beyond · ·) := by
  induction calls generalizing cursor with
  | zero => cases cursor <;> simp [walk]
  | succ calls ih =>
    rw [walk]
    cases hpage : rows.filter (fun row => cursor.all (beyond · row)) with
    | nil => cases cursor <;> simp
    | cons row rest =>
      have hmem : row ∈ rows.filter (fun row => cursor.all (beyond · row)) := by
        rw [hpage]
        exact mem_cons_self
      have hrow : cursor.all (beyond · row) := (mem_filter.mp hmem).2
      have hnext : (row :: walk beyond rows 1 calls (some row)).IsChain (beyond · ·) := ih (some row)
      cases cursor with
      | none => exact hnext
      | some last => exact .cons_cons hrow hnext

end BoilerplateExpress.Keyset

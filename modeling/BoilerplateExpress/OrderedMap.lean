import Mathlib.Tactic

/-!
# Finite maps in insertion order

The entries are a list with pairwise distinct keys. Writing a held key keeps its
place, a new key goes to the back, and a traversal visits the entries in list
order. Reads are characterised by membership, and every operation has one read
lemma, so later proofs never look at the list itself.
-/
namespace BoilerplateExpress

open List

structure OrderedMap (κ ν : Type*) where
  entries : List (κ × ν)
  nodup : (entries.map Prod.fst).Nodup

namespace OrderedMap

variable {κ ν : Type*} {m : OrderedMap κ ν}

lemma eq_of_entries {n} (h : m.entries = n.entries) : m = n := by
  obtain ⟨entries', nodup'⟩ := n
  subst h
  rfl

def empty {κ ν : Type*} : OrderedMap κ ν := ⟨[], by simp⟩

def size {κ ν : Type*} (m : OrderedMap κ ν) : ℕ := m.entries.length

def get {κ ν : Type*} [DecidableEq κ] (m : OrderedMap κ ν) (k : κ) : Option ν :=
  (m.entries.find? (fun e => e.1 = k)).map Prod.snd

def has {κ ν : Type*} [DecidableEq κ] (m : OrderedMap κ ν) (k : κ) : Bool := (m.get k).isSome

/-- Keeps the entries that satisfy `p`, in their order. -/
def filter {κ ν : Type*} (m : OrderedMap κ ν) (p : κ → ν → Bool) : OrderedMap κ ν :=
  ⟨m.entries.filter (fun e => p e.1 e.2), m.nodup.sublist (List.filter_sublist.map _)⟩

def delete {κ ν : Type*} [DecidableEq κ] (m : OrderedMap κ ν) (k : κ) : OrderedMap κ ν :=
  m.filter (fun j _ => decide (j ≠ k))

/-- Rewrites every value in place. -/
def mapValues {κ ν : Type*} (m : OrderedMap κ ν) (f : κ → ν → ν) : OrderedMap κ ν :=
  ⟨m.entries.map (fun e => (e.1, f e.1 e.2)), by
    simpa [List.map_map, Function.comp_def] using m.nodup⟩

/-- A read is membership of the pair: keys are distinct. -/
theorem get_eq_some [DecidableEq κ] (m : OrderedMap κ ν) (k v) :
    m.get k = some v ↔ (k, v) ∈ m.entries := by
  obtain ⟨entries, nodup⟩ := m
  induction entries with
  | nil => simp [get]
  | cons e es ih =>
    obtain ⟨j, w⟩ := e
    have hes : (es.map Prod.fst).Nodup := (nodup_cons.mp nodup).2
    have hj : j ∉ es.map Prod.fst := (nodup_cons.mp nodup).1
    by_cases hjk : j = k
    · subst hjk
      have hnone : ∀ u, (j, u) ∉ es := fun u hu => hj (mem_map.mpr ⟨(j, u), hu, rfl⟩)
      simp [get, hnone v, eq_comm]
    · have htail := ih hes
      simp only [get, find?_cons, hjk, decide_false] at htail ⊢
      rw [htail]
      simp [Ne.symm hjk]

lemma get_eq_none [DecidableEq κ] (m : OrderedMap κ ν) (k) :
    m.get k = none ↔ ∀ v, (k, v) ∉ m.entries := by
  constructor
  · intro h v hv
    rw [(m.get_eq_some k v).mpr hv] at h
    cases h
  · intro h
    cases hk : m.get k with
    | none => rfl
    | some v => exact absurd ((m.get_eq_some k v).mp hk) (h v)

variable {k : κ}

lemma not_mem_keys_of_get_none [DecidableEq κ] (h : m.get k = none) :
    k ∉ m.entries.map Prod.fst := by
  intro hk
  obtain ⟨e, he, rfl⟩ := mem_map.mp hk
  exact (m.get_eq_none e.1).mp h e.2 he

lemma get_eq_none_of_not_mem_keys [DecidableEq κ] (m : OrderedMap κ ν)
    (h : k ∉ m.entries.map Prod.fst) : m.get k = none :=
  (m.get_eq_none k).mpr fun v hv => h (mem_map.mpr ⟨(k, v), hv, rfl⟩)

/-- Writes a key: a held key keeps its place, a new key goes to the back. -/
def set {κ ν : Type*} [DecidableEq κ] (m : OrderedMap κ ν) (k : κ) (v : ν) : OrderedMap κ ν :=
  if h : m.get k = none then
    ⟨m.entries ++ [(k, v)], by
      rw [List.map_append, List.nodup_append]
      refine ⟨m.nodup, by simp, ?_⟩
      intro a ha b hb hab
      have hbk : b = k := by simpa using hb
      exact not_mem_keys_of_get_none h (hbk ▸ hab ▸ ha)⟩
  else m.mapValues (fun j w => if j = k then v else w)

@[simp] lemma get_empty [DecidableEq κ] (k) : (empty : OrderedMap κ ν).get k = none := rfl

@[simp] lemma get_filter [DecidableEq κ] (m : OrderedMap κ ν) (p k) :
    (m.filter p).get k = (m.get k).filter (p k) := by
  ext v
  simp [get_eq_some, filter]

@[simp] lemma get_delete [DecidableEq κ] (m : OrderedMap κ ν) (k j) :
    (m.delete k).get j = if j = k then none else m.get j := by
  simp only [delete, get_filter]
  by_cases hjk : j = k
  · cases h : m.get j <;> simp [hjk]
  · cases h : m.get j <;> simp [hjk]

@[simp] lemma get_mapValues [DecidableEq κ] (m : OrderedMap κ ν) (f k) :
    (m.mapValues f).get k = (m.get k).map (f k) := by
  ext v
  simp only [mapValues, mem_map, Prod.mk.injEq, Prod.exists, Option.map_eq_some_iff, get_eq_some]
  constructor
  · rintro ⟨j, w, hmem, rfl, hv⟩
    exact ⟨w, hmem, hv⟩
  · rintro ⟨w, hmem, hv⟩
    exact ⟨k, w, hmem, rfl, hv⟩

@[simp] lemma get_set [DecidableEq κ] (m : OrderedMap κ ν) (k j v) :
    (m.set k v).get j = if j = k then some v else m.get j := by
  unfold set
  split_ifs with hnone hjk hjk
  · subst hjk
    rw [get_eq_some]
    simp
  · ext w
    rw [get_eq_some, get_eq_some]
    simp [hjk]
  · subst hjk
    obtain ⟨w, hw⟩ := Option.ne_none_iff_exists'.mp hnone
    simp [hw]
  · cases h : m.get j <;> simp [hjk, h]

variable {v : ν}

lemma get_delete_eq_some {j} [DecidableEq κ] :
    (m.delete k).get j = some v ↔ j ≠ k ∧ m.get j = some v := by
  rw [get_delete]
  split_ifs with hjk <;> simp [hjk]

lemma get_set_eq_some {j w} [DecidableEq κ] :
    (m.set k v).get j = some w ↔ (j = k ∧ v = w) ∨ (j ≠ k ∧ m.get j = some w) := by
  rw [get_set]
  split_ifs with hjk <;> simp [hjk]

/-- An entry may be listed first: only the order of a traversal depends on its place. -/
theorem perm_of_get [DecidableEq κ] (h : m.get k = some v) :
    m.entries.Perm ((k, v) :: (m.delete k).entries) := by
  have hnew : (k, v) ∉ (m.delete k).entries := by simp [← get_eq_some]
  refine (perm_ext_iff_of_nodup m.nodup.of_map
    (nodup_cons.mpr ⟨hnew, (m.delete k).nodup.of_map⟩)).mpr ?_
  rintro ⟨j, w⟩
  simp only [mem_cons, ← get_eq_some]
  by_cases hj : j = k
  · simp [hj, h, eq_comm]
  · simp [hj]

lemma perm_set [DecidableEq κ] (m : OrderedMap κ ν) (k v) :
    (m.set k v).entries.Perm ((k, v) :: (m.delete k).entries) := by
  have hrest : ((m.set k v).delete k).entries.Perm (m.delete k).entries := by
    refine (perm_ext_iff_of_nodup ((m.set k v).delete k).nodup.of_map
      (m.delete k).nodup.of_map).mpr ?_
    rintro ⟨j, w⟩
    simp +contextual [← get_eq_some]
  exact (perm_of_get (by simp)).trans (hrest.cons _)

lemma entries_set_of_none [DecidableEq κ] (h : m.get k = none) (v) :
    (m.set k v).entries = m.entries ++ [(k, v)] := by simp [set, h]

lemma entries_set_of_some {w} [DecidableEq κ] (h : m.get k = some w) (v) :
    ∃ before after, m.entries = before ++ (k, w) :: after ∧
      (m.set k v).entries = before ++ (k, v) :: after := by
  obtain ⟨before, after, hsplit⟩ := append_of_mem ((m.get_eq_some k w).mp h)
  have hnd := m.nodup
  rw [hsplit, map_append, map_cons, nodup_append, nodup_cons] at hnd
  obtain ⟨-, ⟨haft, -⟩, hpre⟩ := hnd
  have hkeep : ∀ part : List (κ × ν), k ∉ part.map Prod.fst →
      part.map (fun e => (e.1, if e.1 = k then v else e.2)) = part := by
    intro part hk
    refine (map_congr_left fun e he => ?_).trans part.map_id
    have hne : e.1 ≠ k := fun heq => hk (heq ▸ mem_map_of_mem he)
    simp [hne]
  have hk : k ∉ before.map Prod.fst := fun hmem => hpre k hmem k mem_cons_self rfl
  refine ⟨before, after, hsplit, ?_⟩
  simp only [set, h, reduceCtorEq, dite_false, mapValues]
  rw [hsplit, map_append, map_cons, hkeep before hk, hkeep after haft]
  simp

/-- Replaces the value of a key that is there. -/
def modify {κ ν : Type*} [DecidableEq κ] (m : OrderedMap κ ν) (k : κ) (f : ν → ν) :
    OrderedMap κ ν :=
  m.mapValues (fun j v => if j = k then f v else v)

@[simp] lemma get_modify [DecidableEq κ] (m : OrderedMap κ ν) (k j f) :
    (m.modify k f).get j = if j = k then (m.get j).map f else m.get j := by
  rw [modify, get_mapValues]
  by_cases hjk : j = k
  · simp [hjk]
  · simp [hjk]

/-- Without the keys that were inserted first. -/
def dropFirst {κ ν : Type*} (m : OrderedMap κ ν) (n : ℕ) : OrderedMap κ ν :=
  ⟨m.entries.drop n, m.nodup.sublist (List.Sublist.map Prod.fst (List.drop_sublist n m.entries))⟩

lemma get_of_get_dropFirst {n} [DecidableEq κ] (h : (m.dropFirst n).get k = some v) :
    m.get k = some v := by
  rw [get_eq_some] at h ⊢
  exact mem_of_mem_drop h

end OrderedMap

end BoilerplateExpress

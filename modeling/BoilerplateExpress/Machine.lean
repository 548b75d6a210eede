import Mathlib.Tactic

/-!
# Partial step functions and their traces

A system is a computable step function `σ → α → Option σ`; the answer `none`
says that the action is not enabled. A trace is a list of actions, and every
prefix of a trace is a trace, so a property of all final states of all traces
is a property of every state reached on the way. `Guarded` asks a condition of
every action of a trace in the state it is taken in.
-/
namespace BoilerplateExpress.Machine

open List

/-- Takes the actions of a trace one after another, or stops at a disabled one. -/
def exec {σ α : Type*} (step : σ → α → Option σ) : σ → List α → Option σ
  | s, [] => some s
  | s, a :: as => (step s a).bind (fun t => exec step t as)

variable {σ α : Type*}

@[simp] lemma exec_nil (step : σ → α → Option σ) (s) : exec step s [] = some s := rfl

lemma exec_cons (step) (s t : σ) (a) (as : List α) :
    exec step s (a :: as) = some t ↔ ∃ u, step s a = some u ∧ exec step u as = some t := by
  simp [exec, Option.bind_eq_some_iff]

/-- A closed run is evaluated once, and what is seen of its last state is used by name. -/
theorem exists_of_seen {β step s} {as : List α} {P : σ → Prop} (see) (seen : β)
    (h : (exec step s as).map see = some seen)
    (hP : ∀ t, exec step s as = some t → see t = seen → P t) :
    ∃ t, exec step s as = some t ∧ P t := by
  obtain ⟨t, ht, hseen⟩ := Option.map_eq_some_iff.mp h
  exact ⟨t, ht, hP t ht hseen⟩

lemma exec_append (step) (s t : σ) (as bs : List α) :
    exec step s (as ++ bs) = some t ↔ ∃ u, exec step s as = some u ∧ exec step u bs = some t := by
  induction as generalizing s with
  | nil => simp
  | cons a as ih =>
    simp only [cons_append, exec_cons, ih]
    constructor
    · rintro ⟨v, hv, u, hu, ht⟩
      exact ⟨u, ⟨v, hv, hu⟩, ht⟩
    · rintro ⟨u, ⟨v, hv, hu⟩, ht⟩
      exact ⟨v, hv, u, hu, ht⟩

/-- Every action of the trace meets `ok` in the state it is taken in. -/
def Guarded {σ α : Type*} (step : σ → α → Option σ) (ok : σ → α → Prop) : σ → List α → Prop
  | _, [] => True
  | s, a :: as => ok s a ∧ ∀ t, step s a = some t → Guarded step ok t as

instance decidableGuarded {σ α : Type*} (step : σ → α → Option σ) (ok : σ → α → Prop)
    [hok : ∀ s a, Decidable (ok s a)] : (s : σ) → (as : List α) → Decidable (Guarded step ok s as)
  | _, [] => isTrue trivial
  | s, a :: as =>
    match h : step s a with
    | none => decidable_of_iff (ok s a) (by simp [Guarded, h])
    | some t =>
      have := decidableGuarded step ok t as
      decidable_of_iff (ok s a ∧ Guarded step ok t as) (by simp [Guarded, h])

variable {step : σ → α → Option σ} {ok : σ → α → Prop} {s : σ} {as : List α}

/-- The guards of a whole trace split at any point the trace passes through. -/
theorem guarded_append {u bs} (hexec : exec step s as = some u) (h : Guarded step ok s (as ++ bs)) :
    Guarded step ok s as ∧ Guarded step ok u bs := by
  induction as generalizing s with
  | nil =>
    have hsu : s = u := by simpa using hexec
    exact ⟨trivial, by simpa [hsu] using h⟩
  | cons a as ih =>
    obtain ⟨v, hv, hrest⟩ := (exec_cons step s u a as).mp hexec
    obtain ⟨hok, hnext⟩ := h
    have htail := ih hrest (hnext v hv)
    refine ⟨⟨hok, ?_⟩, htail.2⟩
    intro w hw
    have hvw : v = w := Option.some.inj (hv.symm.trans hw)
    exact hvw ▸ htail.1

variable {t : σ}

/-- Cuts a guarded trace at one of its actions. -/
theorem guarded_cut {u a bs} (hpre : exec step s as = some u)
    (hok : Guarded step ok s (as ++ a :: bs)) (hexec : exec step s (as ++ a :: bs) = some t) :
    ok u a ∧ ∃ v, step u a = some v ∧ exec step v bs = some t := by
  obtain ⟨u', hu', hrest⟩ := (exec_append step s t as (a :: bs)).mp hexec
  have huu : u' = u := Option.some.inj (hu'.symm.trans hpre)
  subst huu
  exact ⟨(guarded_append hpre hok).2.1, (exec_cons step u' t a bs).mp hrest⟩

lemma guarded_of_forall (step) {ok : α → Prop} (h : ∀ a ∈ as, ok a) (s : σ) :
    Guarded step (fun _ a => ok a) s as := by
  induction as generalizing s with
  | nil => trivial
  | cons a as ih =>
    refine ⟨h a mem_cons_self, ?_⟩
    intro t _
    exact ih (fun b hb => h b (mem_cons_of_mem a hb)) t

/-- An invariant kept by every guarded step holds after every guarded trace. -/
theorem exec_invariant_of_guarded (I : σ → Prop)
    (hstep : ∀ s a t, I s → ok s a → step s a = some t → I t) (hs : I s)
    (hok : Guarded step ok s as) (hexec : exec step s as = some t) : I t := by
  induction as generalizing s with
  | nil =>
    have hst : s = t := by simpa using hexec
    exact hst ▸ hs
  | cons a as ih =>
    obtain ⟨u, hu, hrest⟩ := (exec_cons step s t a as).mp hexec
    exact ih (hstep s a u hs hok.1 hu) (hok.2 u hu) hrest

lemma exec_invariant (I : σ → Prop) (hstep : ∀ s a t, I s → step s a = some t → I t) (hs : I s)
    (hexec : exec step s as = some t) : I t :=
  exec_invariant_of_guarded I (fun s a t h _ => hstep s a t h) hs
    (guarded_of_forall step (fun _ _ => trivial) s) hexec

/-- If the steps against the guard are those that leave a mark, and no step removes it, the traces
that end without the mark are the guarded ones. -/
theorem guarded_iff_not_marked (ok) (I marked : σ → Prop)
    (hstep : ∀ s a t, I s → step s a = some t → I t ∧ (¬ marked s → (ok s a ↔ ¬ marked t)))
    (hlasts : ∀ s a t, marked s → step s a = some t → marked t) (hs : I s) (hclear : ¬ marked s)
    (hexec : exec step s as = some t) : Guarded step ok s as ↔ ¬ marked t := by
  induction as generalizing s with
  | nil =>
    have hst : s = t := by simpa using hexec
    exact iff_of_true trivial (hst ▸ hclear)
  | cons a as ih =>
    obtain ⟨u, hu, hrest⟩ := (exec_cons step s t a as).mp hexec
    obtain ⟨hinv, hiff⟩ := hstep s a u hs hu
    by_cases hok : ok s a
    · rw [← ih hinv ((hiff hclear).mp hok) hrest]
      simp [Guarded, hok, hu]
    · have hmar : marked u := not_not.mp (fun h => hok ((hiff hclear).mpr h))
      exact iff_of_false (fun h => hok h.1) (not_not.mpr (exec_invariant marked hlasts hmar hrest))

/-- A run reaches its goal if every step before that lowers a rank. -/
theorem eventually_of_rank {β} [Preorder β] [WellFoundedLT β] (rank : ℕ → β) (goal : ℕ → Prop)
    (h : ∀ k, goal k ∨ rank (k + 1) < rank k) (start) : ∃ k, start ≤ k ∧ goal k := by
  generalize hr : rank start = r
  induction r using WellFoundedLT.induction generalizing start with
  | ind r ih =>
    rcases h start with hgoal | hlt
    · exact ⟨start, le_rfl, hgoal⟩
    · obtain ⟨k, hk, hgoal⟩ := ih (rank (start + 1)) (hr ▸ hlt) (start + 1) rfl
      exact ⟨k, by omega, hgoal⟩

/-- One entry of a log changes, and a count follows it. -/
theorem countP_set_add {i a} {l : List α} (h : l[i]? = some a) (p b) :
    (l.set i b).countP p + (if p a then 1 else 0) = l.countP p + if p b then 1 else 0 := by
  obtain ⟨hlt, hget⟩ := List.getElem?_eq_some_iff.mp h
  rw [countP_set hlt, hget]
  by_cases ha : p a
  · have := countP_pos_iff.mpr ⟨a, mem_of_getElem? h, ha⟩
    simp only [ha, if_true]
    omega
  · simp [ha]

end BoilerplateExpress.Machine

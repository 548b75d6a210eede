import BoilerplateExpress.Redis.StartStop

/-!
# What a start and a stop leave behind

After a `start` that resolved the loop is steady until the next `stop`; after a `stop` the worker
is draining until the next `start`.
-/
namespace BoilerplateExpress.Redis.StartStop

/-- The worker has one loop, in the state `s` that a trace reaches from the beginning. -/
structure OneLoop (trace : List Action) (s : WorkerState) : Prop where
  at_most_one : ∀ l l', s.Live l → s.Live l' → l = l'
  started : ∀ pre action post u, trace = pre ++ action :: post →
    Machine.exec WorkerState.step {} pre = some u → u.ResolvesStart action →
    (∀ c, Action.stop c ∉ post) → ∃! l, s.Live l
  stopped : ∀ pre c post, trace = pre ++ .stop c :: post → (∀ d, Action.start d ∉ post) →
    s.calls c = .resolved → ∀ l, ¬ s.Live l

namespace WorkerState

/-- A loop runs and has not been told to stop. -/
def Steady (s : WorkerState) : Prop := s.stopping = false ∧ ∃ l, s.Live l

variable {s : WorkerState}

lemma existsUnique_of_steady (h : Inv s) (hsteady : Steady s) : ∃! l, s.Live l := by
  obtain ⟨-, l, hl⟩ := hsteady
  refine ⟨l, hl, ?_⟩
  intro k hk
  exact Option.some.inj ((h.live k hk).2.1.symm.trans (h.live l hl).2.1)

variable {t : WorkerState} {action : Action}

/-- The loop of a start that resolves. -/
theorem steady_of_resolvesStart (h : Inv s) (hmay : s.MayStep action)
    (hres : s.ResolvesStart action) (hstep : s.step action = some t) : Steady t := by
  cases action with
  | start c =>
    obtain ⟨-, ⟨⟩⟩ := Option.ite_none_right_eq_some.mp hstep
    obtain ⟨-, hnos, hlive⟩ := hmay
    obtain ⟨l, hl⟩ := hlive hres
    rw [start, if_pos (show s.running from hres)]
    refine ⟨Bool.eq_false_iff.mpr ?_, l, hl⟩
    intro hstop
    obtain ⟨c', hc'⟩ := h.told hstop l hl
    exact hnos c' (some l) hc'
  | groupCreated c =>
    obtain ⟨hc, ⟨⟩⟩ := Option.ite_none_right_eq_some.mp hstep
    obtain ⟨-, hstop, -⟩ := h.creating c hc
    refine ⟨hstop, c, ?_⟩
    rw [groupCreated_live, if_pos rfl]
    exact hstop
  | _ => exact hres.elim

lemma steady_setLoop {state} (hsteady : Steady s) (l) (hst : state.isLive) :
    Steady (s.setLoop l state) := by
  obtain ⟨hstop, k, hk⟩ := hsteady
  refine ⟨hstop, k, setLoop_live state |>.mpr ?_⟩
  split
  · exact hst
  · exact hk

lemma steady_loopHead (hsteady : Steady s) (l) : Steady (s.loopHead l) :=
  steady_setLoop hsteady l (by simp [hsteady.1, LoopState.isLive])

/-- Only a `stop` ends a steady loop. -/
theorem steady_step (h : Inv s) (hsteady : Steady s) (hmay : s.MayStep action)
    (hstop : ∀ c, action ≠ .stop c) (hstep : s.step action = some t) : Steady t := by
  obtain ⟨hstopp, k, hk⟩ := hsteady
  obtain ⟨hrun, -, hnone⟩ := h.live k hk
  have hnos : ∀ c loop, s.calls c ≠ .awaitingLoop loop := by
    intro c loop hc
    rw [(h.awaiting c loop hc).1] at hstopp
    cases hstopp
  cases action with
  | start c =>
    obtain ⟨-, ⟨⟩⟩ := Option.ite_none_right_eq_some.mp hstep
    rw [start, if_pos hrun]
    exact ⟨hstopp, k, hk⟩
  | groupCreated c =>
    obtain ⟨hc, -⟩ := Option.ite_none_right_eq_some.mp hstep
    exact absurd hc (hnone c)
  | groupFailed c =>
    obtain ⟨hc, -⟩ := Option.ite_none_right_eq_some.mp hstep
    exact absurd hc (hnone c)
  | stop c => exact absurd rfl (hstop c)
  | loopAwaited c =>
    obtain ⟨loop, hc, -⟩ := loopAwaited_eq_some hstep
    exact absurd hc (hnos c loop)
  | retired c =>
    obtain ⟨-, ⟨⟩⟩ := Option.ite_none_right_eq_some.mp hstep
    exact ⟨hstopp, k, hk⟩
  | ticked l completed =>
    obtain ⟨-, ⟨⟩⟩ := Option.ite_none_right_eq_some.mp hstep
    unfold ticked
    split
    · exact steady_loopHead ⟨hstopp, k, hk⟩ l
    · exact steady_setLoop ⟨hstopp, k, hk⟩ l rfl
  | tickRejected l =>
    rw [show s.stopping from hmay] at hstopp
    cases hstopp
  | resumed l =>
    obtain ⟨-, ⟨⟩⟩ := Option.ite_none_right_eq_some.mp hstep
    exact steady_loopHead ⟨hstopp, k, hk⟩ l

variable {trace : List Action}

lemma steady_exec (h : Inv s) (hsteady : Steady s) (hmay : Machine.Guarded step MayStep s trace)
    (hstop : ∀ c, Action.stop c ∉ trace) (hexec : Machine.exec step s trace = some t) :
    Steady t := by
  induction trace generalizing s with
  | nil => exact Option.some.inj hexec ▸ hsteady
  | cons action trace ih =>
    obtain ⟨u, hu, hrest⟩ := (Machine.exec_cons step s t action trace).mp hexec
    have hnot : ∀ c, action ≠ .stop c := by
      rintro c rfl
      exact hstop c List.mem_cons_self
    exact ih (inv_step h hmay.1 hu) (steady_step h hsteady hmay.1 hnot hu) (hmay.2 u hu)
      (fun c hc => hstop c (List.mem_cons_of_mem action hc)) hrest

/-- Call `c` of `stop` has not resolved as long as a loop runs, and no loop is about to come. -/
def Draining (c : ℕ) (s : WorkerState) : Prop :=
  (∀ d, s.calls d ≠ .creating) ∧ s.calls c ≠ .unmade ∧
    ∀ l, s.Live l → s.calls c = .awaitingLoop (some l) ∨ s.calls c = .rejected

variable {c : ℕ}

lemma draining_stop (h : Inv s) (hmay : s.MayStep (.stop c)) : Draining c (s.stop c) := by
  unfold stop
  split
  · refine ⟨setCall_ne_creating (by simp) hmay, by simp, ?_⟩
    intro l hl
    exact .inl (by rw [setCall_self, (h.live l hl).2.1])
  · rename_i hidle
    exact ⟨setCall_ne_creating (by simp) hmay, by simp, fun l hl => absurd (h.live l hl).1 hidle⟩

/-- Another call, and the calls of a `stop` that has not been made before. -/
theorem draining_setCall {state d} (hdr : Draining c s) (hcreat : state ≠ .creating)
    (hne : c ≠ d) : Draining c (s.setCall d state) := by
  obtain ⟨hnone, hmade, hwaits⟩ := hdr
  refine ⟨setCall_ne_creating hcreat hnone, by rwa [setCall_of_ne state hne], ?_⟩
  rw [setCall_of_ne state hne]
  exact hwaits

lemma draining_setLoop {l state} (hdr : Draining c s) (hlive : s.Live l) :
    Draining c (s.setLoop l state) := by
  refine ⟨hdr.1, hdr.2.1, ?_⟩
  intro k hk
  rw [setLoop_live] at hk
  split at hk
  · rename_i heq
    exact hdr.2.2 k (heq ▸ hlive)
  · exact hdr.2.2 k hk

lemma draining_loopAwaited {d} (hdr : Draining c s) (hstep : s.loopAwaited d = some t) :
    Draining c t := by
  obtain ⟨loop, hd, hset, ht⟩ := loopAwaited_eq_some hstep
  by_cases heq : c = d
  · -- what the call waited for is no live loop, so there is none
    subst heq
    have hdead : ∀ l, ¬ s.Live l := by
      intro l hl
      rcases hdr.2.2 l hl with hwaits | hrej
      · rw [hd] at hwaits
        exact hset l (CallState.awaitingLoop.inj hwaits) hl
      · rw [hd] at hrej
        cases hrej
    rcases ht with ⟨-, rfl⟩ | rfl
    · exact ⟨setCall_ne_creating (by simp) hdr.1, by simp [loopEnded],
        fun l hl => absurd hl (hdead l)⟩
    · exact ⟨setCall_ne_creating (by simp) hdr.1, by simp, fun l hl => absurd hl (hdead l)⟩
  · rcases ht with ⟨-, rfl⟩ | rfl
    · exact draining_setCall (s := { s with loop := none, running := false }) hdr
        (by simp) heq
    · exact draining_setCall hdr (by simp) heq

lemma draining_step (hdr : Draining c s) (hstart : ∀ d, action ≠ .start d)
    (hstep : s.step action = some t) : Draining c t := by
  have hlive : ∀ l, s.loops l = .ticking ∨ s.loops l = .pausing → s.Live l := by
    rintro l (hl | hl) <;> simp [Live, hl, LoopState.isLive]
  cases action with
  | start d => exact absurd rfl (hstart d)
  | groupCreated d =>
    obtain ⟨hd, -⟩ := Option.ite_none_right_eq_some.mp hstep
    exact absurd hd (hdr.1 d)
  | groupFailed d =>
    obtain ⟨hd, -⟩ := Option.ite_none_right_eq_some.mp hstep
    exact absurd hd (hdr.1 d)
  | stop d =>
    obtain ⟨hd, ⟨⟩⟩ := Option.ite_none_right_eq_some.mp hstep
    have hne : c ≠ d := by
      rintro rfl
      exact hdr.2.1 hd
    unfold stop
    split
    · exact draining_setCall (s := { s with stopping := true }) hdr (by simp) hne
    · exact draining_setCall hdr (by simp) hne
  | loopAwaited d => exact draining_loopAwaited hdr hstep
  | retired d =>
    obtain ⟨hd, ⟨⟩⟩ := Option.ite_none_right_eq_some.mp hstep
    by_cases heq : c = d
    · subst heq
      refine ⟨setCall_ne_creating (by simp) hdr.1, by simp, ?_⟩
      intro l hl
      have := hdr.2.2 l hl
      simp [hd] at this
    · exact draining_setCall hdr (by simp) heq
  | ticked l completed =>
    obtain ⟨hl, ⟨⟩⟩ := Option.ite_none_right_eq_some.mp hstep
    unfold ticked
    split
    · exact draining_setLoop hdr (hlive l (.inl hl))
    · exact draining_setLoop hdr (hlive l (.inl hl))
  | tickRejected l =>
    obtain ⟨hl, ⟨⟩⟩ := Option.ite_none_right_eq_some.mp hstep
    exact draining_setLoop hdr (hlive l (.inl hl))
  | resumed l =>
    obtain ⟨hl, ⟨⟩⟩ := Option.ite_none_right_eq_some.mp hstep
    exact draining_setLoop hdr (hlive l (.inr hl))

lemma draining_exec (hdr : Draining c s) (hstart : ∀ d, Action.start d ∉ trace)
    (hexec : Machine.exec step s trace = some t) : Draining c t := by
  refine Machine.exec_invariant_of_guarded (Draining c) (fun _ _ _ h => draining_step h) hdr ?_ hexec
  refine Machine.guarded_of_forall step (fun action haction d => ?_) s
  rintro rfl
  exact hstart d haction

lemma inv_exec (hmay : Machine.Guarded step MayStep {} trace)
    (hexec : Machine.exec step {} trace = some s) : Inv s :=
  Machine.exec_invariant_of_guarded Inv (fun _ _ _ h hok hs => inv_step h hok hs) inv_initial hmay
    hexec

end WorkerState

open WorkerState in
/-- In every run whose calls come when they may, the worker has one loop in every state. -/
theorem one_loop_of_mayStep {trace : List Action} {s : WorkerState}
    (hmay : Machine.Guarded step MayStep {} trace)
    (hexec : Machine.exec step {} trace = some s) : OneLoop trace s := by
  have hinv := inv_exec hmay hexec
  refine ⟨?_, ?_, ?_⟩
  · intro l k hl hk
    exact Option.some.inj ((hinv.live l hl).2.1.symm.trans (hinv.live k hk).2.1)
  · rintro pre action post u rfl hpre hresol hstop
    obtain ⟨hok, v, hv, hpost⟩ := Machine.guarded_cut hpre hmay hexec
    have hu : Inv u := inv_exec (Machine.guarded_append hpre hmay).1 hpre
    have hrest := (Machine.guarded_append hpre hmay).2.2 v hv
    exact existsUnique_of_steady hinv (steady_exec (inv_step hu hok hv)
      (steady_of_resolvesStart hu hok hresol hv) hrest hstop hpost)
  · rintro pre c post rfl hstart hres l hl
    obtain ⟨u, hpre, -⟩ := (Machine.exec_append step {} s pre (.stop c :: post)).mp hexec
    obtain ⟨hok, v, hv, hpost⟩ := Machine.guarded_cut hpre hmay hexec
    have hu : Inv u := inv_exec (Machine.guarded_append hpre hmay).1 hpre
    obtain ⟨-, ⟨⟩⟩ := Option.ite_none_right_eq_some.mp hv
    have hdr := draining_exec (draining_stop hu hok) hstart hpost
    rcases hdr.2.2 l hl with hwaits | hrej
    · rw [hres] at hwaits
      cases hwaits
    · rw [hres] at hrej
      cases hrej

/-- A start, and a stop after it. -/
def sampleTrace : List Action :=
  [.start 0, .groupCreated 0, .stop 1, .ticked 0 true, .loopAwaited 1, .retired 1]

theorem one_loop_sample :
    ∃ s, Machine.exec WorkerState.step {} sampleTrace = some s ∧ OneLoop sampleTrace s := by
  refine ⟨_, rfl, one_loop_of_mayStep ?_ rfl⟩
  simp only [sampleTrace, Machine.Guarded, WorkerState.MayStep]
  refine ⟨by simp, fun t ht => ⟨trivial, fun u hu => ⟨?_, by simp⟩⟩⟩
  cases ht
  cases hu
  intro d hd
  rw [WorkerState.groupCreated_calls] at hd
  split at hd
  · cases hd
  · rename_i hne
    simp [WorkerState.start, WorkerState.setCall_of_ne _ hne] at hd

/-- A start that comes back as long as the first one waits for its group, after a stop. -/
def overtakenTrace : List Action :=
  [.start 0, .stop 1, .loopAwaited 1, .start 2, .groupCreated 0, .groupCreated 2]

/-- A start after one whose group could not be created. -/
def groupFailedTrace : List Action := [.start 0, .groupFailed 0, .start 1]

/-- In the first trace there are two loops, and in the second a start resolves without any. -/
theorem two_loops_or_none :
    (∃ s, Machine.exec WorkerState.step {} overtakenTrace = some s ∧ s.Live 0 ∧ s.Live 2 ∧
        ¬ OneLoop overtakenTrace s) ∧
      ∃ s, Machine.exec WorkerState.step {} groupFailedTrace = some s ∧ s.calls 1 = .resolved ∧
        (∀ l, ¬ s.Live l) ∧ ¬ OneLoop groupFailedTrace s := by
  refine ⟨⟨_, rfl, by decide, by decide, ?_⟩, ⟨_, rfl, by decide, ?_, ?_⟩⟩
  · intro hone
    exact absurd (hone.at_most_one 0 2 (by decide) (by decide)) (by decide)
  · intro l hl
    cases hl
  · intro hone
    obtain ⟨l, hl, -⟩ :=
      hone.started [.start 0, .groupFailed 0] (.start 1) [] _ rfl rfl rfl (by simp)
    cases hl

end BoilerplateExpress.Redis.StartStop

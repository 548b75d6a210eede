import BoilerplateExpress.Machine

/-!
# One loop per worker

`start` and `stop` of `createStreamWorker` (`redis/stream.worker.ts`), for one worker object and
any number of overlapping calls. Unlike in `WorkerLifecycle` every awaited command may also fail,
and the ticks are known only by how they end.

The flags `running` and `stopping` are set before the awaits of the two methods, and `loop` after
them. A call that comes while another is between the two can leave the worker with two loops, or
with none. `MayStep` says which calls do not.
-/
namespace BoilerplateExpress.Redis.StartStop

/-- Where a call of `start` or `stop` is. -/
inductive CallState where
  | unmade
  /-- `start` awaits `ensureGroup`. -/
  | creating
  /-- `stop` awaits the promise that `loop` held, if it held one. -/
  | awaitingLoop (loop : Option ℕ)
  /-- `stop` retires the consumer; failures there are swallowed. -/
  | retiring
  | resolved
  | rejected
  deriving DecidableEq

inductive LoopState where
  | absent
  | ticking
  /-- Between a failed tick and the next one. -/
  | pausing
  | ended
  | rejected
  deriving DecidableEq

def LoopState.isLive : LoopState → Bool
  | .ticking => true
  | .pausing => true
  | _ => false

/-- The variables of the worker, its calls, and its loops. A loop has the number of the call of
`start` that made it. -/
structure WorkerState where
  running : Bool := false
  stopping : Bool := false
  loop : Option ℕ := none
  calls : ℕ → CallState := fun _ => .unmade
  loops : ℕ → LoopState := fun _ => .absent

inductive Action where
  | start (c : ℕ)
  | groupCreated (c : ℕ)
  | groupFailed (c : ℕ)
  | stop (c : ℕ)
  /-- What a `stop` awaits has settled. -/
  | loopAwaited (c : ℕ)
  | retired (c : ℕ)
  /-- `tick` resolves with this value. -/
  | ticked (l : ℕ) (completed : Bool)
  /-- `tick` rejects: the group was gone and could not be made again, or `onError` threw. -/
  | tickRejected (l : ℕ)
  /-- The pause is over, or was cut short by `wake`. -/
  | resumed (l : ℕ)

namespace WorkerState

def setCall (s : WorkerState) (c : ℕ) (state : CallState) : WorkerState :=
  { s with calls := Function.update s.calls c state }

def setLoop (s : WorkerState) (l : ℕ) (state : LoopState) : WorkerState :=
  { s with loops := Function.update s.loops l state }

/-- `while (!stopping)`. -/
def loopHead (s : WorkerState) (l : ℕ) : WorkerState :=
  s.setLoop l (if s.stopping then .ended else .ticking)

def start (s : WorkerState) (c : ℕ) : WorkerState :=
  if s.running then s.setCall c .resolved
  else { s with running := true, stopping := false }.setCall c .creating

/-- The loop runs up to its first tick before `start` goes on. -/
def groupCreated (s : WorkerState) (c : ℕ) : WorkerState :=
  ({ s with loop := some c }.setCall c .resolved).loopHead c

def stop (s : WorkerState) (c : ℕ) : WorkerState :=
  if s.running then { s with stopping := true }.setCall c (.awaitingLoop s.loop)
  else s.setCall c .resolved

def loopEnded (s : WorkerState) (c : ℕ) : WorkerState :=
  { s with loop := none, running := false }.setCall c .retiring

def loopAwaited (s : WorkerState) (c : ℕ) : Option WorkerState :=
  match s.calls c with
  | .awaitingLoop none => some (s.loopEnded c)
  | .awaitingLoop (some l) =>
    match s.loops l with
    | .ended => some (s.loopEnded c)
    | .rejected => some (s.setCall c .rejected)
    | _ => none
  | _ => none

/-- After a failed tick the loop pauses, unless it has been told to stop. -/
def ticked (s : WorkerState) (l : ℕ) (completed : Bool) : WorkerState :=
  if completed || s.stopping then s.loopHead l else s.setLoop l .pausing

def step (s : WorkerState) : Action → Option WorkerState
  | .start c => if s.calls c = .unmade then some (s.start c) else none
  | .groupCreated c => if s.calls c = .creating then some (s.groupCreated c) else none
  | .groupFailed c => if s.calls c = .creating then some (s.setCall c .rejected) else none
  | .stop c => if s.calls c = .unmade then some (s.stop c) else none
  | .loopAwaited c => s.loopAwaited c
  | .retired c => if s.calls c = .retiring then some (s.setCall c .resolved) else none
  | .ticked l completed => if s.loops l = .ticking then some (s.ticked l completed) else none
  | .tickRejected l => if s.loops l = .ticking then some (s.setLoop l .rejected) else none
  | .resumed l => if s.loops l = .pausing then some (s.loopHead l) else none

def Live (s : WorkerState) (l : ℕ) : Prop := (s.loops l).isLive = true

instance (s : WorkerState) (l : ℕ) : Decidable (s.Live l) := inferInstanceAs (Decidable (_ = true))

/-- The action makes a call of `start` resolve. -/
def ResolvesStart (s : WorkerState) : Action → Prop
  | .start _ => s.running = true
  | .groupCreated _ => True
  | _ => False

/-- A `start` comes when no other is creating the group, no `stop` waits for a loop, and `running`
is not left over from a failure; a `stop` comes when no `start` is creating the group; and a loop
dies of its own only after it was told to stop. -/
def MayStep (s : WorkerState) : Action → Prop
  | .start _ => (∀ d, s.calls d ≠ .creating) ∧ (∀ d loop, s.calls d ≠ .awaitingLoop loop) ∧
      (s.running = true → ∃ l, s.Live l)
  | .stop _ => ∀ d, s.calls d ≠ .creating
  | .tickRejected _ => s.stopping = true
  | _ => True

section

variable {s : WorkerState} {c d l k : ℕ}

@[simp] lemma setCall_self (state) : (s.setCall c state).calls c = state :=
  Function.update_self ..

lemma setCall_of_ne (state) (h : d ≠ c) : (s.setCall c state).calls d = s.calls d :=
  Function.update_of_ne h ..

lemma setCall_eq (state other) :
    (s.setCall c state).calls d = other ↔ if d = c then state = other else s.calls d = other := by
  by_cases h : d = c
  · subst h
    simp
  · simp [setCall_of_ne state h, h]

lemma setCall_ne_creating {state} (hst : state ≠ .creating)
    (hnone : ∀ d, s.calls d ≠ .creating) (d) : (s.setCall c state).calls d ≠ .creating := by
  intro hd
  rw [setCall_eq] at hd
  split at hd
  · exact hst hd
  · exact hnone d hd

lemma setLoop_live (state) :
    (s.setLoop l state).Live k ↔ if k = l then state.isLive = true else s.Live k := by
  unfold Live setLoop
  by_cases h : k = l
  · subst h
    simp
  · simp [h]

lemma loopHead_live : (s.loopHead l).Live k ↔ if k = l then s.stopping = false else s.Live k := by
  rw [loopHead, setLoop_live]
  cases s.stopping <;> simp [LoopState.isLive]

end

/-- What the flags say, in a run in which every step may be taken. -/
structure Inv (s : WorkerState) : Prop where
  idle : s.running = false → s.loop = none
  live : ∀ l, s.Live l → s.running = true ∧ s.loop = some l ∧ ∀ c, s.calls c ≠ .creating
  creating : ∀ c, s.calls c = .creating → s.running = true ∧ s.stopping = false ∧
    (∀ d, s.calls d = .creating → d = c) ∧ ∀ d loop, s.calls d ≠ .awaitingLoop loop
  awaiting : ∀ c loop, s.calls c = .awaitingLoop loop → s.stopping = true ∧
    (s.running = true → loop = s.loop) ∧
    (s.running = false → ∀ l, loop = some l → s.loops l = .ended)
  told : s.stopping = true → ∀ l, s.Live l → ∃ c, s.calls c = .awaitingLoop (some l)

lemma inv_initial : Inv {} := by
  refine ⟨fun _ => rfl, ?_, ?_, ?_, ?_⟩ <;> intros <;> simp_all [Live, LoopState.isLive]

variable {s : WorkerState} {c : ℕ}

lemma Inv.not_live_of_creating (h : Inv s) (hc : s.calls c = .creating) (l) : ¬ s.Live l :=
  fun hl => (h.live l hl).2.2 c hc

/-- A `stop` that finds what it waits for settled leaves no live loop. -/
theorem Inv.not_live_of_settled (h : Inv s) {loop} (hc : s.calls c = .awaitingLoop loop)
    (hset : ∀ l, loop = some l → ¬ s.Live l) (l) : ¬ s.Live l := by
  intro hl
  obtain ⟨hrun, hloop, -⟩ := h.live l hl
  exact hset l (((h.awaiting c loop hc).2.1 hrun).trans hloop) hl

/-- A call that ends leaves the invariant if no loop depended on it. -/
theorem inv_setCall {state} (h : Inv s) (hcreat : state ≠ .creating)
    (hawait : ∀ loop, state ≠ .awaitingLoop loop)
    (htold : ∀ l, s.calls c = .awaitingLoop (some l) → ¬ s.Live l) : Inv (s.setCall c state) := by
  have hback : ∀ d other, other = .creating ∨ (∃ loop, other = .awaitingLoop loop) →
      (s.setCall c state).calls d = other → s.calls d = other := by
    intro d other hoth hd
    rw [setCall_eq] at hd
    split at hd
    · rcases hoth with rfl | ⟨loop, rfl⟩
      · exact absurd hd hcreat
      · exact absurd hd (hawait loop)
    · exact hd
  refine ⟨h.idle, ?_, ?_, ?_, ?_⟩
  · intro l hl
    obtain ⟨hrun, hloop, hnot⟩ := h.live l hl
    exact ⟨hrun, hloop, fun d hd => hnot d (hback d _ (.inl rfl) hd)⟩
  · intro d hd
    obtain ⟨hrun, hstop, honly, hnone⟩ := h.creating d (hback d _ (.inl rfl) hd)
    exact ⟨hrun, hstop, fun e he => honly e (hback e _ (.inl rfl) he),
      fun e loop he => hnone e loop (hback e _ (.inr ⟨loop, rfl⟩) he)⟩
  · intro d loop hd
    exact h.awaiting d loop (hback d _ (.inr ⟨loop, rfl⟩) hd)
  · intro hstop l hl
    obtain ⟨d, hd⟩ := h.told hstop l hl
    refine ⟨d, (setCall_eq _ _).mpr ?_⟩
    split
    · rename_i heq
      exact absurd hl (htold l (heq ▸ hd))
    · exact hd

/-- Loops that end or go on, without a new one. -/
theorem inv_setLoop {l state} (h : Inv s) (hlive : s.Live l) : Inv (s.setLoop l state) := by
  have hback : ∀ k, (s.setLoop l state).Live k → s.Live k := by
    intro k hk
    rw [setLoop_live] at hk
    split at hk
    · rename_i heq
      exact heq ▸ hlive
    · exact hk
  refine ⟨h.idle, fun k hk => h.live k (hback k hk), h.creating, ?_,
    fun hstop k hk => h.told hstop k (hback k hk)⟩
  intro c loop hc
  obtain ⟨hstop, hsame, hended⟩ := h.awaiting c loop hc
  refine ⟨hstop, hsame, ?_⟩
  intro hrun k hk
  have := (h.live l hlive).1
  rw [show s.running = false from hrun] at this
  cases this

lemma inv_start (h : Inv s) (hc : s.calls c = .unmade) (hmay : s.MayStep (.start c)) :
    Inv (s.start c) := by
  obtain ⟨hnone, hnos, -⟩ := hmay
  unfold start
  split
  · refine inv_setCall h (by simp) (by simp) ?_
    intro l hl
    rw [hc] at hl
    cases hl
  · rename_i hidle
    have hdead : ∀ l, ¬ s.Live l := fun l hl => hidle (h.live l hl).1
    refine ⟨fun hrun => (by cases hrun), fun l hl => absurd hl (hdead l), ?_, ?_,
      fun _ l hl => absurd hl (hdead l)⟩
    · intro d hd
      refine ⟨rfl, rfl, ?_, ?_⟩
      · intro e he
        rw [setCall_eq] at hd he
        split at hd
        · split at he
          · simp_all
          · exact absurd he (hnone e)
        · exact absurd hd (hnone d)
      · intro e loop he
        rw [setCall_eq] at he
        split at he
        · cases he
        · exact hnos e loop he
    · intro d loop hd
      rw [setCall_eq] at hd
      split at hd
      · cases hd
      · exact absurd hd (hnos d loop)

lemma groupCreated_live {k} :
    (s.groupCreated c).Live k ↔ if k = c then s.stopping = false else s.Live k := loopHead_live

lemma groupCreated_calls {d} (other) :
    (s.groupCreated c).calls d = other ↔
      if d = c then CallState.resolved = other else s.calls d = other := setCall_eq _ _

lemma inv_groupCreated (h : Inv s) (hc : s.calls c = .creating) : Inv (s.groupCreated c) := by
  obtain ⟨hrun, hstop, honly, hnos⟩ := h.creating c hc
  have hdone : ∀ d, (s.groupCreated c).calls d ≠ .creating := by
    intro d hd
    rw [groupCreated_calls] at hd
    split at hd
    · cases hd
    · rename_i hne
      exact hne (honly d hd)
  have hnos' : ∀ d loop, (s.groupCreated c).calls d ≠ .awaitingLoop loop := by
    intro d loop hd
    rw [groupCreated_calls] at hd
    split at hd
    · cases hd
    · exact hnos d loop hd
  refine ⟨?_, ?_, fun d hd => absurd hd (hdone d), fun d loop hd => absurd hd (hnos' d loop), ?_⟩
  · intro hidle
    rw [show s.running = false from hidle] at hrun
    cases hrun
  · intro l hl
    rw [groupCreated_live] at hl
    split at hl
    · rename_i heq
      exact ⟨hrun, congrArg some heq.symm, hdone⟩
    · exact absurd hl (h.not_live_of_creating hc l)
  · intro htold
    rw [show s.stopping from htold] at hstop
    cases hstop

lemma inv_stop (h : Inv s) (hc : s.calls c = .unmade) (hmay : s.MayStep (.stop c)) :
    Inv (s.stop c) := by
  unfold stop
  split
  · rename_i hrun
    have hnone : ∀ d, ({ s with stopping := true }.setCall c (.awaitingLoop s.loop)).calls d ≠
        .creating := setCall_ne_creating (by simp) hmay
    refine ⟨h.idle, ?_, fun d hd => absurd hd (hnone d), ?_, ?_⟩
    · intro l hl
      exact ⟨hrun, (h.live l hl).2.1, hnone⟩
    · intro d loop hd
      refine ⟨rfl, ?_, ?_⟩
      · intro _
        rw [setCall_eq] at hd
        split at hd
        · cases hd
          rfl
        · exact (h.awaiting d loop hd).2.1 hrun
      · intro hidle
        rw [show s.running = false from hidle] at hrun
        cases hrun
    · intro _ l hl
      refine ⟨c, ?_⟩
      rw [setCall_self, (h.live l hl).2.1]
  · refine inv_setCall h (by simp) (by simp) ?_
    intro l hl
    rw [hc] at hl
    cases hl

variable {t : WorkerState}

/-- Everything that the end of an `await loop` can do. -/
theorem loopAwaited_eq_some (h : s.loopAwaited c = some t) :
    ∃ loop, s.calls c = .awaitingLoop loop ∧ (∀ l, loop = some l → ¬ s.Live l) ∧
      ((∀ l, loop = some l → s.loops l = .ended) ∧ t = s.loopEnded c ∨
        t = s.setCall c .rejected) := by
  unfold loopAwaited at h
  split at h
  · rename_i hc
    exact ⟨none, hc, by simp, .inl ⟨by simp, (Option.some.inj h).symm⟩⟩
  · rename_i l hc
    refine ⟨some l, hc, ?_⟩
    split at h
    · rename_i hended
      refine ⟨?_, .inl ⟨?_, (Option.some.inj h).symm⟩⟩
      · rintro _ ⟨⟩
        simp [Live, hended, LoopState.isLive]
      · rintro _ ⟨⟩
        exact hended
    · rename_i hrej
      refine ⟨?_, .inr (Option.some.inj h).symm⟩
      rintro _ ⟨⟩
      simp [Live, hrej, LoopState.isLive]
    · cases h
  · cases h

lemma inv_loopAwaited (h : Inv s) (hstep : s.loopAwaited c = some t) : Inv t := by
  obtain ⟨loop, hc, hset, ⟨hended, rfl⟩ | rfl⟩ := loopAwaited_eq_some hstep
  · have hdead := h.not_live_of_settled hc hset
    refine ⟨fun _ => rfl, fun l hl => absurd hl (hdead l), ?_, ?_,
      fun _ l hl => absurd hl (hdead l)⟩
    · intro d hd
      rw [loopEnded, setCall_eq] at hd
      split at hd
      · cases hd
      · exact absurd hc ((h.creating d hd).2.2.2 c loop)
    · intro d other hd
      rw [loopEnded, setCall_eq] at hd
      split at hd
      · cases hd
      · obtain ⟨hstop, hsame, hidle⟩ := h.awaiting d other hd
        refine ⟨hstop, fun hrun => (by cases hrun), ?_⟩
        intro _ l hl
        cases hrun : s.running with
        | false => exact hidle hrun l hl
        | true =>
          exact hended l (((h.awaiting c loop hc).2.1 hrun).trans
            ((hsame hrun).symm.trans hl))
  · refine inv_setCall h (by simp) (by simp) ?_
    intro l hl
    exact h.not_live_of_settled hc hset l

lemma inv_step {action} (h : Inv s) (hmay : s.MayStep action) (hstep : s.step action = some t) :
    Inv t := by
  have hlive : ∀ l, s.loops l = .ticking ∨ s.loops l = .pausing → s.Live l := by
    rintro l (hl | hl) <;> simp [Live, hl, LoopState.isLive]
  cases action with
  | start c =>
    obtain ⟨hc, ⟨⟩⟩ := Option.ite_none_right_eq_some.mp hstep
    exact inv_start h hc hmay
  | groupCreated c =>
    obtain ⟨hc, ⟨⟩⟩ := Option.ite_none_right_eq_some.mp hstep
    exact inv_groupCreated h hc
  | groupFailed c =>
    obtain ⟨hc, ⟨⟩⟩ := Option.ite_none_right_eq_some.mp hstep
    exact inv_setCall h (by simp) (by simp) (fun l _ => h.not_live_of_creating hc l)
  | stop c =>
    obtain ⟨hc, ⟨⟩⟩ := Option.ite_none_right_eq_some.mp hstep
    exact inv_stop h hc hmay
  | loopAwaited c => exact inv_loopAwaited h hstep
  | retired c =>
    obtain ⟨hc, ⟨⟩⟩ := Option.ite_none_right_eq_some.mp hstep
    exact inv_setCall h (by simp) (by simp) (fun l hl => by rw [hc] at hl; cases hl)
  | ticked l completed =>
    obtain ⟨hl, ⟨⟩⟩ := Option.ite_none_right_eq_some.mp hstep
    unfold ticked
    split
    · exact inv_setLoop h (hlive l (.inl hl))
    · exact inv_setLoop h (hlive l (.inl hl))
  | tickRejected l =>
    obtain ⟨hl, ⟨⟩⟩ := Option.ite_none_right_eq_some.mp hstep
    exact inv_setLoop h (hlive l (.inl hl))
  | resumed l =>
    obtain ⟨hl, ⟨⟩⟩ := Option.ite_none_right_eq_some.mp hstep
    exact inv_setLoop h (hlive l (.inr hl))

end WorkerState

end BoilerplateExpress.Redis.StartStop

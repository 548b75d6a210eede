import BoilerplateExpress.Redis.WorkerLifecycle

/-!
# Handlers of one entry do not overlap

An entry is held by a worker from its delivery until the worker is done with it. Two
deliveries of one entry to different workers lie at least the `minIdleMs` of the later
worker apart. The idle clock starts when the batch is delivered, not when the handler of the
entry starts; so two handlers of one entry stay apart as long as each of them starts early
enough after the delivery of its batch.
-/
namespace BoilerplateExpress.Redis

def GroupState.held {ι : Type} (s : GroupState ι) (w : ι) : List (EntryId × ℕ) :=
  (s.workers w).phase.held

/-- The entry whose handler is in progress. -/
def WorkerPhase.handled : WorkerPhase → Option EntryId
  | .handling entry _ _ => some entry.id
  | _ => none

/-- No two workers have a handler of the same entry in progress. -/
def HandledOnce {ι : Type} (s : GroupState ι) : Prop :=
  ∀ v w, v ≠ w → ∀ id, (s.workers v).phase.handled = some id →
    (s.workers w).phase.handled ≠ some id

structure HeldInv {ι : Type} (options : ι → ResolvedOptions) (s : GroupState ι) : Prop where
  past : ∀ w id d, (id, d) ∈ s.held w → d ≤ s.now
  below : ∀ w id d, (id, d) ∈ s.held w → MemoryStream.atOrBelow s.stream.cursor id
  pending_below : ∀ id p, s.stream.pending.get id = some p →
    MemoryStream.atOrBelow s.stream.cursor id
  idle_since : ∀ w id d p, (id, d) ∈ s.held w → s.stream.pending.get id = some p →
    d ≤ p.deliveredAt
  apart : ∀ v w id d d', v ≠ w → (id, d) ∈ s.held v → (id, d') ∈ s.held w →
    d + (options w).minIdleMs ≤ d' ∨ d' + (options v).minIdleMs ≤ d

variable {ι : Type}

variable {options : ι → ResolvedOptions} {s : GroupState ι}

variable {stream : MemoryStream}

lemma held_setWorker [DecidableEq ι] (s : GroupState ι) (w v x) :
    (s.setWorker w x).held v = if v = w then x.phase.held else s.held v := by
  unfold GroupState.held GroupState.setWorker
  by_cases hv : v = w
  · subst hv
    simp
  · simp [hv]

variable {w : ι} {x : Worker}

lemma heldInv_setWorker [DecidableEq ι] (h : HeldInv options s)
    (hheld : ∀ y ∈ x.phase.held, y ∈ s.held w) : HeldInv options (s.setWorker w x) := by
  have hsub : ∀ v y, y ∈ (s.setWorker w x).held v → y ∈ s.held v := by
    intro v y hy
    rw [held_setWorker] at hy
    split_ifs at hy with hv
    · exact hv ▸ hheld y hy
    · exact hy
  constructor
  · exact fun v id d hd => h.past v id d (hsub v _ hd)
  · exact fun v id d hd => h.below v id d (hsub v _ hd)
  · exact h.pending_below
  · exact fun v id d p hd hp => h.idle_since v id d p (hsub v _ hd) hp
  · exact fun u v id d d' huv hd hd' => h.apart u v id d d' huv (hsub u _ hd) (hsub v _ hd')

lemma heldInv_take {consumer ids taken} [DecidableEq ι] (h : HeldInv options s)
    (hhands : MemoryStream.Hands s.now (options w).minIdleMs consumer ids s.stream stream taken)
    (hheld : x.phase.held = taken.map (fun e => (e.id, s.now))) :
    HeldInv options ({ s with stream := stream }.setWorker w x) := by
  have hcases : ∀ v id d, (id, d) ∈ ({ s with stream := stream }.setWorker w x).held v →
      (v = w ∧ d = s.now ∧ ∃ e ∈ taken, e.id = id) ∨ (v ≠ w ∧ (id, d) ∈ s.held v) := by
    intro v id d hd
    rw [held_setWorker] at hd
    split_ifs at hd with hv
    · rw [hheld] at hd
      obtain ⟨e, he, heq⟩ := List.mem_map.mp hd
      cases heq
      exact .inl ⟨hv, rfl, e, he, rfl⟩
    · exact .inr ⟨hv, hd⟩
  have htaken : ∀ e ∈ taken, MemoryStream.atOrBelow stream.cursor e.id := by
    intro e he
    obtain ⟨_, -, ⟨-, -, hbelow⟩ | ⟨-, p, hp, -⟩⟩ := hhands.given e he
    · exact hbelow
    · exact hhands.cursor e.id (h.pending_below e.id p hp)
  -- an entry that another worker holds is taken only once it has been idle
  have hidle : ∀ v id d, (id, d) ∈ s.held v → (∃ e ∈ taken, e.id = id) →
      d + (options w).minIdleMs ≤ s.now := by
    rintro v id d hd ⟨e, he, rfl⟩
    obtain ⟨_, -, ⟨-, habove, -⟩ | ⟨-, p, hp, hle, -⟩⟩ := hhands.given e he
    · exact absurd (h.below v e.id d hd) habove
    · have hsince := h.idle_since v e.id d p hd hp
      omega
  constructor
  · intro v id d hd
    rcases hcases v id d hd with ⟨_, hnow, _⟩ | ⟨_, hd⟩
    · exact le_of_eq hnow
    · exact h.past v id d hd
  · intro v id d hd
    rcases hcases v id d hd with ⟨_, _, e, he, rfl⟩ | ⟨_, hd⟩
    · exact htaken e he
    · exact hhands.cursor id (h.below v id d hd)
  · intro id p hp
    rcases hhands.pending hp with hp | ⟨_, e, he, rfl⟩
    · exact hhands.cursor id (h.pending_below id p hp)
    · exact htaken e he
  · intro v id d p hd hp
    rcases hcases v id d hd with ⟨_, hnow, e, he, rfl⟩ | ⟨_, hd⟩
    · obtain ⟨count, hget, -⟩ := hhands.given e he
      rw [hnow, ← Option.some.inj (hget.symm.trans hp)]
    · rcases hhands.pending hp with hp | ⟨hat, _⟩
      · exact h.idle_since v id d p hd hp
      · have hpast := h.past v id d hd
        omega
  · intro u v id d d' huv hd hd'
    rcases hcases u id d hd with ⟨hu, hnow, he⟩ | ⟨_, hd⟩ <;>
      rcases hcases v id d' hd' with ⟨hv, hnow', he'⟩ | ⟨_, hd'⟩
    · exact absurd (hu.trans hv.symm) huv
    · right
      rw [hu, hnow]
      exact hidle v id d' hd' he
    · left
      rw [hv, hnow']
      exact hidle u id d hd he'
    · exact h.apart u v id d d' huv hd hd'

/-- The next entry of the batch goes to the handler. -/
def Batch.startsHandler {E : Type} (decode : StreamEntry → Except Text E) (batch : Batch) :
    Bool :=
  match batch.entries with
  | [] => false
  | entry :: _ => (decode entry).isOk

/-- The batch whose next entry is to be taken up. -/
def WorkerPhase.upNext : WorkerPhase → Option Batch
  | .processing batch => some batch
  | _ => none

/-- A handler that starts now ends before any other worker may claim its entry. -/
def StartsInTime {ι E : Type} (decode : StreamEntry → Except Text E)
    (options : ι → ResolvedOptions) (s : GroupState ι) : GroupAction ι → Prop
  | .next w => ∀ batch ∈ (s.workers w).phase.upNext, batch.startsHandler decode = true →
      ∀ v, v ≠ w →
        s.now + (options w).handlerTimeoutMs < batch.deliveredAt + (options v).minIdleMs
  | _ => True

instance {ι E : Type} [Fintype ι] [DecidableEq ι] (decode : StreamEntry → Except Text E)
    (options : ι → ResolvedOptions) (s : GroupState ι) (a) :
    Decidable (StartsInTime decode options s a) := by
  cases a <;> dsimp only [StartsInTime] <;> infer_instance

/-- What `StartsInTime` has established for the handlers in progress. -/
def RunInv {ι : Type} (options : ι → ResolvedOptions) (s : GroupState ι) : Prop :=
  ∀ w e startedAt batch, (s.workers w).phase = .handling e startedAt batch →
    s.now ≤ startedAt + (options w).handlerTimeoutMs ∧
      ∀ v, v ≠ w → startedAt + (options w).handlerTimeoutMs <
        batch.deliveredAt + (options v).minIdleMs

structure GroupInv {ι : Type} (options : ι → ResolvedOptions) (s : GroupState ι) : Prop where
  held : HeldInv options s
  running : RunInv options s

lemma handled_eq_some {phase : WorkerPhase} {id} (h : phase.handled = some id) :
    ∃ e startedAt batch, phase = .handling e startedAt batch ∧ e.id = id := by
  cases phase with
  | handling e startedAt batch => exact ⟨e, startedAt, batch, rfl, Option.some.inj h⟩
  | _ => cases h

/-- Of two handlers of one entry, the earlier has ended before the later delivery. -/
lemma handledOnce_of_inv (h : GroupInv options s) : HandledOnce s := by
  intro v w hvw id hid hid'
  obtain ⟨e, startedAt, batch, hv, he⟩ := handled_eq_some hid
  obtain ⟨e', startedAt', batch', hw, he'⟩ := handled_eq_some hid'
  have hheld : (id, batch.deliveredAt) ∈ s.held v := by
    simp [GroupState.held, hv, WorkerPhase.held, he]
  have hheld' : (id, batch'.deliveredAt) ∈ s.held w := by
    simp [GroupState.held, hw, WorkerPhase.held, he']
  obtain ⟨hnow, htime⟩ := h.running v e startedAt batch hv
  obtain ⟨hnow', htime'⟩ := h.running w e' startedAt' batch' hw
  have hpast := h.held.past v id batch.deliveredAt hheld
  have hpast' := h.held.past w id batch'.deliveredAt hheld'
  rcases h.held.apart v w id _ _ hvw hheld hheld' with hle | hle
  · have hearly := htime w (Ne.symm hvw)
    omega
  · have hearly := htime' v hvw
    omega

lemma runInv_setWorker [DecidableEq ι] (h : RunInv options s) (stream)
    (hx : x.phase.startedAt = none) :
    RunInv options ({ s with stream := stream }.setWorker w x) := by
  intro v e startedAt batch hv
  by_cases hvw : v = w
  · subst hvw
    have hph : x.phase = .handling e startedAt batch := by simpa using hv
    rw [hph] at hx
    cases hx
  · have hph : (s.workers v).phase = .handling e startedAt batch := by
      simpa [GroupState.setWorker, hvw] using hv
    exact h v e startedAt batch hph

/-- A worker that stops handling an entry, or goes on without one. -/
lemma groupInv_setWorker [DecidableEq ι] (h : GroupInv options s)
    (hheld : ∀ y ∈ x.phase.held, y ∈ s.held w) (hx : x.phase.startedAt = none) :
    GroupInv options (s.setWorker w x) :=
  ⟨heldInv_setWorker h.held hheld, runInv_setWorker h.running s.stream hx⟩

lemma groupInv_emptyHanded [DecidableEq ι] (h : GroupInv options s) (hx : x.phase.EmptyHanded) :
    GroupInv options (s.setWorker w x) := groupInv_setWorker h (by simp [hx.held]) hx.startedAt

lemma groupInv_take {batch consumer ids} [DecidableEq ι] (h : GroupInv options s)
    (hx : x.phase = .processing batch) (hat : batch.deliveredAt = s.now)
    (hhands : MemoryStream.Hands s.now (options w).minIdleMs consumer ids s.stream stream
      batch.entries) : GroupInv options ({ s with stream := stream }.setWorker w x) := by
  constructor
  · apply heldInv_take h.held hhands
    simp [hx, WorkerPhase.held, Batch.held, hat]
  · exact runInv_setWorker h.running stream (by rw [hx]; rfl)

lemma groupInv_next {E batch} [DecidableEq ι] {decode : StreamEntry → Except Text E}
    (h : GroupInv options s) (hph : (s.workers w).phase = .processing batch)
    (hguard : StartsInTime decode options s (.next w)) :
    GroupInv options (s.setPhase w (Worker.next decode s.now batch)) := by
  have hheld : s.held w = batch.held := by simp [GroupState.held, hph, WorkerPhase.held]
  have hguard := hguard batch (by simp [hph, WorkerPhase.upNext])
  cases hents : batch.entries with
  | nil => exact groupInv_emptyHanded h (emptyHanded_next decode s.now hents)
  | cons entry rest =>
    have hall : ∀ y ∈ (entry.id, batch.deliveredAt) ::
        ({ batch with entries := rest } : Batch).held, y ∈ s.held w := by
      intro y hy
      rw [hheld, Batch.held, hents]
      exact hy
    simp only [Worker.next, hents]
    cases hdec : decode entry with
    | error error =>
      apply groupInv_setWorker h
      · exact fun y hy => hall y (List.mem_cons_of_mem _ hy)
      · rfl
    | ok envelope =>
      constructor
      · exact heldInv_setWorker h.held hall
      · intro v e startedAt batch' hv
        by_cases hvw : v = w
        · subst hvw
          have heq : WorkerPhase.handling entry s.now { batch with entries := rest } =
              .handling e startedAt batch' := by simpa [GroupState.setPhase] using hv
          cases heq
          refine ⟨Nat.le_add_right _ _, ?_⟩
          apply hguard
          simp [Batch.startsHandler, hents, hdec, Except.toBool]
        · have hph : (s.workers v).phase = .handling e startedAt batch' := by
            simpa [GroupState.setPhase, GroupState.setWorker, hvw] using hv
          exact h.running v e startedAt batch' hph

lemma groupInv_advance {ms} (h : GroupInv options s) (hmay : s.mayAdvance options ms) :
    GroupInv options { s with now := s.now + ms } := by
  have hpast (w : ι) (id : EntryId) (d : ℕ) (hd : (id, d) ∈ s.held w) : d ≤ s.now + ms :=
    (h.held.past w id d hd).trans (Nat.le_add_right _ _)
  refine ⟨⟨hpast, h.held.below, h.held.pending_below, h.held.idle_since, h.held.apart⟩, ?_⟩
  intro w e startedAt batch hw
  refine ⟨?_, (h.running w e startedAt batch hw).2⟩
  have hph : (s.workers w).phase = .handling e startedAt batch := hw
  exact hmay w startedAt (by simp [hph, WorkerPhase.startedAt])

lemma groupInv_stream (h : GroupInv options s) (hcurs : stream.cursor = s.stream.cursor)
    (hpend : ∀ id p, stream.pending.get id = some p → s.stream.pending.get id = some p) :
    GroupInv options { s with stream := stream } := by
  refine ⟨⟨h.held.past, ?_, ?_, ?_, h.held.apart⟩, h.running⟩
  · exact hcurs ▸ h.held.below
  · exact fun id p hp => hcurs ▸ h.held.pending_below id p (hpend id p hp)
  · exact fun w id d p hd hp => h.held.idle_since w id d p hd (hpend id p hp)

lemma groupInv_turn {E a t} [DecidableEq ι] {decode : StreamEntry → Except Text E}
    (h : GroupInv options s) (hguard : StartsInTime decode options s a)
    (hturn : s.Turn decode options w a t) : GroupInv options t := by
  cases hturn with
  | lists phase hemp => exact groupInv_emptyHanded h hemp
  | reads u batch x hx htaken hat hhands => exact groupInv_take h hx hat hhands
  | claims u batch x ids hx htaken hat hhands => exact groupInv_take h hx hat hhands
  | takesUp batch hph => exact groupInv_next h hph hguard
  | resolves entry startedAt batch hph =>
    refine groupInv_setWorker h ?_ rfl
    intro y hy
    rw [GroupState.held, hph]
    exact List.mem_cons_of_mem _ hy
  | rejects entry startedAt batch error hph =>
    obtain ⟨-, -, hheld, hstar⟩ := reject_remaining (options w) (s.workers w) entry batch error
    refine groupInv_setWorker h ?_ hstar
    intro y hy
    rw [hheld] at hy
    rw [GroupState.held, hph]
    exact List.mem_cons_of_mem _ hy
  | acks id batch x hx hacks hrem hheld =>
    refine groupInv_setWorker (groupInv_stream h rfl ?_) ?_ (by rw [hx]; rfl)
    · exact fun j p hp => (OrderedMap.get_delete_eq_some.mp hp).2
    · intro y hy
      rw [GroupState.held, hheld]
      rwa [hx] at hy
  | parks parked batch hph =>
    refine groupInv_setWorker h ?_ rfl
    intro y hy
    rw [GroupState.held, hph]
    exact hy

lemma groupInv_step {E} [Fintype ι] [DecidableEq ι] (decode : StreamEntry → Except Text E)
    (options s a) (t : GroupState ι) (h : GroupInv options s)
    (hguard : StartsInTime decode options s a) (ht : stepGroup decode options s a = some t) :
    GroupInv options t := by
  cases hturn : a.turnOf with
  | some w => exact groupInv_turn h hguard (GroupState.turn_of_stepGroup hturn ht)
  | none =>
    cases a with
    | advance ms =>
      simp only [stepGroup] at ht
      split_ifs at ht with hmay
      cases ht
      exact groupInv_advance h hmay
    | append fields maxLen =>
      simp only [stepGroup, Option.some.injEq] at ht
      subst ht
      exact groupInv_stream h rfl (fun _ _ hp => hp)
    | tick w reading =>
      simp only [stepGroup] at ht
      split at ht
      · cases ht
        exact groupInv_emptyHanded h (emptyHanded_tick _ _ _)
      · cases ht
    | runOnce w shouldReclaim =>
      simp only [stepGroup] at ht
      split at ht
      · cases ht
        exact groupInv_emptyHanded h (emptyHanded_startTick _ _)
      · cases ht
    | fail w =>
      simp only [stepGroup] at ht
      split at ht
      all_goals first
        | (cases ht; exact groupInv_emptyHanded h ⟨rfl, rfl, rfl⟩)
        | cases ht
    | _ => cases hturn

/-- In every run whose handlers all start in time, no entry is handled by two workers at
the same time. -/
theorem handlers_apart_when_started_in_time {ι E : Type} [Fintype ι] [DecidableEq ι]
    (decode : StreamEntry → Except Text E) (options : ι → ResolvedOptions)
    (entries : List StreamEntry) (sequence : ℕ) (fromStart : Bool) (as : List (GroupAction ι))
    (s : GroupState ι)
    (hguard : Machine.Guarded (stepGroup decode options) (StartsInTime decode options)
      (.start (MemoryStream.createGroup entries sequence fromStart)) as)
    (hexec : Machine.exec (stepGroup decode options)
      (.start (MemoryStream.createGroup entries sequence fromStart)) as = some s) :
    HandledOnce s := by
  have hinv : GroupInv options s := by
    apply Machine.exec_invariant_of_guarded (GroupInv options) ?_ ?_ hguard hexec
    · exact groupInv_step decode options
    · refine ⟨?_, fun _ _ _ _ => nofun⟩
      constructor <;>
        simp [GroupState.start, GroupState.held, WorkerPhase.held, MemoryStream.createGroup]
  exact handledOnce_of_inv hinv

def pairConsumer (w : Bool) : Text := if w then ['b'] else ['a']

/-- Two workers that set none of their numbers. -/
def pairOptions (w : Bool) : ResolvedOptions := defaultOptions (pairConsumer w)

/-- One worker fails on an entry; the other claims it when it has been idle and handles
it again. -/
def retryRun : List (GroupAction Bool) :=
  [.append [] none, .runOnce false false, .readGroup false, .next false, .reject false [],
    .advance 30000, .runOnce true true, .pendingEntries true, .claim true, .next true]

theorem handlers_apart_on_retry :
    ∃ s, Machine.exec (stepGroup (fun _ => (.ok () : Except Text Unit)) pairOptions)
        (.start (MemoryStream.createGroup [] 0 false)) retryRun = some s ∧
      (s.workers true).phase.handled = some ⟨0, 1⟩ ∧ HandledOnce s := by
  refine Machine.exists_of_seen (fun s => (s.workers true).phase.handled) (some ⟨0, 1⟩)
    (by decide +kernel) ?_
  intro s hexec hhandled
  refine ⟨hhandled, ?_⟩
  exact handlers_apart_when_started_in_time _ pairOptions [] 0 false retryRun s
    (by decide +kernel) hexec

/-- Four entries in one batch, each handled for ten seconds. The fourth handler starts
thirty seconds after the delivery, when the other worker may claim its entry. -/
def slowBatchRun : List (GroupAction Bool) :=
  [.append [] none, .append [] none, .append [] none, .append [] none,
    .runOnce false false, .readGroup false,
    .next false, .advance 10000, .resolve false, .ack false,
    .next false, .advance 10000, .resolve false, .ack false,
    .next false, .advance 10000, .resolve false, .ack false,
    .next false,
    .runOnce true true, .pendingEntries true, .claim true, .next true]

theorem slow_batch_handled_twice :
    (∀ w, resolveOptions { key := ['s'], group := ['g'], consumer := pairConsumer w } =
        .ok (pairOptions w)) ∧
      ∃ s, Machine.exec (stepGroup (fun _ => (.ok () : Except Text Unit)) pairOptions)
          (.start (MemoryStream.createGroup [] 0 false)) slowBatchRun = some s ∧
        ¬ HandledOnce s := by
  refine ⟨fun w => resolveOptions_default (by cases w <;> decide), ?_⟩
  refine Machine.exists_of_seen
    (fun s => ((s.workers false).phase.handled, (s.workers true).phase.handled))
    (some ⟨0, 4⟩, some ⟨0, 4⟩) (by decide +kernel) ?_
  intro s _ hhandled honce
  obtain ⟨hfirst, hsecond⟩ := Prod.mk.inj hhandled
  exact honce false true (by decide) ⟨0, 4⟩ hfirst hsecond

end BoilerplateExpress.Redis

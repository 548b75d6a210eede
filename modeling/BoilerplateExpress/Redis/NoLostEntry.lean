import BoilerplateExpress.Redis.WorkerLifecycle

/-!
# Delivered entries are not lost

An entry leaves the pending list by an acknowledgement, which follows a handler or an `onPark`
that resolved; by a claim that finds it trimmed; or with its consumer. `stop` deletes the
consumer once `consumerPendingCount` has answered zero, but the answer and the deletion are
two commands, and a tick of the same worker may take entries between them.
-/
namespace BoilerplateExpress.Redis

open List

namespace Deployment

variable {κ ι E : Type}

/-- An entry that was delivered is pending, done with, or trimmed. -/
def NothingLost (s : Deployment κ ι) : Prop :=
  ∀ id ∈ s.history.delivered, (∃ p, s.group.stream.pending.get id = some p) ∨
    id ∈ s.history.finished ∨ ∀ e ∈ s.group.stream.entries, e.id ≠ id

/-- The thread whose command hands out entries. -/
def taker : GroupAction ι → Option ι
  | .readGroup w => some w
  | .claim w => some w
  | _ => none

def tickStep : DeploymentAction κ ι → Option (GroupAction ι)
  | .turn action => some action
  | _ => none

/-- No tick takes entries for a worker while a `stop` of the worker is about to delete its
consumer. -/
def NotRetiring [Fintype ι] [DecidableEq κ] (owner : ι → κ) (options : κ → ResolvedOptions)
    (s : Deployment κ ι) (action : DeploymentAction κ ι) : Prop :=
  ∀ a ∈ tickStep action, ∀ w ∈ taker a, s.group.handedOut (options ∘ owner) a ≠ [] →
    ∀ v, owner v = owner w → s.activity v ≠ .deleting

instance [Fintype ι] [DecidableEq ι] [DecidableEq κ] (owner : ι → κ) (options) (s) (action) :
    Decidable (NotRetiring owner options s action) := by
  unfold NotRetiring
  infer_instance

structure LossInv (owner : ι → κ) (options : κ → ResolvedOptions) (s : Deployment κ ι) : Prop where
  numbered : ∀ e ∈ s.group.stream.entries, e.id.seq ≤ s.group.stream.sequence
  delivered_numbered : ∀ id ∈ s.history.delivered, id.seq ≤ s.group.stream.sequence
  nothing_lost : s.NothingLost
  acks_finished : ∀ w, ∀ id ∈ (s.group.workers w).phase.acks, id ∈ s.history.finished
  retiring : ∀ v, s.activity v = .deleting → ∀ id p, s.group.stream.pending.get id = some p →
    p.consumer ≠ (options (owner v)).consumer

variable {owner : ι → κ} {options : κ → ResolvedOptions} {decode : StreamEntry → Except Text E}

variable {s : Deployment κ ι}

lemma lossInv_quiet {t} (h : LossInv owner options s) (ht : Quiet s t) : LossInv owner options
    t := by
  obtain ⟨hstream, hhistory, hworkers, hdeleting⟩ := ht
  refine ⟨?_, ?_, ?_, ?_, ?_⟩
  · rw [hstream]
    exact h.numbered
  · rw [hstream, hhistory]
    exact h.delivered_numbered
  · unfold NothingLost
    rw [hstream, hhistory]
    exact h.nothing_lost
  · intro w id hid
    rw [hhistory]
    rcases hworkers w with hsame | hempty
    · exact h.acks_finished w id (hsame ▸ hid)
    · rw [hempty.acks] at hid
      cases hid
  · intro v hv
    rw [hstream]
    exact h.retiring v (hdeleting v hv)

/-- A new entry has a number of its own, so a trimmed entry does not come back. -/
lemma lossInv_append (h : LossInv owner options s) (fields maxLen) :
    LossInv owner options (s.setStream (s.group.stream.append s.group.now fields maxLen)) := by
  have hents : ∀ e ∈ (s.group.stream.append s.group.now fields maxLen).entries,
      e ∈ s.group.stream.entries ∨ e.id.seq = s.group.stream.sequence + 1 := by
    intro e he
    have hmem := mem_of_mem_drop he
    rcases mem_append.mp hmem with hold | hnew
    · exact .inl hold
    · rw [mem_singleton.mp hnew]
      exact .inr rfl
  refine ⟨?_, ?_, ?_, h.acks_finished, h.retiring⟩
  · intro e he
    show e.id.seq ≤ s.group.stream.sequence + 1
    rcases hents e he with hold | hnew
    · have := h.numbered e hold
      omega
    · omega
  · intro id hid
    show id.seq ≤ s.group.stream.sequence + 1
    have := h.delivered_numbered id hid
    omega
  · intro id hid
    rcases h.nothing_lost id hid with hpend | hfin | hgone
    · exact .inl hpend
    · exact .inr (.inl hfin)
    · right
      right
      intro e he heid
      rcases hents e he with hold | hnew
      · exact hgone e hold heid
      · have := h.delivered_numbered id hid
        rw [← heid] at this
        omega

variable {w : ι}

lemma lossInv_counts [DecidableEq ι] (h : LossInv owner options s)
    (hzero : s.group.stream.consumerPendingCount (options (owner w)).consumer = 0) :
    LossInv owner options (s.setActivity w .deleting) := by
  refine ⟨h.numbered, h.delivered_numbered, h.nothing_lost, h.acks_finished, ?_⟩
  intro v hv
  by_cases hvw : v = w
  · subst hvw
    exact MemoryStream.of_consumerPendingCount_eq_zero hzero
  · exact h.retiring v (by simpa [setActivity, hvw] using hv)

/-- Nothing is pending on a consumer that is being deleted. -/
lemma pending_deleteConsumer (h : LossInv owner options s) (hdel : s.activity w = .deleting)
    (id) :
    (s.group.stream.deleteConsumer (options (owner w)).consumer).pending.get id =
      s.group.stream.pending.get id :=
  MemoryStream.deleteConsumer_pending (h.retiring w hdel) id

lemma lossInv_deletes [DecidableEq ι] (h : LossInv owner options s)
    (hdel : s.activity w = .deleting) :
    LossInv owner options
      ((s.setStream (s.group.stream.deleteConsumer (options (owner w)).consumer)).setActivity
        w .free) := by
  have hpend := pending_deleteConsumer h hdel
  refine lossInv_quiet ?_ (quiet_setActivity _ w nofun)
  refine ⟨h.numbered, h.delivered_numbered, ?_, h.acks_finished, ?_⟩
  · intro id hid
    refine (h.nothing_lost id hid).imp_left ?_
    rintro ⟨p, hp⟩
    exact ⟨p, (hpend id).trans hp⟩
  · intro v hv id p hp
    exact h.retiring v hv id p ((hpend id).symm.trans hp)

variable [DecidableEq ι]

variable {x : Worker}

/-- A step of one worker that leaves the stream alone and acknowledges nothing that is not
done with. -/
lemma lossInv_local (h : LossInv owner options s) {history}
    (hdel : history.delivered = s.history.delivered)
    (hfin : ∀ id ∈ s.history.finished, id ∈ history.finished)
    (hacks : ∀ id ∈ x.phase.acks, id ∈ history.finished) :
    LossInv owner options { s with group := s.group.setWorker w x, history := history } := by
  refine ⟨h.numbered, ?_, ?_, ?_, h.retiring⟩
  · rw [hdel]
    exact h.delivered_numbered
  · intro id hid
    rw [hdel] at hid
    rcases h.nothing_lost id hid with hpend | hdone | hgone
    · exact .inl hpend
    · exact .inr (.inl (hfin id hdone))
    · exact .inr (.inr hgone)
  · intro v id hid
    by_cases hvw : v = w
    · subst hvw
      rw [GroupState.setWorker_self] at hid
      exact hacks id hid
    · rw [GroupState.setWorker_of_ne _ _ hvw] at hid
      exact hfin id (h.acks_finished v id hid)

/-- A command hands out entries; no `stop` that is about to delete the consumer is affected. -/
lemma lossInv_deliver {batch minIdleMs ids u} (h : LossInv owner options s)
    (hnames : Function.Injective fun k => (options k).consumer) (hx : x.phase = .processing batch)
    (hhands : MemoryStream.Hands s.group.now minIdleMs (options (owner w)).consumer ids
      s.group.stream u batch.entries)
    (hok : batch.entries ≠ [] → ∀ v, owner v = owner w → s.activity v ≠ .deleting) :
    LossInv owner options { s with
      group := { s.group with stream := u }.setWorker w x
      history := s.history.deliver ({ s.group with stream := u }.setWorker w x) w } := by
  have hdel : (s.history.deliver ({ s.group with stream := u }.setWorker w x) w).delivered =
      batch.entries.map StreamEntry.id ++ s.history.delivered := by
    simp [History.deliver, hx, WorkerPhase.batch]
  refine ⟨?_, ?_, ?_, ?_, ?_⟩
  · show ∀ e ∈ u.entries, e.id.seq ≤ u.sequence
    rw [hhands.entries, hhands.sequence]
    exact h.numbered
  · show ∀ id ∈ _, EntryId.seq id ≤ u.sequence
    rw [hdel, hhands.sequence]
    intro id hid
    rcases mem_append.mp hid with hnew | hold
    · obtain ⟨e, he, rfl⟩ := mem_map.mp hnew
      exact h.numbered e (hhands.taken_mem e he)
    · exact h.delivered_numbered id hold
  · intro id hid
    rw [hdel] at hid
    show (∃ p, u.pending.get id = some p) ∨ id ∈ s.history.finished ∨ ∀ e ∈ u.entries, e.id ≠ id
    rw [hhands.entries]
    by_cases hin : ∃ e ∈ batch.entries, e.id = id
    · obtain ⟨e, he, rfl⟩ := hin
      obtain ⟨count, hget, _⟩ := hhands.given e he
      exact .inl ⟨_, hget⟩
    · have hnot : ∀ e ∈ batch.entries, e.id ≠ id := fun e he heid => hin ⟨e, he, heid⟩
      have hold : id ∈ s.history.delivered := by
        rcases mem_append.mp hid with hnew | hold
        · obtain ⟨e, he, heid⟩ := mem_map.mp hnew
          exact absurd heid (hnot e he)
        · exact hold
      rcases hhands.kept id hnot with hsame | ⟨_, hgone⟩
      · rw [hsame]
        exact h.nothing_lost id hold
      · exact .inr (.inr hgone)
  · intro v id hid
    by_cases hvw : v = w
    · subst hvw
      rw [GroupState.setWorker_self, hx] at hid
      cases hid
    · rw [GroupState.setWorker_of_ne _ _ hvw] at hid
      exact h.acks_finished v id hid
  · intro v hv id p hp
    by_cases hin : ∃ e ∈ batch.entries, e.id = id
    · obtain ⟨e, he, rfl⟩ := hin
      obtain ⟨count, hget, _⟩ := hhands.given e he
      have hpc : p.consumer = (options (owner w)).consumer := by
        rw [← Option.some.inj (hget.symm.trans hp)]
      rw [hpc]
      intro hsame
      exact hok (ne_nil_of_mem he) v (hnames hsame.symm) hv
    · have hnot : ∀ e ∈ batch.entries, e.id ≠ id := fun e he heid => hin ⟨e, he, heid⟩
      rcases hhands.kept id hnot with hsame | ⟨hnone, _⟩
      · exact h.retiring v hv id p (hsame.symm.trans hp)
      · have hsome : u.pending.get id = some p := hp
        rw [hnone] at hsome
        cases hsome

lemma lossInv_ack {batch} (h : LossInv owner options s) {id} (hx : x.phase = .processing batch)
    (hacks : (s.group.workers w).phase.acks = some id) :
    LossInv owner options
      { s with group := { s.group with stream := s.group.stream.ack id }.setWorker w x } := by
  have hfin : id ∈ s.history.finished := h.acks_finished w id hacks
  refine ⟨h.numbered, h.delivered_numbered, ?_, ?_, ?_⟩
  · intro j hj
    rcases h.nothing_lost j hj with ⟨p, hp⟩ | hdone | hgone
    · by_cases hjid : j = id
      · exact .inr (.inl (hjid ▸ hfin))
      · exact .inl ⟨p, OrderedMap.get_delete_eq_some.mpr ⟨hjid, hp⟩⟩
    · exact .inr (.inl hdone)
    · exact .inr (.inr hgone)
  · intro v j hj
    by_cases hvw : v = w
    · subst hvw
      rw [GroupState.setWorker_self, hx] at hj
      cases hj
    · rw [GroupState.setWorker_of_ne _ _ hvw] at hj
      exact h.acks_finished v j hj
  · intro v hv j p hp
    exact h.retiring v hv j p (OrderedMap.get_delete_eq_some.mp hp).2

variable [Fintype ι] [DecidableEq κ]

lemma lossInv_turn {action} {group} (hnames : Function.Injective fun k => (options k).consumer)
    (h : LossInv owner options s) (hok : NotRetiring owner options s (.turn action))
    (ht : GroupState.Turn decode (options ∘ owner) s.group w action group) :
    LossInv owner options { s with
      group := group
      history := s.history.record (options ∘ owner) s.group group action } := by
  cases ht with
  | lists phase hemp =>
    refine lossInv_local h rfl (fun _ hid => hid) ?_
    rw [hemp.acks]
    exact nofun
  | reads u batch x hx htaken hat hhands =>
    refine lossInv_deliver h hnames hx hhands ?_
    rw [htaken]
    exact hok _ rfl w rfl
  | claims u batch x ids hx htaken hat hhands =>
    refine lossInv_deliver h hnames hx hhands ?_
    rw [htaken]
    exact hok _ rfl w rfl
  | takesUp batch hph =>
    have hacks : (Worker.next decode s.group.now batch).acks = none := by
      cases hents : batch.entries with
      | nil => exact (emptyHanded_next decode s.group.now hents).acks
      | cons e rest => exact (next_takesUp decode s.group.now hents).2.1
    refine lossInv_local h ?_ ?_ ?_
    · simp only [History.record]
      split <;> rfl
    · simp only [History.record]
      split <;> exact fun _ hid => hid
    · rw [hacks]
      exact nofun
  | resolves entry startedAt batch hph =>
    have hhis : s.history.record (options ∘ owner) s.group
        (s.group.setPhase w (.acking entry batch)) (.resolve w) =
        { s.history with finished := entry.id :: s.history.finished } := by
      simp [History.record, hph]
    rw [hhis]
    refine lossInv_local h rfl (fun _ hid => mem_cons_of_mem _ hid) ?_
    rintro id ⟨⟩
    exact mem_cons_self
  | rejects entry startedAt batch error hph =>
    refine lossInv_local h rfl (fun _ hid => hid) ?_
    rw [(reject_remaining _ _ entry batch error).2.1]
    exact nofun
  | acks id batch x hx hacks hrem hheld => exact lossInv_ack h hx hacks
  | parks parked batch hph =>
    have hhis : s.history.record (options ∘ owner) s.group
        (s.group.setPhase w (.parkAcking parked batch)) (.parked w) =
        { s.history with finished := parked.entry.id :: s.history.finished } := by
      simp [History.record, hph]
    rw [hhis]
    refine lossInv_local h rfl (fun _ hid => mem_cons_of_mem _ hid) ?_
    rintro id ⟨⟩
    exact mem_cons_self

lemma lossInv_step {action t} (hnames : Function.Injective fun k => (options k).consumer)
    (h : LossInv owner options s) (hok : NotRetiring owner options s action)
    (hstep : s.step owner options decode action = some t) : LossInv owner options t := by
  cases effect_of_step hstep with
  | quiet hquiet => exact lossInv_quiet h hquiet
  | appends fields maxLen => exact lossInv_append h fields maxLen
  | turns w action group hturn => exact lossInv_turn hnames h hok hturn
  | counts w hzero => exact lossInv_counts h hzero
  | deletes w hdel => exact lossInv_deletes h hdel

end Deployment

open Deployment in
/-- In every run in which no tick takes entries for a worker between the count and the
deletion of a `stop` of that worker, no entry is lost, and retiring a consumer leaves the
pending list as it is. -/
theorem no_entry_lost_when_not_retiring {κ ι E : Type} [DecidableEq κ] [DecidableEq ι] [Fintype ι]
    (owner : ι → κ) (options : κ → ResolvedOptions) (decode : StreamEntry → Except Text E)
    (hnames : Function.Injective fun k => (options k).consumer)
    (entries : List StreamEntry) (sequence : ℕ) (fromStart : Bool)
    (hids : ∀ e ∈ entries, e.id.seq ≤ sequence)
    (run : List (DeploymentAction κ ι)) (s : Deployment κ ι)
    (hok : Machine.Guarded (step owner options decode) (NotRetiring owner options)
      (init (MemoryStream.createGroup entries sequence fromStart)) run)
    (hexec : Machine.exec (step owner options decode)
      (init (MemoryStream.createGroup entries sequence fromStart)) run = some s) :
    s.NothingLost ∧ ∀ w t, s.step owner options decode (.deleteConsumer w) = some t →
      ∀ id, t.group.stream.pending.get id = s.group.stream.pending.get id := by
  have hinv : LossInv owner options s := by
    refine Machine.exec_invariant_of_guarded (LossInv owner options) ?_ ?_ hok hexec
    · exact fun _ _ _ hs hguard hstep => lossInv_step hnames hs hguard hstep
    · exact ⟨hids, fun _ => nofun, fun _ => nofun, fun _ _ => nofun, fun _ => nofun⟩
  refine ⟨hinv.nothing_lost, ?_⟩
  intro w t hstep id
  simp only [step] at hstep
  split_ifs at hstep with hdel
  cases hstep
  exact pending_deleteConsumer hinv hdel id

/-- A worker is started and stopped; its count has just answered zero. -/
def stopRun : List (DeploymentAction Unit Bool) :=
  [.start false, .started false 0, .turn (.pendingEntries false), .turn (.readGroup false),
    .turn (.next false), .stop true, .ticked false 0, .loopEnded true, .countPending true]

/-- An entry arrives, the worker is started again and hands it to its handler. -/
def restartRun : List (DeploymentAction Unit Bool) :=
  [.append [] none, .start false, .started false 0, .turn (.readGroup false), .turn (.next false)]

open Deployment in
theorem no_entry_lost_on_restart :
    ∃ s, Machine.exec (step (fun _ => ()) (fun _ => defaultOptions ['a'])
        (fun _ => (.ok () : Except Text Unit))) (init (MemoryStream.createGroup [] 0 false))
        (stopRun ++ .deleteConsumer true :: restartRun) = some s ∧
      s.history.delivered = [⟨0, 1⟩] ∧ s.NothingLost := by
  refine Machine.exists_of_seen (fun s => s.history.delivered) [⟨0, 1⟩] (by decide +kernel) ?_
  intro s hexec hdelivered
  refine ⟨hdelivered, ?_⟩
  exact (no_entry_lost_when_not_retiring _ _ _ (fun _ _ _ => rfl) [] 0 false nofun
    (stopRun ++ .deleteConsumer true :: restartRun) s (by decide +kernel) hexec).1

open Deployment in
/-- The worker is started again before its `stop` has finished. The deletion drops the entry
while its handler is in progress. -/
theorem entry_lost_by_stop :
    resolveOptions { key := ['s'], group := ['g'], consumer := ['a'] } =
        .ok (defaultOptions ['a']) ∧
      ∃ s, Machine.exec (step (fun _ => ()) (fun _ => defaultOptions ['a'])
          (fun _ => (.ok () : Except Text Unit))) (init (MemoryStream.createGroup [] 0 false))
          (stopRun ++ restartRun ++ [.deleteConsumer true]) = some s ∧
        ¬ s.NothingLost := by
  refine ⟨resolveOptions_default (by decide), ?_⟩
  refine Machine.exists_of_seen (fun s => (s.history.delivered, s.history.finished,
    s.group.stream.pending.get ⟨0, 1⟩, s.group.stream.entries))
    ([⟨0, 1⟩], [], none, [⟨⟨0, 1⟩, []⟩]) (by decide +kernel) ?_
  intro s _ hlost hnot
  simp only [Prod.mk.injEq] at hlost
  obtain ⟨hdel, hfin, hpend, hents⟩ := hlost
  rcases hnot ⟨0, 1⟩ (by rw [hdel]; exact mem_singleton_self _) with
    ⟨p, hp⟩ | hdone | hgone
  · rw [hpend] at hp
    cases hp
  · rw [hfin] at hdone
    cases hdone
  · refine hgone ⟨⟨0, 1⟩, []⟩ ?_ rfl
    rw [hents]
    exact mem_singleton_self _

end BoilerplateExpress.Redis

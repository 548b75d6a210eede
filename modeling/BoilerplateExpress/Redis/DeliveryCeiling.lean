import BoilerplateExpress.Redis.WorkerLifecycle

/-!
# The delivery ceiling

`processEntries` compares the delivery count of an entry with `maxDeliveries` only after its
handler has failed. An entry at the ceiling whose handler takes the process down, whose
parking fails, or whose turn in the batch comes too late stays pending, is claimed once more
and handled once more. The ceiling holds in the runs in which no claim takes an entry that
has had all its deliveries.
-/
namespace BoilerplateExpress.Redis

namespace Deployment

/-- An entry beyond the ceiling is parked, never handled. -/
def CeilingKept {κ ι : Type} (s : Deployment κ ι) : Prop :=
  ∀ x ∈ s.history.taken, x.maxDeliveries < x.deliveryCount → x.parked = true

variable {κ ι E : Type}

/-- The thread whose `XCLAIM` is taken. -/
def claimer : DeploymentAction κ ι → Option ι
  | .turn (.claim w) => some w
  | _ => none

/-- A claim takes entries that have a delivery left, or that no handler is invoked for. -/
def DeliveryLeft (owner : ι → κ) (options : κ → ResolvedOptions)
    (decode : StreamEntry → Except Text E) (s : Deployment κ ι)
    (action : DeploymentAction κ ι) : Prop :=
  ∀ w ∈ claimer action, ∀ e ∈ s.group.handedOut (options ∘ owner) (.claim w),
    (decode e).isOk = false ∨
      ∃ p ∈ s.group.stream.pending.get e.id,
        p.deliveryCount < ((options (owner w)).maxDeliveries : ℕ)

instance (owner : ι → κ) (options) (decode : StreamEntry → Except Text E) (s) (action) :
    Decidable (DeliveryLeft owner options decode s action) := by
  unfold DeliveryLeft
  infer_instance

/-- Every entry that is still to be taken up is within the ceiling, or will not be handled. -/
structure CeilingInv (owner : ι → κ) (options : κ → ResolvedOptions)
    (decode : StreamEntry → Except Text E) (s : Deployment κ ι) : Prop where
  held : ∀ w, ∀ e ∈ (s.group.workers w).phase.remaining, (decode e).isOk = false ∨
    s.history.counts w e.id ≤ ((options (owner w)).maxDeliveries : ℕ)
  kept : s.CeilingKept

variable {owner : ι → κ} {options : κ → ResolvedOptions} {decode : StreamEntry → Except Text E}

variable {s t : Deployment κ ι}

/-- What is true of the entries the workers hold stays true if they hold no others. -/
lemma ceilingInv_of_remaining (h : CeilingInv owner options decode s)
    (hcnts : t.history.counts = s.history.counts) (hkept : t.CeilingKept)
    (hrem : ∀ v, ∀ e ∈ (t.group.workers v).phase.remaining,
      e ∈ (s.group.workers v).phase.remaining) : CeilingInv owner options decode t := by
  refine ⟨?_, hkept⟩
  intro v e he
  rw [hcnts]
  exact h.held v e (hrem v e he)

lemma ceilingInv_quiet (h : CeilingInv owner options decode s) (ht : Quiet s t) :
    CeilingInv owner options decode t := by
  refine ceilingInv_of_remaining h (by rw [ht.history]) ?_ ?_
  · unfold CeilingKept
    rw [ht.history]
    exact h.kept
  · intro v e he
    rcases ht.workers v with hsame | hemp
    · rwa [hsame] at he
    · rw [hemp.remaining] at he
      cases he

variable [DecidableEq ι]

variable {w : ι}

/-- The entries just handed out to a worker, with their counts in the group. -/
lemma ceilingInv_deliver {u x batch} (h : CeilingInv owner options decode s)
    (hx : x.phase = .processing batch) (hcnts : ∀ e ∈ batch.entries, (decode e).isOk = false ∨
      ∃ p, u.pending.get e.id = some p ∧
        p.deliveryCount ≤ ((options (owner w)).maxDeliveries : ℕ)) :
    CeilingInv owner options decode { s with
      group := { s.group with stream := u }.setWorker w x
      history := s.history.deliver ({ s.group with stream := u }.setWorker w x) w } := by
  refine ⟨?_, h.kept⟩
  intro v e he
  by_cases hvw : v = w
  · subst hvw
    rw [GroupState.setWorker_self, hx] at he
    rcases hcnts e he with hbad | ⟨p, hp, hle⟩
    · exact .inl hbad
    · right
      simp only [History.deliver, GroupState.setWorker, Function.update_self, hp]
      exact hle
  · rw [GroupState.setWorker_of_ne _ _ hvw] at he
    have hold := h.held v e he
    simpa [History.deliver, hvw] using hold

/-- A step of one worker that leaves its batch as it is, or shortens it. -/
lemma ceilingInv_shorten {x} (h : CeilingInv owner options decode s) (stream) {history}
    (hcnts : history.counts = s.history.counts)
    (hkept : ∀ x ∈ history.taken, x.maxDeliveries < x.deliveryCount → x.parked)
    (hsub : ∀ e ∈ x.phase.remaining, e ∈ (s.group.workers w).phase.remaining) :
    CeilingInv owner options decode { s with
      group := { s.group with stream := stream }.setWorker w x
      history := history } := by
  refine ceilingInv_of_remaining h hcnts hkept ?_
  intro v e he
  by_cases hvw : v = w
  · subst hvw
    rw [GroupState.setWorker_self] at he
    exact hsub e he
  · rwa [GroupState.setWorker_of_ne _ _ hvw] at he

/-- Taking up the next entry of a batch: it is within the ceiling, or it is parked. -/
lemma ceilingInv_takesUp {batch} (h : CeilingInv owner options decode s)
    (hph : (s.group.workers w).phase = .processing batch) :
    CeilingInv owner options decode { s with
      group := s.group.setPhase w (Worker.next decode s.group.now batch)
      history := s.history.record (options ∘ owner) s.group
        (s.group.setPhase w (Worker.next decode s.group.now batch)) (.next w) } := by
  have hrem : (s.group.workers w).phase.remaining = batch.entries := by rw [hph]; rfl
  cases hents : batch.entries with
  | nil =>
    have hemp := emptyHanded_next decode s.group.now hents
    refine ceilingInv_shorten h s.group.stream ?_ ?_ ?_
    · simp [History.record, hph, WorkerPhase.batch, hents]
    · simp only [History.record, hph, WorkerPhase.batch, hents]
      exact h.kept
    · rw [hemp.remaining]
      exact nofun
  | cons e rest =>
    obtain ⟨hrest, _, hpar⟩ := next_takesUp decode s.group.now hents
    have hhis : s.history.record (options ∘ owner) s.group
        (s.group.setPhase w (Worker.next decode s.group.now batch)) (.next w) =
        { s.history with taken := ⟨e.id, s.history.counts w e.id,
          (options (owner w)).maxDeliveries, !(decode e).isOk⟩ :: s.history.taken } := by
      simp [History.record, hph, WorkerPhase.batch, hents, GroupState.setPhase, hpar]
    rw [hhis]
    refine ceilingInv_shorten h s.group.stream rfl ?_ ?_
    · intro y hy hover
      rcases List.mem_cons.mp hy with rfl | hold
      · rcases h.held w e (by rw [hrem, hents]; exact List.mem_cons_self) with hbad | hle
        · simp [hbad]
        · exact absurd hover (not_lt.mpr hle)
      · exact h.kept y hold hover
    · intro d hd
      rw [hrem, hents]
      exact List.mem_cons_of_mem e (hrest ▸ hd)

lemma ceilingInv_turn {action} {group} (h : CeilingInv owner options decode s)
    (hok : DeliveryLeft owner options decode s (.turn action))
    (ht : GroupState.Turn decode (options ∘ owner) s.group w action group) :
    CeilingInv owner options decode { s with
      group := group
      history := s.history.record (options ∘ owner) s.group group action } := by
  cases ht with
  | lists phase hemp =>
    refine ceilingInv_shorten h s.group.stream rfl h.kept ?_
    rw [hemp.remaining]
    exact nofun
  | reads u batch x hx htaken hat hhands =>
    refine ceilingInv_deliver h hx ?_
    intro e he
    obtain ⟨count, hget, ⟨rfl, -⟩ | ⟨hin, -⟩⟩ := hhands.given e he
    · exact .inr ⟨_, hget, (options (owner w)).maxDeliveries.pos⟩
    · cases hin
  | claims u batch x ids hx htaken hat hhands =>
    refine ceilingInv_deliver h hx ?_
    intro e he
    rcases hok w rfl e (htaken ▸ he) with hbad | ⟨p, hp, hlt⟩
    · exact .inl hbad
    · right
      obtain ⟨count, hget, ⟨rfl, -⟩ | ⟨-, held, hheld, -, rfl⟩⟩ := hhands.given e he
      · exact ⟨_, hget, (options (owner w)).maxDeliveries.pos⟩
      · have hsame : held = p := Option.some.inj (hheld.symm.trans hp)
        exact ⟨_, hget, hsame ▸ hlt⟩
  | takesUp batch hph => exact ceilingInv_takesUp h hph
  | resolves entry startedAt batch hph =>
    refine ceilingInv_shorten h s.group.stream ?_ ?_ ?_
    · simp [History.record, hph]
    · simp only [History.record, hph]
      exact h.kept
    · rw [hph]
      exact fun e he => he
  | rejects entry startedAt batch error hph =>
    refine ceilingInv_shorten h s.group.stream rfl h.kept ?_
    rw [(reject_remaining _ _ entry batch error).1, hph]
    exact fun e he => he
  | acks id batch x hx hacks hrem hheld =>
    refine ceilingInv_shorten h _ rfl h.kept ?_
    rw [hx, hrem]
    exact fun e he => he
  | parks parked batch hph =>
    refine ceilingInv_shorten h s.group.stream ?_ ?_ ?_
    · simp [History.record, hph]
    · simp only [History.record, hph]
      exact h.kept
    · rw [hph]
      exact fun e he => he

variable [DecidableEq κ] [Fintype ι]

lemma ceilingInv_step {action} (h : CeilingInv owner options decode s)
    (hok : DeliveryLeft owner options decode s action)
    (hstep : s.step owner options decode action = some t) : CeilingInv owner options decode t := by
  cases effect_of_step hstep with
  | quiet hquiet => exact ceilingInv_quiet h hquiet
  | turns w action group hturn => exact ceilingInv_turn h hok hturn
  | _ => exact ⟨h.held, h.kept⟩

end Deployment

open Deployment in
/-- In every run, with any crashes, in which no claim takes an entry that has had all its
deliveries, no handler is invoked for an entry beyond the ceiling. -/
theorem ceiling_kept_when_delivery_left {κ ι E : Type} [DecidableEq κ] [DecidableEq ι] [Fintype ι]
    (owner : ι → κ) (options : κ → ResolvedOptions) (decode : StreamEntry → Except Text E)
    (stream : MemoryStream) (run : List (DeploymentAction κ ι)) (s : Deployment κ ι)
    (hok : Machine.Guarded (step owner options decode) (DeliveryLeft owner options decode)
      (init stream) run)
    (hexec : Machine.exec (step owner options decode) (init stream) run = some s) :
    s.CeilingKept := by
  have hinv : CeilingInv owner options decode s := by
    refine Machine.exec_invariant_of_guarded (CeilingInv owner options decode) ?_ ?_ hok hexec
    · exact fun _ _ _ hs hguard hstep => ceilingInv_step hs hguard hstep
    · exact ⟨fun _ _ => nofun, fun _ => nofun⟩
  exact hinv.kept

/-- A worker starts, finds nothing to reclaim and takes up the entry it reads. -/
def firstDelivery : List (DeploymentAction Unit Unit) :=
  [.start (), .started () 0, .turn (.pendingEntries ()), .turn (.readGroup ()), .turn (.next ())]

/-- The handler takes the process down; its successor claims the entry when it has been idle
and takes it up. -/
def nextDelivery : List (DeploymentAction Unit Unit) :=
  [.crash (), .elapse 30000, .start (), .started () 0, .turn (.pendingEntries ()),
    .turn (.claim ()), .turn (.next ())]

/-- An entry whose handler takes the process down in each of `n + 1` deliveries. -/
def poisonRun (n : ℕ) : List (DeploymentAction Unit Unit) :=
  .append [] none :: firstDelivery ++ (List.replicate n nextDelivery).flatten

open Deployment in
/-- The fifth delivery is the last one the ceiling admits, and is handled. -/
theorem ceiling_kept_after_four_crashes :
    ∃ s, Machine.exec (step id (fun _ => defaultOptions ['a'])
        (fun _ => (.ok () : Except Text Unit))) (init (MemoryStream.createGroup [] 0 false))
        (poisonRun 4) = some s ∧
      s.history.taken.head? = some ⟨⟨0, 1⟩, 5, 5, false⟩ ∧ s.CeilingKept := by
  refine Machine.exists_of_seen (fun s => s.history.taken.head?)
    (some ⟨⟨0, 1⟩, 5, 5, false⟩) (by decide +kernel) ?_
  intro s hexec htaken
  refine ⟨htaken, ?_⟩
  exact ceiling_kept_when_delivery_left _ _ _ _ (poisonRun 4) s (by decide +kernel) hexec

open Deployment in
/-- The sixth delivery is handled like the five before it. -/
theorem poison_entry_handled_again :
    resolveOptions { key := ['s'], group := ['g'], consumer := ['a'] } =
        .ok (defaultOptions ['a']) ∧
      ∃ s, Machine.exec (step id (fun _ => defaultOptions ['a'])
          (fun _ => (.ok () : Except Text Unit))) (init (MemoryStream.createGroup [] 0 false))
          (poisonRun 5) = some s ∧
        ⟨⟨0, 1⟩, 6, 5, false⟩ ∈ s.history.taken ∧ ¬ s.CeilingKept := by
  refine ⟨resolveOptions_default (by decide), ?_⟩
  refine Machine.exists_of_seen (fun s => s.history.taken.head?)
    (some ⟨⟨0, 1⟩, 6, 5, false⟩) (by decide +kernel) ?_
  intro s _ htaken
  have hmem := List.mem_of_head? htaken
  refine ⟨hmem, ?_⟩
  intro hkept
  have hpar := hkept _ hmem (by decide)
  cases hpar

end BoilerplateExpress.Redis

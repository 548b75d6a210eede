import BoilerplateExpress.Workers.TaskPlaces

/-!
# Every task is settled once, by its own answer

The functions of the pool are chains of the operations of `TaskPlaces`, so each of them leaves the
pool with nothing in hand and with the log of every call in order. The pool closes only when
nothing is pending. Every function that frees a worker pumps the queue after it, and a pump stops
at an empty queue or at a full house.
-/
namespace BoilerplateExpress.Workers

open List

/-- Starting a worker never fails. -/
def Threads.Reliable (threads : Threads) : Prop := ∀ n, threads.createWorkerThrows n = false

namespace Pool

variable {P V : Type} (settings : PoolSettings) (threads : Threads)

/-- The pool at rest: nothing is in hand, a closed pool owes nobody an answer, and the queue has
at most `depth` tasks. -/
structure Inv (depth : ℕ) (s : Pool P V) : Prop extends Core settings.size [] s where
  quiet : s.state = .closed → ∀ call, s.pending call = false
  shut : s.drainResolved = true ∨ s.destroying = true → s.state = .closed
  short : s.queue.length ≤ depth

/-- Tasks wait, until the pool is closed, only while every worker it may have is at work. -/
def Saturated (s : Pool P V) : Prop :=
  s.state ≠ .closed → s.queue ≠ [] → settings.size ≤ s.workers.length ∧ s.idle = []

structure Steady (depth : ℕ) (s : Pool P V) : Prop extends Inv settings depth s where
  busy : threads.Reliable → Saturated settings s

/-- A pump leaves the pool at rest, and throws only if a worker cannot be started. -/
def Pumps (depth : ℕ) (pump : Pool P V → Pool P V × Bool) : Prop :=
  ∀ t, Inv settings depth t →
    Steady settings threads depth (pump t).1 ∧ (threads.Reliable → (pump t).2 = false)

variable {settings threads} {s : Pool P V} {depth worker : ℕ} {current : InFlightTask}

lemma pending_eq_false_of_idle (hs : Core settings.size [] s) (hqueue : s.queue = [])
    (hidle : ∀ worker ∈ s.workers, s.currentOf worker = none) (call) : s.pending call = false := by
  have hplaced := hs.placed call
  have hzero : s.records.countP (WorkerRecord.runs call) = 0 := by
    rw [countP_eq_zero]
    intro record hrecord hruns
    obtain ⟨worker, hworker⟩ := mem_iff_getElem?.mp hrecord
    have hsome : (s.records[worker]?).bind WorkerRecord.current ≠ none := by
      rw [hworker]
      rintro h
      simp [WorkerRecord.runs, show record.current = none from h] at hruns
    exact hsome (hidle worker ((hs.rotation.condition worker).busy hsome))
  simp only [places, hqueue, hzero] at hplaced
  cases h : s.pending call
  · rfl
  · rw [h] at hplaced
    cases hplaced

lemma steady_settleDrainIfIdle (hs : Steady settings threads depth s) :
    Steady settings threads depth s.settleDrainIfIdle := by
  unfold settleDrainIfIdle
  split_ifs with hst hqueue hbusy
  · exact hs
  · exact hs
  · exact hs
  · have hidle (worker : ℕ) (hwk : worker ∈ s.workers) : s.currentOf worker = none := by
      by_contra hsome
      apply hbusy
      rw [any_eq_true]
      exact ⟨worker, hwk, Option.isSome_iff_ne_none.mpr hsome⟩
    have hquiet := pending_eq_false_of_idle hs.toCore (not_not.mp hqueue) hidle
    have hcore : Core settings.size [] { s with state := .closed } :=
      ⟨hs.placed, hs.rotation, hs.flight, hs.log⟩
    exact ⟨⟨core_destroyAll hcore hquiet, fun _ => hquiet, fun _ => rfl, hs.short⟩,
      fun _ h => absurd rfl h⟩

lemma Inv.live (hs : Inv settings depth s) (hst : s.state ≠ .closed) : Live s := by
  refine ⟨hst, ?_, ?_⟩
  · by_contra h
    exact hst (hs.shut (.inl (by simpa using h)))
  · by_contra h
    exact hst (hs.shut (.inr (by simpa using h)))

lemma Live.inv (hlive : Live s) (hs : Core settings.size [] s) (hshort : s.queue.length ≤ depth) :
    Inv settings depth s := by
  refine ⟨hs, fun h => absurd h hlive.not_closed, ?_, hshort⟩
  rintro (h | h)
  · rw [hlive.no_answer] at h
    cases h
  · rw [hlive.no_destroy] at h
    cases h

lemma Steady.of_le {n} (hs : Steady settings threads n s) (h : n ≤ depth) :
    Steady settings threads depth s := ⟨⟨hs.toCore, hs.quiet, hs.shut, hs.short.trans h⟩, hs.busy⟩

lemma Free.currentOf (h : Free s worker) : s.currentOf worker = none := by
  rw [Pool.currentOf, h.record]
  rfl

lemma Free.isRetired (h : Free s worker) : s.isRetired worker = false := by
  rw [Pool.isRetired, h.record]
  rfl

section WithPump

variable {pump : Pool P V → Pool P V × Bool} (hpump : Pumps settings threads depth pump)

include hpump

/-- What follows a pump in `retire` and in `release`. -/
lemma steady_pumped {t} (ht : Inv settings depth t) :
    Steady settings threads depth (match pump t with
      | (s, true) => (s, true)
      | (s, false) => (s.settleDrainIfIdle, false)).1 ∧
    (threads.Reliable → (match pump t with
      | (s, true) => (s, true)
      | (s, false) => (s.settleDrainIfIdle, false)).2 = false) := by
  obtain ⟨hsteady, hcalm⟩ := hpump t ht
  rcases h : pump t with ⟨u, threw⟩
  rw [h] at hsteady hcalm
  cases threw with
  | true => exact ⟨hsteady, hcalm⟩
  | false => exact ⟨steady_settleDrainIfIdle hsteady, fun _ => rfl⟩

lemma steady_retireWith (hs : Inv settings depth s) (hnone : s.currentOf worker = none)
    (hnot : s.isRetired worker = false) :
    Steady settings threads depth (retireWith pump s worker).1 ∧
      (threads.Reliable → (retireWith pump s worker).2 = false) := by
  unfold retireWith
  simp only [hnot]
  exact steady_pumped hpump ⟨core_markRetired hs.toCore hnone, hs.quiet, hs.shut, hs.short⟩

lemma steady_releaseWith (hs : Inv settings depth s) (hfree : Free s worker) :
    Steady settings threads depth (releaseWith pump s worker).1 ∧
      (threads.Reliable → (releaseWith pump s worker).2 = false) := by
  unfold releaseWith
  simp only [hfree.isRetired, Bool.false_eq_true, if_false]
  split_ifs
  · exact ⟨(steady_retireWith hpump hs hfree.currentOf hfree.isRetired).1, fun _ => rfl⟩
  · exact steady_pumped hpump ⟨core_idle hs.toCore hfree, hs.quiet, hs.shut, hs.short⟩

end WithPump

lemma core_finish {settlement} (hs : Core settings.size [] s)
    (hcur : s.currentOf worker = some current)
    (hfits : Fits s current.call settlement) :
    Core settings.size [] ((s.setCurrent worker none).settleCall current.call settlement) ∧
      Free ((s.setCurrent worker none).settleCall current.call settlement) worker := by
  obtain ⟨hcore, hfree⟩ := core_take hs hcur
  exact ⟨core_settle hcore hfits, hfree.record, hfree.mem, hfree.not_idle⟩

lemma inv_dispatchWith {pump} (hpump : Pumps settings threads depth pump) (worker queued)
    (hs : Core settings.size [queued.call] s) (hlive : Live s) (hshort : s.queue.length ≤ depth)
    (hfree : Free s worker) :
    Inv settings depth (dispatchWith threads pump s worker queued).1 ∧
      (threads.Reliable → (dispatchWith threads pump s worker queued).2 = false) := by
  have hass := core_assign hs hfree
  unfold dispatchWith
  split_ifs
  · have hfits : Fits (s.assign worker queued) queued.call (.rejected .notCloneable) := nofun
    obtain ⟨hcore, hfree'⟩ := core_finish hass (currentOf_assign hfree queued) hfits
    have hlive' : Live (((s.assign worker queued).setCurrent worker none).settleCall queued.call
        (.rejected .notCloneable)) := ⟨hlive.1, hlive.2, hlive.3⟩
    obtain ⟨hsteady, hcalm⟩ := steady_releaseWith hpump (hlive'.inv hcore hshort) hfree'
    exact ⟨hsteady.toInv, hcalm⟩
  · have hlive' : Live { s.assign worker queued with
        sent := s.sent ++ [(worker, ⟨s.nextTaskId, queued.task, queued.payload⟩)] } :=
      ⟨hlive.1, hlive.2, hlive.3⟩
    exact ⟨hlive'.inv ⟨hass.placed, hass.rotation, hass.flight, hass.log⟩ hshort,
      fun _ => rfl⟩

variable (settings threads)

/-- Every turn takes a task off the queue, so the fuel lasts until the pump stops by itself. -/
theorem pumps_pumpFor (fuel) :
    Pumps settings threads fuel (pumpFor settings threads fuel : Pool P V → _) := by
  induction fuel with
  | zero =>
    intro s hs
    have hemp : s.queue = [] := eq_nil_of_length_eq_zero (Nat.le_zero.mp hs.short)
    exact ⟨⟨hs, fun _ _ h => absurd hemp h⟩, fun _ => rfl⟩
  | succ fuel ih =>
    intro s hs
    unfold pumpFor
    split
    · rename_i hemp
      exact ⟨⟨hs, fun _ _ h => absurd hemp h⟩, fun _ => rfl⟩
    · rename_i queued rest hqueue
      split_ifs with hcl
      · exact ⟨⟨hs, fun _ h => absurd hcl h⟩, fun _ => rfl⟩
      have hlive := hs.live hcl
      have hshort : rest.length ≤ fuel := by
        have := hs.short
        rw [hqueue, length_cons] at this
        omega
      obtain ⟨hspec, hcore⟩ := core_acquire threads hs.toCore
      generalize s.acquireWorker settings threads = result at hspec hcore ⊢
      cases hspec with
      | none hidle hfull => exact ⟨⟨hs, fun _ _ _ => ⟨hfull, hidle⟩⟩, fun _ => rfl⟩
      | threw created hthr =>
        have hunr (h : threads.Reliable) : False := by
          rw [h] at hthr
          cases hthr
        exact ⟨⟨Live.inv ⟨hlive.1, hlive.2, hlive.3⟩ hcore hs.short,
          fun h => (hunr h).elim⟩, fun h => (hunr h).elim⟩
      | @worker worker t hfree hqueue' hcalls hlives hroom =>
        obtain ⟨hopen, hans, hdes⟩ := hlives hlive
        have hdis := inv_dispatchWith ih _ _ (core_shift hcore (hqueue'.trans hqueue))
          ⟨hopen, hans, hdes⟩ hshort ⟨hfree.record, hfree.mem, hfree.not_idle⟩
        dsimp only
        generalize dispatchWith threads (pumpFor settings threads fuel) { t with queue := rest }
          worker queued = result at hdis ⊢
        obtain ⟨u, threw⟩ := result
        obtain ⟨hinv, hcalm⟩ := hdis
        cases threw with
        | true =>
          have hunr (h : threads.Reliable) : False := nomatch hcalm h
          exact ⟨Steady.of_le ⟨hinv, fun h => (hunr h).elim⟩ (Nat.le_succ fuel),
            fun h => (hunr h).elim⟩
        | false =>
          obtain ⟨hsteady, hpum⟩ := ih u hinv
          exact ⟨hsteady.of_le (Nat.le_succ fuel), hpum⟩

lemma pumps_pump (depth) : Pumps settings threads depth (pump settings threads : Pool P V → _) := by
  intro s hs
  obtain ⟨hsteady, hcalm⟩ := pumps_pumpFor settings threads s.queue.length s
    ⟨hs.toCore, hs.quiet, hs.shut, le_rfl⟩
  exact ⟨hsteady.of_le hs.short, hcalm⟩

/-- What a caller can rely on, also when the process has gone down. -/
structure Promised (s : Pool P V) : Prop where
  log : Log s.nextTaskId s.terminated s.calls
  answered : s.drainResolved = true → ∀ call, s.pending call = false
  rotation : Rotation settings.size s.records s.workers s.idle
  short : s.queue.length ≤ settings.maxQueueDepth
  busy : threads.Reliable → Saturated settings s

/-- The process goes on with the books in order, or has gone down with nothing wrong said. -/
structure Kept (s : Pool P V) : Prop where
  promised : Promised settings threads s
  steady : s.down = true ∨ Steady settings threads settings.maxQueueDepth s

variable {settings threads}

lemma Steady.kept (hs : Steady settings threads settings.maxQueueDepth s) :
    Kept settings threads s :=
  ⟨⟨hs.log, fun h => hs.quiet (hs.shut (.inl h)), hs.rotation, hs.short, hs.busy⟩, .inr hs⟩

lemma kept_orDown {result : Pool P V × Bool}
    (h : Steady settings threads settings.maxQueueDepth result.1) :
    Kept settings threads (orDown result) := by
  unfold orDown
  split_ifs
  · obtain ⟨hlog, hans, hrot, hshort, hbusy⟩ := h.kept.promised
    exact ⟨⟨hlog, hans, hrot, hshort, hbusy⟩, .inl rfl⟩
  · exact h.kept

/-- A worker is to be had only if nothing waits. -/
lemma queue_eq_nil (hs : Steady settings threads depth s) (hopen : s.state ≠ .closed)
    (hroom : s.idle ≠ [] ∨ s.workers.length < settings.size) : threads.Reliable → s.queue = [] := by
  intro hrel
  by_contra hqueue
  obtain ⟨hfull, hidle⟩ := hs.busy hrel hopen hqueue
  rcases hroom with h | h
  · exact h hidle
  · omega

lemma steady_run (hs : Steady settings threads settings.maxQueueDepth s) (task payload timeoutMs) :
    Steady settings threads settings.maxQueueDepth
      (s.run settings threads task payload timeoutMs) := by
  have href (t : Pool P V) (ht : Steady settings threads settings.maxQueueDepth t)
      (error : Rejection) : Steady settings threads settings.maxQueueDepth
        { t with calls := t.calls ++ [⟨false, none, [.rejected error]⟩] } := by
    refine ⟨⟨core_refuse ht.toCore error, ?_, ht.shut, ht.short⟩, ht.busy⟩
    intro hcl call
    have hold := ht.quiet hcl call
    simp only [pending, getElem?_append] at hold ⊢
    split_ifs
    · exact hold
    · rw [getElem?_singleton]
      split_ifs <;> rfl
  unfold run
  dsimp only
  split_ifs with hst
  · exact href s hs _
  have hlive := hs.live (by rw [not_not.mp hst]; decide)
  obtain ⟨hspec, hcore⟩ := core_acquire threads hs.toCore
  generalize s.acquireWorker settings threads = result at hspec hcore ⊢
  cases hspec with
  | none hidle hfull =>
    dsimp only
    split_ifs with hdeep
    · exact href s hs _
    · have hacc : Core settings.size [(⟨task, payload, timeoutMs.getD settings.taskTimeoutMs,
          s.calls.length⟩ : QueuedTask P).call] _ := core_accept hs.toCore
      refine ⟨Live.inv ⟨hlive.1, hlive.2, hlive.3⟩ (core_enqueue hacc) ?_,
        fun _ _ _ => ⟨hfull, hidle⟩⟩
      rw [length_append]
      exact not_le.mp hdeep
  | threw created hthr =>
    have hinv : Inv settings settings.maxQueueDepth { s with created := created } :=
      Live.inv ⟨hlive.1, hlive.2, hlive.3⟩ hcore hs.short
    refine href _ ⟨hinv, ?_⟩ _
    intro hrel
    rw [hrel] at hthr
    cases hthr
  | @worker worker t hfree hqueue hcalls hlives hroom =>
    obtain ⟨hopen, hans, hdes⟩ := hlives hlive
    dsimp only
    rw [← hcalls]
    have hdis (n : ℕ) (h : t.queue.length ≤ n) :=
      (inv_dispatchWith (pumps_pump settings threads n) worker
        ⟨task, payload, timeoutMs.getD settings.taskTimeoutMs, t.calls.length⟩
        (core_accept hcore) ⟨hopen, hans, hdes⟩ h
        ⟨hfree.record, hfree.mem, hfree.not_idle⟩).1
    refine ⟨hdis _ (by rw [hqueue]; exact hs.short), ?_⟩
    -- nothing waited before the call, so nothing waits after it
    intro hrel _ hwaits
    have hemp := queue_eq_nil hs hlive.1 hroom hrel
    have hnone := (hdis 0 (by rw [hqueue, hemp]; exact le_rfl)).short
    exact absurd (eq_nil_of_length_eq_zero (Nat.le_zero.mp hnone)) hwaits

lemma steady_drain (hs : Steady settings threads depth s) :
    Steady settings threads depth s.drain := by
  unfold drain
  split_ifs with hcl hnone
  · exact ⟨⟨⟨hs.placed, hs.rotation, hs.flight, hs.log⟩, hs.quiet, fun _ => hcl, hs.short⟩,
      hs.busy⟩
  · have hlive := hs.live hcl
    apply steady_settleDrainIfIdle
    exact ⟨Live.inv ⟨nofun, hlive.2, hlive.3⟩ ⟨hs.placed, hs.rotation, hs.flight, hs.log⟩ hs.short,
      fun hrel _ => hs.busy hrel hcl⟩
  · exact hs

lemma rejectQueued_frame (queue) (s : Pool P V) :
    rejectQueued queue s = { s with calls := (rejectQueued queue s).calls } := by
  induction queue generalizing s with
  | nil => rfl
  | cons queued rest ih =>
    rw [rejectQueued, ih]
    rfl

lemma core_rejectQueued {size} {queue} {s : Pool P V} (hs : Core size (queue.map QueuedTask.call) s)
    (hterm : s.terminated) : Core size [] (rejectQueued queue s) := by
  induction queue generalizing s with
  | nil => exact hs
  | cons queued rest ih =>
    apply ih
    · exact core_settle hs (fun _ _ => hterm)
    · exact hterm

/-- Rejecting what was running leaves the workers it went through without a task. -/
lemma core_rejectRunning (workers) (s : Pool P V) (hs : Core settings.size [] s)
    (hterm : s.terminated) :
    Core settings.size [] (rejectRunning workers s) ∧
    (∀ worker, worker ∈ workers ∨ s.currentOf worker = none →
      (rejectRunning workers s).currentOf worker = none) ∧
    rejectRunning workers s = { s with
      records := (rejectRunning workers s).records, calls := (rejectRunning workers s).calls } := by
  induction workers generalizing s with
  | nil =>
    refine ⟨hs, ?_, rfl⟩
    rintro worker (h | h)
    · cases h
    · exact h
  | cons first rest ih =>
    unfold rejectRunning
    split
    · rename_i hnone
      obtain ⟨hcore, hcur, hframe⟩ := ih s hs hterm
      refine ⟨hcore, ?_, hframe⟩
      rintro worker (h | h)
      · rcases mem_cons.mp h with rfl | h
        · exact hcur worker (.inr hnone)
        · exact hcur worker (.inl h)
      · exact hcur worker (.inr h)
    · rename_i current hsome
      have hfits : Fits s current.call (.rejected (.poolClosed .closed)) := fun _ _ => hterm
      obtain ⟨hcore', hfree⟩ := core_finish hs hsome hfits
      obtain ⟨hcore, hcur, hframe⟩ := ih _ hcore' hterm
      refine ⟨hcore, ?_, hframe⟩
      rintro worker (h | h)
      · rcases mem_cons.mp h with rfl | h
        · exact hcur worker (.inr hfree.currentOf)
        · exact hcur worker (.inl h)
      · apply hcur
        right
        simp only [currentOf, settleCall, setCurrent, getElem?_modify] at h ⊢
        cases hrec : s.records[worker]? with
        | none => rfl
        | some record =>
          rw [hrec] at h
          by_cases heq : first = worker
          · simp [heq]
          · simpa [heq] using h

lemma steady_terminate (hs : Steady settings threads depth s) :
    Steady settings threads depth s.terminate := by
  unfold terminate
  split_ifs with hcl
  · exact hs
  have hmar : Core settings.size [] { s with state := .closed, terminated := true } := by
    refine ⟨hs.placed, hs.rotation, hs.flight, ?_, hs.log.ids_inj⟩
    intro c hc
    have hsound := hs.log.sound c hc
    exact ⟨hsound.id_lt, hsound.once, hsound.own, nofun⟩
  have hqueued := core_rejectQueued (core_splice hmar) rfl
  have hframe := rejectQueued_frame s.queue
    { s with state := .closed, terminated := true, queue := [] }
  dsimp only at hqueued hframe ⊢
  generalize rejectQueued s.queue
    { s with state := .closed, terminated := true, queue := [] } = t at hqueued hframe ⊢
  have hterm : t.terminated := by rw [hframe]
  obtain ⟨hcore, hcur, hframe'⟩ := core_rejectRunning t.workers t hqueued hterm
  generalize rejectRunning t.workers t = u at hcore hcur hframe' ⊢
  have hqueue : u.queue = [] := by rw [hframe', hframe]
  have hwks : u.workers = t.workers := by rw [hframe']
  have hquiet := pending_eq_false_of_idle hcore hqueue (by
    intro worker hwk
    rw [hwks] at hwk
    exact hcur worker (.inl hwk))
  have hst : u.state = .closed := by rw [hframe', hframe]
  refine ⟨⟨core_destroyAll hcore hquiet, fun _ => hquiet, fun _ => hst, ?_⟩, ?_⟩
  · show u.queue.length ≤ depth
    rw [hqueue]
    exact Nat.zero_le _
  · exact fun _ hopen => absurd hst hopen

/-- A running task is settled, and its worker goes back or is retired. -/
lemma inv_finish {settlement} (hs : Inv settings depth s) (hcur : s.currentOf worker = some current)
    (hfits : Fits s current.call settlement) :
    Inv settings depth ((s.setCurrent worker none).settleCall current.call settlement) ∧
      Free ((s.setCurrent worker none).settleCall current.call settlement) worker := by
  obtain ⟨hcore, hfree⟩ := core_finish hs.toCore hcur hfits
  obtain ⟨hpend, -⟩ := pending_of_hand (core_take hs.toCore hcur).1
  have hopen : s.state ≠ .closed := by
    intro hcl
    have := hs.quiet hcl current.call
    rw [show s.pending current.call from hpend] at this
    cases this
  have hlive := hs.live hopen
  exact ⟨Live.inv ⟨hlive.1, hlive.2, hlive.3⟩ hcore hs.short, hfree⟩

section Events

variable (hs : Steady settings threads settings.maxQueueDepth s) (worker : ℕ)

include hs

lemma kept_onMessage (value) :
    Kept settings threads (s.onMessage settings threads worker value) := by
  have hpump := pumps_pump (P := P) (V := V) settings threads settings.maxQueueDepth
  unfold onMessage
  by_cases hresp : isTaskResponse value = false
  · rw [if_pos hresp]
    exact hs.kept
  rw [if_neg hresp]
  split
  · rename_i current id hcur _
    by_cases hid : (current.id : ℚ) ≠ id
    · rw [if_pos hid]
      exact hs.kept
    rw [if_neg hid]
    obtain rfl : (current.id : ℚ) = id := not_not.mp hid
    dsimp only
    by_cases hok : value.ok = some true
    · rw [if_pos hok]
      have hfits : Fits s current.call (.resolved current.id value.value) :=
        ⟨current.id, hs.flight worker current hcur, rfl⟩
      obtain ⟨hinv, hfree⟩ := inv_finish hs.toInv hcur hfits
      exact kept_orDown (steady_releaseWith hpump hinv hfree).1
    rw [if_neg hok]
    cases value.error with
    | none =>
      -- nobody is told, but nothing wrong is said either
      obtain ⟨hlog, hans, -, hshort, hbusy⟩ := hs.kept.promised
      exact ⟨⟨hlog, hans, (core_take hs.toCore hcur).1.rotation, hshort, hbusy⟩, .inl rfl⟩
    | some error =>
      have hfits : Fits s current.call (.rejected (.taskFailed current.task error)) := nofun
      obtain ⟨hinv, hfree⟩ := inv_finish hs.toInv hcur hfits
      exact kept_orDown (steady_releaseWith hpump hinv hfree).1
  · exact hs.kept

lemma kept_onTimeout (id) : Kept settings threads (s.onTimeout settings threads worker id) := by
  unfold onTimeout
  split
  · exact hs.kept
  · rename_i current hcur
    split_ifs
    · exact hs.kept
    · have hfits : Fits s current.call
          (.rejected (.timedOut current.task current.timeoutMs)) := nofun
      obtain ⟨hinv, hfree⟩ := inv_finish hs.toInv hcur hfits
      exact kept_orDown (steady_retireWith (pumps_pump settings threads _) hinv hfree.currentOf
        hfree.isRetired).1

lemma kept_onWorkerFailure (cause) :
    Kept settings threads (s.onWorkerFailure settings threads worker cause) := by
  unfold onWorkerFailure
  split_ifs with hret
  · exact hs.kept
  · split
    · rename_i hnone
      exact kept_orDown (steady_retireWith (pumps_pump settings threads _) hs.toInv hnone
        (by simpa using hret)).1
    · rename_i current hcur
      have hfits : Fits s current.call (.rejected (.crashed current.task cause)) := nofun
      obtain ⟨hinv, hfree⟩ := inv_finish hs.toInv hcur hfits
      exact kept_orDown (steady_retireWith (pumps_pump settings threads _) hinv hfree.currentOf
        hfree.isRetired).1

omit worker in
lemma steady_destroyed (hdes : s.destroying = true) :
    Steady settings threads settings.maxQueueDepth s.destroyed := by
  have hcl := hs.shut (.inr hdes)
  unfold destroyed
  split_ifs
  · exact ⟨⟨⟨hs.placed, hs.rotation, hs.flight, hs.log⟩, hs.quiet, fun _ => hcl, hs.short⟩,
      hs.busy⟩
  · exact ⟨⟨⟨hs.placed, hs.rotation, hs.flight, hs.log⟩, hs.quiet, fun _ => hcl, hs.short⟩,
      hs.busy⟩

end Events

variable (settings threads)

lemma kept_step (s action) (t : Pool P V) (hkept : Kept settings threads s)
    (h : step settings threads s action = some t) : Kept settings threads t := by
  unfold step at h
  by_cases hdown : s.down
  · rw [if_pos hdown] at h
    cases h
  rw [if_neg hdown] at h
  have hs := hkept.steady.resolve_left hdown
  cases action with
  | run task payload timeoutMs =>
    cases h
    exact (steady_run hs task payload timeoutMs).kept
  | drain =>
    cases h
    exact (steady_drain hs).kept
  | terminate =>
    cases h
    exact (steady_terminate hs).kept
  | message worker value =>
    dsimp only at h
    split_ifs at h
    cases h
    exact kept_onMessage hs worker value
  | timeout worker id =>
    dsimp only at h
    split_ifs at h
    cases h
    exact kept_onTimeout hs worker id
  | failure worker cause =>
    dsimp only at h
    split_ifs at h
    cases h
    exact kept_onWorkerFailure hs worker cause
  | destroyed =>
    dsimp only at h
    split_ifs at h with hdes
    cases h
    exact (steady_destroyed hs hdes).kept

lemma promised_run {as} {s : Pool P V}
    (h : Machine.exec (step settings threads) create as = some s) :
    Promised settings threads s := by
  have hcreate : Steady settings threads settings.maxQueueDepth (create : Pool P V) :=
    ⟨⟨core_create, nofun, by simp [create], Nat.zero_le _⟩, fun _ _ h => absurd rfl h⟩
  exact (Machine.exec_invariant (Kept settings threads) (kept_step settings threads)
    hcreate.kept h).promised

/-- In every run of the pool: each promise of `run` is settled at most once, resolved only
by a response with the id its own task was dispatched under, which no other task has;
a drain resolves only when every accepted task is settled; and as long as nobody
terminates the pool, no accepted task is rejected because it is closed. -/
theorem tasks_settled_by_own_answer (as : List (Action P V)) (s : Pool P V)
    (h : Machine.exec (step settings threads) create as = some s) :
    (∀ c ∈ s.calls, c.settlements.length ≤ 1) ∧
    (∀ c ∈ s.calls, ∀ responseId value, Settlement.resolved responseId value ∈ c.settlements →
      ∃ id : ℕ, c.taskId = some id ∧ (id : ℚ) = responseId) ∧
    (∀ (call call' : ℕ) id, (s.calls[call]?).bind RunCall.taskId = some id →
      (s.calls[call']?).bind RunCall.taskId = some id → call = call') ∧
    (s.drainResolved = true → ∀ c ∈ s.calls, c.accepted = true → c.settlements ≠ []) ∧
    (s.terminated = false → ∀ c ∈ s.calls, c.accepted = true →
      ∀ state, Settlement.rejected (.poolClosed state) ∉ c.settlements) := by
  have hprom := promised_run settings threads h
  have hsound := hprom.log.sound
  refine ⟨fun c hc => (hsound c hc).once, fun c hc => (hsound c hc).own, hprom.log.ids_inj,
    ?_, fun hrun c hc => (hsound c hc).faithful hrun⟩
  intro hres c hc hacc hnone
  obtain ⟨call, hcall⟩ := mem_iff_getElem?.mp hc
  have hpend := hprom.answered hres call
  simp [pending, hcall, RunCall.pending, hacc, hnone] at hpend

/-- One thread, two tasks: the first is answered, a late answer to it is dropped, the
second times out while the pool is draining, and only then does the drain resolve. -/
theorem tasks_settled_in_a_drain :
    ∃ s : Pool Unit ℕ, Machine.exec (step ⟨1, 1, 1000, 1, by decide, by decide, by decide⟩
        ⟨fun _ => false, fun _ => false⟩) create
      [.run "digest" () none, .run "digest" () none, .message 0 ⟨true, some "result", some 1,
        some true, 7, none⟩, .drain, .message 0 ⟨true, some "result", some 1, some true, 8, none⟩,
        .timeout 0 2, .destroyed] = some s ∧
      s.drainResolved = true ∧ ∀ c ∈ s.calls, c.accepted = true → c.settlements ≠ [] := by
  refine Machine.exists_of_seen Pool.drainResolved true (by decide +kernel) ?_
  intro s hs hres
  exact ⟨hres, (tasks_settled_by_own_answer _ _ _ s hs).2.2.2.1 hres⟩

/-- In every run of a pool whose workers can be started: there are at most `size` workers and
`maxQueueDepth` waiting tasks; the idle workers are distinct, in rotation, not retired and without
a task; and while the pool is open or draining, a task waits only if there are `size` workers
and none of them is idle. -/
theorem pool_keeps_structure (hreliable : threads.Reliable) (as : List (Action P V))
    (s : Pool P V) (h : Machine.exec (step settings threads) create as = some s) :
    s.workers.Nodup ∧ s.workers.length ≤ settings.size ∧
    s.queue.length ≤ settings.maxQueueDepth ∧
    s.idle.Nodup ∧
    (∀ worker ∈ s.idle, worker ∈ s.workers ∧ s.records[worker]? = some ⟨none, false⟩) ∧
    (s.state ≠ .closed → s.queue ≠ [] → s.workers.length = settings.size ∧ s.idle = []) := by
  have hprom := promised_run settings threads h
  have hrot := hprom.rotation
  refine ⟨hrot.nodup, hrot.sized, hprom.short, hrot.idle_nodup, ?_, ?_⟩
  · exact fun worker hidle => (hrot.condition worker).free hidle
  · intro hopen hwaits
    obtain ⟨hfull, hidle⟩ := hprom.busy hreliable hopen hwaits
    exact ⟨le_antisymm hrot.sized hfull, hidle⟩

/-- Two calls on one thread: the second waits while the first is at work. -/
theorem pool_keeps_structure_while_waiting :
    ∃ s : Pool Unit ℕ, Machine.exec (step ⟨1, 1, 1000, 1, by decide, by decide, by decide⟩
        ⟨fun _ => false, fun _ => false⟩) create
      [.run "digest" () none, .run "digest" () none] = some s ∧ s.state = .opened ∧
        s.queue.length = 1 ∧ s.workers.length = 1 ∧ s.idle = [] := by
  refine Machine.exists_of_seen (fun s => (s.state, s.queue.length)) (.opened, 1)
    (by decide +kernel) ?_
  intro s hs hseen
  obtain ⟨hop, hlen⟩ := Prod.mk.inj hseen
  have hwaits : s.queue ≠ [] := ne_nil_of_length_pos (by omega)
  have hopen : s.state ≠ .closed := by
    rw [hop]
    exact nofun
  exact ⟨hop, hlen, (pool_keeps_structure _ _ (fun _ => rfl) _ s hs).2.2.2.2.2 hopen hwaits⟩

end Pool

end BoilerplateExpress.Workers

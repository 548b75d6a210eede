import BoilerplateExpress.Workers.WorkerPool

/-!
# Where an accepted task is

An accepted task that is not settled is in exactly one place: in the queue, on one
worker, or in the hand of the function that is moving it. `Core` states this by
counting, for a state in which the calls in `hand` are being moved. Each operation of
the pool moves one task and changes at most one worker, and has one lemma here.
-/
namespace BoilerplateExpress.Workers

open List

namespace RunCall

variable {V : Type}

/-- The call has been accepted and not settled. -/
def pending (c : RunCall V) : Bool := c.accepted && c.settlements.isEmpty

/-- What holds of the log of one call. -/
structure Sound (nextTaskId : ℕ) (terminated : Bool) (c : RunCall V) : Prop where
  id_lt : ∀ id, c.taskId = some id → id < nextTaskId
  once : c.settlements.length ≤ 1
  own : ∀ responseId value, Settlement.resolved responseId value ∈ c.settlements →
    ∃ id : ℕ, c.taskId = some id ∧ (id : ℚ) = responseId
  faithful : terminated = false → c.accepted = true →
    ∀ state, Settlement.rejected (.poolClosed state) ∉ c.settlements

end RunCall

/-- The log of the calls of `run`. -/
structure Log {V : Type} (nextTaskId : ℕ) (terminated : Bool) (calls : List (RunCall V)) :
    Prop where
  sound : ∀ c ∈ calls, c.Sound nextTaskId terminated
  ids_inj : ∀ (call call' : ℕ) id, (calls[call]?).bind RunCall.taskId = some id →
    (calls[call']?).bind RunCall.taskId = some id → call = call'

def WorkerRecord.runs (call : ℕ) (record : WorkerRecord) : Bool :=
  record.current.any (fun current => current.call = call)

/-- What a worker can be, by its record, whether it is in rotation and whether it is idle. -/
structure Condition (record : Option WorkerRecord) (member idle : Prop) : Prop where
  busy : record.bind WorkerRecord.current ≠ none → member
  live : member → ∃ current, record = some ⟨current, false⟩
  free : idle → member ∧ record = some ⟨none, false⟩

/-- Who may be given a task, and who has one. -/
structure Rotation (size : ℕ) (records : List WorkerRecord) (workers idle : List ℕ) : Prop where
  condition : ∀ worker : ℕ, Condition records[worker]? (worker ∈ workers) (worker ∈ idle)
  nodup : workers.Nodup
  idle_nodup : idle.Nodup
  sized : workers.length ≤ size

/-- If only the one worker has changed, only its condition has to be looked at. -/
lemma rotation_of_others {size records workers idle records' workers' idle'} (worker)
    (h : Rotation size records workers idle)
    (hothers : ∀ other : ℕ, other ≠ worker → records'[other]? = records[other]? ∧
      (other ∈ workers' ↔ other ∈ workers) ∧ (other ∈ idle' ↔ other ∈ idle))
    (hcond : Condition records'[worker]? (worker ∈ workers') (worker ∈ idle'))
    (hnd : workers'.Nodup) (hidle : idle'.Nodup) (hsized : workers'.length ≤ size) :
    Rotation size records' workers' idle' := by
  refine ⟨?_, hnd, hidle, hsized⟩
  intro other
  by_cases hoth : other = worker
  · exact hoth ▸ hcond
  · obtain ⟨hrec, hwk, hfree⟩ := hothers other hoth
    rw [hrec, hwk, hfree]
    exact h.condition other

namespace Pool

variable {P V : Type}

def pending (s : Pool P V) (call : ℕ) : Bool := (s.calls[call]?).any RunCall.pending

/-- In how many places the task of a call is. -/
def places (hand : List ℕ) (s : Pool P V) (call : ℕ) : ℕ :=
  hand.count call + s.queue.countP (fun queued => queued.call = call) +
    s.records.countP (WorkerRecord.runs call)

structure Core (size : ℕ) (hand : List ℕ) (s : Pool P V) : Prop where
  placed : ∀ call, places hand s call = (s.pending call).toNat
  rotation : Rotation size s.records s.workers s.idle
  flight : ∀ worker current, s.currentOf worker = some current →
    (s.calls[current.call]?).bind RunCall.taskId = some current.id
  log : Log s.nextTaskId s.terminated s.calls

/-- A worker in rotation that has nothing to do and is not on the idle list. -/
structure Free (s : Pool P V) (worker : ℕ) : Prop where
  record : s.records[worker]? = some ⟨none, false⟩
  mem : worker ∈ s.workers
  not_idle : worker ∉ s.idle

variable {size : ℕ}

lemma core_create : Core size [] (create : Pool P V) := by
  refine ⟨by simp [create, places, pending], ⟨?_, .nil, .nil, Nat.zero_le _⟩, nofun, nofun, nofun⟩
  exact fun worker => ⟨fun h => absurd rfl h, nofun, nofun⟩

/-! ### Lists of which one cell changes -/

section Modify

variable {α : Type} {f : α → α} {l : List α} {i : ℕ}

/-- Changing one cell changes the count by what that cell counts. -/
lemma countP_modify {a} (p) (h : l[i]? = some a) :
    (l.modify i f).countP p + (p a).toNat = l.countP p + (p (f a)).toNat := by
  induction l generalizing i with
  | nil => cases h
  | cons b l ih =>
    cases i with
    | zero =>
      obtain rfl : b = a := by simpa using h
      rw [modify_zero_cons, countP_cons, countP_cons]
      cases p b <;> cases p (f b) <;> simp
    | succ i =>
      have := ih (by simpa using h)
      rw [modify_succ_cons, countP_cons, countP_cons]
      omega

lemma forall_mem_modify {p : α → Prop} (h : ∀ a ∈ l, p a) (hf : ∀ a, l[i]? = some a → p (f a)) :
    ∀ a ∈ l.modify i f, p a := by
  intro b hb
  obtain ⟨j, hj⟩ := mem_iff_getElem?.mp hb
  rw [getElem?_modify, Option.map_eq_map, Option.map_eq_some_iff] at hj
  obtain ⟨a, ha, rfl⟩ := hj
  split_ifs with hij
  · exact hf a (hij ▸ ha)
  · exact h a (mem_of_getElem? ha)

end Modify

lemma taskId_modify {calls : List (RunCall V)} {f : RunCall V → RunCall V}
    (hf : ∀ c, (f c).taskId = c.taskId) (i call : ℕ) :
    ((calls.modify i f)[call]?).bind RunCall.taskId = (calls[call]?).bind RunCall.taskId := by
  rw [getElem?_modify]
  cases calls[call]? with
  | none => rfl
  | some c => by_cases h : i = call <;> simp [h, hf]

variable {s : Pool P V} {hand : List ℕ} {worker : ℕ} {current : InFlightTask}

lemma record_of_current (h : Rotation size s.records s.workers s.idle)
    (hcur : s.currentOf worker = some current) :
    s.records[worker]? = some ⟨some current, false⟩ ∧ worker ∈ s.workers ∧ worker ∉ s.idle := by
  have hcond := h.condition worker
  have hmem := hcond.busy (by rw [← currentOf, hcur]; exact nofun)
  obtain ⟨running, hrec⟩ := hcond.live hmem
  rw [currentOf, hrec] at hcur
  obtain rfl : running = some current := hcur
  refine ⟨hrec, hmem, ?_⟩
  intro hidle
  cases hrec.symm.trans (hcond.free hidle).2

/-- A call in hand is in the log, accepted and not settled. -/
lemma pending_of_hand {call} (hs : Core size (call :: hand) s) :
    s.pending call ∧ ∃ c, s.calls[call]? = some c ∧ c.accepted ∧ c.settlements = [] := by
  have hpend : s.pending call := by
    have hpl := hs.placed call
    simp only [places] at hpl
    cases h : s.pending call
    · rw [h] at hpl
      simp at hpl
    · rfl
  simpa [pending, Option.any_eq_true, RunCall.pending] using hpend

lemma runs_pos (hcur : s.currentOf worker = some current) :
    0 < s.records.countP (WorkerRecord.runs current.call) := by
  obtain ⟨record, hrec, hrun⟩ := Option.bind_eq_some_iff.mp hcur
  refine countP_pos_iff.mpr ⟨record, mem_of_getElem? hrec, ?_⟩
  simp [WorkerRecord.runs, hrun]

/-! ### The queue and the log -/

variable {queued : QueuedTask P}

lemma core_shift {rest} (hs : Core size hand s) (hqueue : s.queue = queued :: rest) :
    Core size (queued.call :: hand) { s with queue := rest } := by
  refine ⟨?_, hs.rotation, hs.flight, hs.log⟩
  intro call
  have hpl := hs.placed call
  simp only [places, hqueue, countP_cons, count_cons, decide_eq_true_eq, beq_iff_eq,
    pending] at hpl ⊢
  omega

lemma core_splice (hs : Core size [] s) :
    Core size (s.queue.map QueuedTask.call) { s with queue := [] } := by
  refine ⟨?_, hs.rotation, hs.flight, hs.log⟩
  intro call
  have hpl := hs.placed call
  have hcnt : (s.queue.map QueuedTask.call).count call =
      s.queue.countP (fun queued => queued.call = call) := by
    rw [List.count, countP_map]
    rfl
  simp only [places, countP_nil, count_nil, pending] at hpl ⊢
  omega

lemma core_enqueue (hs : Core size (queued.call :: hand) s) :
    Core size hand { s with queue := s.queue ++ [queued] } := by
  refine ⟨?_, hs.rotation, hs.flight, hs.log⟩
  intro call
  have hpl := hs.placed call
  simp only [places, countP_append, countP_singleton, count_cons,
    decide_eq_true_eq, beq_iff_eq, pending] at hpl ⊢
  omega

lemma core_call {hand' new} (hs : Core size hand s) (hid : new.taskId = none)
    (hsound : new.Sound s.nextTaskId s.terminated) (hhand : ∀ call, hand'.count call =
      hand.count call + if call = s.calls.length then new.pending.toNat else 0) :
    Core size hand' { s with calls := s.calls ++ [new] } := by
  have hread (call : ℕ) : ((s.calls ++ [new])[call]?).bind RunCall.taskId =
      (s.calls[call]?).bind RunCall.taskId := by
    rw [getElem?_append]
    split_ifs with hlt
    · rfl
    · rw [getElem?_eq_none (not_lt.mp hlt), getElem?_singleton]
      split_ifs <;> simp [hid]
  refine ⟨?_, hs.rotation, ?_, ?_, ?_⟩
  · intro call
    have hpl := hs.placed call
    have hpend : (pending { s with calls := s.calls ++ [new] } call).toNat =
        (s.pending call).toNat + if call = s.calls.length then new.pending.toNat else 0 := by
      simp only [pending, getElem?_append]
      by_cases hlt : call < s.calls.length
      · have hne : call ≠ s.calls.length := by omega
        simp [hlt, hne]
      · by_cases heq : call = s.calls.length
        · simp [heq]
        · have hsub : ¬ call - s.calls.length = 0 := by omega
          simp [hlt, heq, hsub]
    have := hhand call
    simp only [places] at hpl ⊢
    omega
  · intro worker current hcur
    exact (hread current.call).trans (hs.flight worker current hcur)
  · intro c hc
    rcases mem_append.mp hc with hold | hnew
    · exact hs.log.sound c hold
    · exact mem_singleton.mp hnew ▸ hsound
  · intro call call' id h h'
    rw [hread] at h h'
    exact hs.log.ids_inj call call' id h h'

lemma core_accept (hs : Core size hand s) :
    Core size (s.calls.length :: hand) { s with calls := s.calls ++ [⟨true, none, []⟩] } := by
  refine core_call hs rfl ⟨nofun, by simp, nofun, nofun⟩ ?_
  intro call
  by_cases h : call = s.calls.length
  · simp [h, RunCall.pending]
  · simp [h, Ne.symm h]

lemma core_refuse (hs : Core size hand s) (error) :
    Core size hand { s with calls := s.calls ++ [⟨false, none, [.rejected error]⟩] } := by
  refine core_call hs rfl ⟨nofun, by simp, by simp, nofun⟩ ?_
  intro call
  simp [RunCall.pending]

/-- A settlement that fits the call it settles. -/
def Fits (s : Pool P V) (call : ℕ) : Settlement V → Prop
  | .resolved responseId _ => ∃ id : ℕ,
      (s.calls[call]?).bind RunCall.taskId = some id ∧ (id : ℚ) = responseId
  | .rejected error => ∀ state, error = .poolClosed state → s.terminated = true

lemma core_settle {call settlement} (hs : Core size (call :: hand) s)
    (hfits : Fits s call settlement) : Core size hand (s.settleCall call settlement) := by
  obtain ⟨hpend, held, hheld, -, hopen⟩ := pending_of_hand hs
  have htas (other : ℕ) : ((s.settleCall call settlement).calls[other]?).bind RunCall.taskId =
      (s.calls[other]?).bind RunCall.taskId :=
    taskId_modify (f := fun c => { c with settlements := c.settlements ++ [settlement] })
      (fun _ => rfl) call other
  refine ⟨?_, hs.rotation, ?_, forall_mem_modify hs.log.sound ?_, ?_⟩
  · intro other
    have hpl := hs.placed other
    simp only [places, count_cons, beq_iff_eq] at hpl ⊢
    by_cases h : call = other
    · subst h
      have hcl : (s.settleCall call settlement).pending call = false := by
        simp [pending, settleCall, hheld, RunCall.pending]
      rw [hcl]
      simp only [if_true, hpend, Bool.toNat_true, Bool.toNat_false, settleCall] at hpl ⊢
      omega
    · have hsame : (s.settleCall call settlement).pending other = s.pending other := by
        simp only [pending, settleCall, getElem?_modify, h]
        cases s.calls[other]? <;> rfl
      rw [hsame, ← hpl]
      simp [h, settleCall]
  · intro worker current hcur
    exact (htas current.call).trans (hs.flight worker current hcur)
  · intro c hc
    obtain rfl : held = c := Option.some.inj (hheld.symm.trans hc)
    have hsound := hs.log.sound held (mem_of_getElem? hc)
    refine ⟨hsound.id_lt, by simp [hopen], ?_, ?_⟩
    · intro responseId value hmem
      simp only [hopen, nil_append, mem_singleton] at hmem
      subst hmem
      obtain ⟨id, hid, heq⟩ := hfits
      rw [hheld, Option.bind_some] at hid
      exact ⟨id, hid, heq⟩
    · intro hrun _ state hmem
      simp only [hopen, nil_append, mem_singleton] at hmem
      subst hmem
      have hterm := hfits state rfl
      rw [show s.terminated = false from hrun] at hterm
      cases hterm
  · intro a b id ha hb
    rw [htas] at ha hb
    exact hs.log.ids_inj a b id ha hb

/-! ### The workers -/

/-- Changing the record of one worker. -/
lemma rotation_modify {f} (h : Rotation size s.records s.workers s.idle)
    (hcond : Condition ((s.records[worker]?).map f) (worker ∈ s.workers) (worker ∈ s.idle)) :
    Rotation size (s.records.modify worker f) s.workers s.idle := by
  refine rotation_of_others worker h ?_ ?_ h.nodup h.idle_nodup h.sized
  · intro other hoth
    simp [Ne.symm hoth]
  · rw [getElem?_modify]
    simpa using hcond

lemma currentOf_assign (hfree : Free s worker) (queued) :
    (s.assign worker queued).currentOf worker =
      some ⟨s.nextTaskId, queued.task, queued.timeoutMs, queued.call⟩ := by
  simp [currentOf, assign, hfree.record]

lemma core_assign (hs : Core size (queued.call :: hand) s) (hfree : Free s worker) :
    Core size hand (s.assign worker queued) := by
  have htas (call : ℕ) : ((s.assign worker queued).calls[call]?).bind RunCall.taskId =
      if queued.call = call then (s.calls[call]?).map (fun _ => s.nextTaskId)
      else (s.calls[call]?).bind RunCall.taskId := by
    rw [assign, getElem?_modify]
    cases s.calls[call]? <;> by_cases h : queued.call = call <;> simp [h]
  obtain ⟨hpend, held, hheld, -, hopen⟩ := pending_of_hand hs
  refine ⟨?_, rotation_modify hs.rotation ?_, ?_, forall_mem_modify ?_ ?_, ?_⟩
  · intro call
    have hpl := hs.placed call
    have hcnt := countP_modify (f := fun record => { record with
      current := some ⟨s.nextTaskId, queued.task, queued.timeoutMs, queued.call⟩ })
      (WorkerRecord.runs call) hfree.record
    have hsame : (s.assign worker queued).pending call = s.pending call := by
      simp only [pending, assign, getElem?_modify]
      cases s.calls[call]? <;> by_cases h : queued.call = call <;> simp [h, RunCall.pending]
    rw [hsame]
    simp only [places, assign] at hpl ⊢
    by_cases h : queued.call = call
    · simp [WorkerRecord.runs, h] at hcnt hpl ⊢
      omega
    · simp [WorkerRecord.runs, h] at hcnt hpl ⊢
      omega
  · rw [hfree.record]
    exact ⟨fun _ => hfree.mem, fun _ => ⟨_, rfl⟩, fun h => absurd h hfree.not_idle⟩
  · intro other current hcur
    rw [htas]
    by_cases h : worker = other
    · subst h
      rw [currentOf_assign hfree] at hcur
      cases hcur
      simp [hheld]
    · have hold : s.currentOf other = some current := by simpa [currentOf, assign, h] using hcur
      rw [if_neg, hs.flight other current hold]
      -- a call in hand is on no worker
      intro heq
      have hpl := hs.placed queued.call
      have hruns := runs_pos hold
      simp only [places, count_cons, beq_self_eq_true, if_true, hpend, ← heq,
        Bool.toNat_true] at hpl hruns
      omega
  · intro c hc
    have hsound := hs.log.sound c hc
    exact ⟨fun id hid => Nat.lt_succ_of_lt (hsound.id_lt id hid), hsound.once, hsound.own,
      hsound.faithful⟩
  · intro c hc
    obtain rfl : held = c := Option.some.inj (hheld.symm.trans hc)
    have hsound := hs.log.sound held (mem_of_getElem? hc)
    refine ⟨?_, hsound.once, by simp [hopen], hsound.faithful⟩
    intro id hid
    cases hid
    exact Nat.lt_succ_self _
  · -- the new id is above every old one
    have hbelow (call id : ℕ) (h : (s.calls[call]?).bind RunCall.taskId = some id) :
        id ≠ s.nextTaskId := by
      obtain ⟨c, hc, hid⟩ := Option.bind_eq_some_iff.mp h
      exact ((hs.log.sound c (mem_of_getElem? hc)).id_lt id hid).ne
    have hnew (call id : ℕ) (h : (s.calls[call]?).map (fun _ => s.nextTaskId) = some id) :
        s.nextTaskId = id := by
      obtain ⟨_, -, hid⟩ := Option.map_eq_some_iff.mp h
      exact hid
    intro call call' id h h'
    rw [htas] at h h'
    split_ifs at h h' with hc hc' hc'
    · exact hc.symm.trans hc'
    · exact absurd (hnew call id h).symm (hbelow call' id h')
    · exact absurd (hnew call' id h').symm (hbelow call id h)
    · exact hs.log.ids_inj call call' id h h'

lemma core_take (hs : Core size hand s) (hcur : s.currentOf worker = some current) :
    Core size (current.call :: hand) (s.setCurrent worker none) ∧
      Free (s.setCurrent worker none) worker := by
  obtain ⟨hrec, hmem, hidle⟩ := record_of_current hs.rotation hcur
  refine ⟨⟨?_, rotation_modify hs.rotation ?_, ?_, hs.log⟩, ?_, hmem, hidle⟩
  · intro call
    have hpl := hs.placed call
    have hcnt := countP_modify (f := fun record => { record with current := none })
      (WorkerRecord.runs call) hrec
    have hsame : (s.setCurrent worker none).pending call = s.pending call := rfl
    rw [hsame]
    simp only [places, setCurrent] at hpl ⊢
    by_cases h : current.call = call
    · simp [WorkerRecord.runs, h] at hcnt ⊢
      omega
    · simp [WorkerRecord.runs, h] at hcnt ⊢
      omega
  · rw [hrec]
    exact ⟨fun _ => hmem, fun _ => ⟨_, rfl⟩, fun h => absurd h hidle⟩
  · intro other running hrun
    refine hs.flight other running ?_
    by_cases h : worker = other
    · subst h
      simp [currentOf, setCurrent, hrec] at hrun
    · simpa [currentOf, setCurrent, h] using hrun
  · simp [setCurrent, hrec]

lemma core_idle (hs : Core size hand s) (hfree : Free s worker) :
    Core size hand { s with idle := s.idle ++ [worker] } := by
  refine ⟨hs.placed, ?_, hs.flight, hs.log⟩
  refine rotation_of_others worker hs.rotation ?_ ?_ hs.rotation.nodup ?_ hs.rotation.sized
  · intro other hoth
    simp [hoth]
  · exact ⟨fun _ => hfree.mem, fun _ => ⟨_, hfree.record⟩, fun _ => ⟨hfree.mem, hfree.record⟩⟩
  · refine nodup_append.mpr ⟨hs.rotation.idle_nodup, nodup_singleton _, ?_⟩
    intro other hoth new hnew
    rw [mem_singleton.mp hnew]
    exact fun h => hfree.not_idle (h ▸ hoth)

lemma core_markRetired (hs : Core size hand s) (hnone : s.currentOf worker = none) :
    Core size hand (s.markRetired worker) := by
  have hcur (other : ℕ) : (s.markRetired worker).currentOf other = s.currentOf other := by
    simp only [currentOf, markRetired, getElem?_modify]
    cases s.records[other]? with
    | none => rfl
    | some record => by_cases h : worker = other <;> simp [h]
  refine ⟨?_, ?_, ?_, hs.log⟩
  · intro call
    have hpl := hs.placed call
    have hcnt : (s.markRetired worker).records.countP (WorkerRecord.runs call) =
        s.records.countP (WorkerRecord.runs call) := by
      cases hrec : s.records[worker]? with
      | none =>
        simp only [markRetired]
        rw [modify_eq_self]
        exact List.getElem?_eq_none_iff.mp hrec
      | some record =>
        have := countP_modify (f := fun record => { record with retired := true })
          (WorkerRecord.runs call) hrec
        simp only [WorkerRecord.runs] at this ⊢
        simp only [markRetired]
        omega
    simp only [places] at hpl ⊢
    rw [hcnt]
    exact hpl
  · refine rotation_of_others worker hs.rotation ?_ ?_ (hs.rotation.nodup.erase worker)
      (hs.rotation.idle_nodup.erase worker) (length_erase_le.trans hs.rotation.sized)
    · intro other hoth
      refine ⟨?_, mem_erase_of_ne hoth, mem_erase_of_ne hoth⟩
      simp [markRetired, Ne.symm hoth]
    · refine ⟨fun h => absurd ((hcur worker).trans hnone) h, ?_, ?_⟩
      · exact fun h => absurd h hs.rotation.nodup.not_mem_erase
      · exact fun h => absurd h hs.rotation.idle_nodup.not_mem_erase
  · intro other running hrun
    rw [hcur] at hrun
    exact hs.flight other running hrun

/-- The pool is not closed and nobody has been told that it is. -/
structure Live (s : Pool P V) : Prop where
  not_closed : s.state ≠ .closed
  no_answer : s.drainResolved = false
  no_destroy : s.destroying = false

/-- What `acquireWorker` can do. -/
inductive AcquireSpec (settings : PoolSettings) (threads : Threads) (s : Pool P V) :
    Acquired × Pool P V → Prop where
  | worker {worker : ℕ} {t : Pool P V} : Free t worker → t.queue = s.queue → t.calls = s.calls →
      (Live s → Live t) → (s.idle ≠ [] ∨ s.workers.length < settings.size) →
      AcquireSpec settings threads s (.worker worker, t)
  | none : s.idle = [] → settings.size ≤ s.workers.length →
      AcquireSpec settings threads s (.none, s)
  | threw (created : ℕ) : threads.createWorkerThrows s.created = true →
      AcquireSpec settings threads s (.threw, { s with created := created })

lemma core_acquire {settings} (threads) (hs : Core settings.size hand s) :
    AcquireSpec settings threads s (s.acquireWorker settings threads) ∧
      Core settings.size hand (s.acquireWorker settings threads).2 := by
  unfold acquireWorker
  cases hlast : s.idle.getLast? with
  | some worker =>
    obtain ⟨before, hidle⟩ := getLast?_eq_some_iff.mp hlast
    have hmem : worker ∈ s.idle := by simp [hidle]
    obtain ⟨hworker, hrecord⟩ := (hs.rotation.condition worker).free hmem
    have hdrop : s.idle.dropLast = before := by simp [hidle]
    have hnodup := hs.rotation.idle_nodup
    rw [hidle, nodup_append] at hnodup
    have hnot : worker ∉ s.idle.dropLast := by
      rw [hdrop]
      exact fun h => hnodup.2.2 worker h worker (mem_singleton_self _) rfl
    refine ⟨.worker ⟨hrecord, hworker, hnot⟩ rfl rfl (fun h => ⟨h.1, h.2, h.3⟩)
      (.inl (ne_nil_of_mem hmem)), hs.placed, ?_, hs.flight, hs.log⟩
    refine rotation_of_others worker hs.rotation ?_ ?_ hs.rotation.nodup
      (by rw [hdrop]; exact hnodup.1) hs.rotation.sized
    · intro other hother
      simp [hidle, hother]
    · exact ⟨fun _ => hworker, fun _ => ⟨_, hrecord⟩, fun h => absurd h hnot⟩
  | none =>
    have hempty : s.idle = [] := getLast?_eq_none_iff.mp hlast
    dsimp only
    split_ifs with hfull hthrows
    · exact ⟨.none hempty hfull, hs⟩
    · exact ⟨.threw _ hthrows, hs.placed, hs.rotation, hs.flight, hs.log⟩
    · have hnew : (s.records ++ [⟨none, false⟩])[s.records.length]? =
          some (⟨none, false⟩ : WorkerRecord) := by simp
      have hcurrent (other : ℕ) : ((s.records ++ [⟨none, false⟩])[other]?).bind
          WorkerRecord.current = (s.records[other]?).bind WorkerRecord.current := by
        rw [getElem?_append]
        split_ifs with hlt
        · rfl
        · rw [getElem?_eq_none (not_lt.mp hlt), getElem?_singleton]
          split_ifs <;> rfl
      have hfresh : s.records.length ∉ s.workers := by
        intro hmem
        obtain ⟨running, hrecord⟩ := (hs.rotation.condition _).live hmem
        simp at hrecord
      refine ⟨.worker ⟨hnew, by simp, by simp [hempty]⟩ rfl rfl (fun h => ⟨h.1, h.2, h.3⟩)
        (.inr (not_le.mp hfull)), ?_, ?_, ?_, hs.log⟩
      · intro call
        have hplaced := hs.placed call
        simp only [places, pending] at hplaced ⊢
        simpa [WorkerRecord.runs] using hplaced
      · refine rotation_of_others s.records.length hs.rotation ?_ ?_
          (nodup_append.mpr ⟨hs.rotation.nodup, nodup_singleton _, ?_⟩)
          hs.rotation.idle_nodup (by simpa using not_le.mp hfull)
        · intro other hother
          refine ⟨?_, by simp [hother], Iff.rfl⟩
          rw [getElem?_append]
          split_ifs with hlt
          · rfl
          · have hsub : other - s.records.length ≠ 0 := by omega
            rw [getElem?_eq_none (not_lt.mp hlt), getElem?_singleton, if_neg hsub]
        · exact ⟨fun _ => by simp, fun _ => ⟨_, hnew⟩, fun h => by simp [hempty] at h⟩
        · rintro other hother new hlast rfl
          exact hfresh (mem_singleton.mp hlast ▸ hother)
      · intro other running hrunning
        exact hs.flight other running ((hcurrent other).symm.trans hrunning)

lemma current_eq_none (hs : Core size [] s) (hquiet : ∀ call, s.pending call = false) (worker) :
    s.currentOf worker = none := by
  cases hcur : s.currentOf worker with
  | none => rfl
  | some current =>
    have hpl := hs.placed current.call
    have hruns := runs_pos hcur
    simp only [places, hquiet, Bool.toNat_false] at hpl
    omega

/-- The threads of a pool in which nothing is pending may be destroyed. -/
lemma core_destroyAll (hs : Core size [] s) (hquiet : ∀ call, s.pending call = false) :
    Core size [] s.destroyAll := by
  have hcur (worker : ℕ) : s.destroyAll.currentOf worker = none := by
    have hnone := current_eq_none hs hquiet worker
    simp only [currentOf, destroyAll, getElem?_mapIdx] at hnone ⊢
    cases hrec : s.records[worker]? with
    | none => rfl
    | some record =>
      rw [hrec] at hnone
      by_cases h : worker ∈ s.workers
      · simpa [h] using hnone
      · simpa [h] using hnone
  refine ⟨?_, ⟨?_, .nil, .nil, Nat.zero_le _⟩, ?_, hs.log⟩
  · intro call
    have hpl := hs.placed call
    have hzero : s.destroyAll.records.countP (WorkerRecord.runs call) = 0 := by
      rw [countP_eq_zero]
      intro record hrec
      obtain ⟨worker, hwk⟩ := mem_iff_getElem?.mp hrec
      have hnone := hcur worker
      rw [currentOf, hwk] at hnone
      simp [WorkerRecord.runs, show record.current = none from hnone]
    have hsame : s.destroyAll.pending call = s.pending call := rfl
    rw [hsame]
    simp only [places] at hpl ⊢
    rw [hzero]
    rw [hquiet] at hpl ⊢
    simp only [Bool.toNat_false] at hpl ⊢
    show [].count call + s.queue.countP _ + 0 = 0
    omega
  · exact fun worker => ⟨fun h => absurd (hcur worker) h, nofun, nofun⟩
  · intro worker running hrun
    rw [hcur worker] at hrun
    cases hrun

end Pool

end BoilerplateExpress.Workers

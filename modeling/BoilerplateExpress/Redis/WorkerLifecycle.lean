import BoilerplateExpress.Redis.StreamWorker

/-!
# Workers that start, stop and crash

`createStreamWorker` of `redis/stream.worker.ts` as a whole, for any number of worker objects
on one in-memory group. A thread is one call of a method on a worker: `start` and the loop it
leaves behind, `runOnce`, or `stop`. A thread has one tick at most, and every tick goes
through the steps of `stepGroup`.

Time passes freely, since a process may be suspended. A crash takes all threads of a worker with
it and leaves the group alone; the worker that takes its place has the same name. The group
exists from the beginning. Nothing in the program reads the fields of `History`.
-/
namespace BoilerplateExpress.Redis

/-- What a thread is waiting for. -/
inductive Activity (ι : Type) where
  | free
  /-- `start` awaits `ensureGroup`. -/
  | starting
  /-- The loop is in a tick. -/
  | ticking
  /-- The loop is between a failed tick and the next one. -/
  | pausing
  | once
  /-- `stop` awaits the promise of the loop, if there is one. -/
  | awaitingLoop (loop : Option ι)
  /-- `stop` awaits `consumerPendingCount`. -/
  | counting
  /-- The count was zero; `deleteConsumer` comes next. -/
  | deleting
  deriving DecidableEq

def Activity.isLoop {ι : Type} : Activity ι → Bool
  | .ticking => true
  | .pausing => true
  | _ => false

/-- The variables of a worker object. The loop is named by its thread. -/
structure Control (ι : Type) where
  running : Bool := false
  stopping : Bool := false
  loop : Option ι := none
  lastReclaimAt : Option ℤ := none

/-- An entry taken up by `processEntries`, with the number of the delivery in progress. -/
structure TakenUp where
  id : EntryId
  deliveryCount : ℕ
  maxDeliveries : ℕ
  parked : Bool
  deriving DecidableEq

/-- `counts` has the delivery counts of the group as of the thread's last delivery. The
entries in `finished` had a handler or an `onPark` resolve. -/
structure History (ι : Type) where
  delivered : List EntryId := []
  finished : List EntryId := []
  counts : ι → EntryId → ℕ := fun _ _ => 0
  taken : List TakenUp := []

structure Deployment (κ ι : Type) where
  group : GroupState ι
  control : κ → Control ι
  activity : ι → Activity ι
  history : History ι

inductive DeploymentAction (κ ι : Type) where
  | elapse (ms : ℕ)
  | append (fields : List (Text × Text)) (maxLen : Option ℕ)
  | start (w : ι)
  | started (w : ι) (reading : ℤ)
  | startFailed (w : ι)
  | runOnce (w : ι) (shouldReclaim : Bool)
  /-- A step of a tick. -/
  | turn (action : GroupAction ι)
  /-- The command or the `onPark` in progress fails, which ends the tick. -/
  | fail (w : ι)
  | ticked (w : ι) (reading : ℤ)
  | resume (w : ι) (reading : ℤ)
  | stop (w : ι)
  | loopEnded (w : ι)
  | countPending (w : ι)
  | deleteConsumer (w : ι)
  /-- The command in progress of a `stop` fails, which is swallowed. -/
  | retireFailed (w : ι)
  | crash (k : κ)

/-- The entries of a batch just delivered. -/
def WorkerPhase.batch : WorkerPhase → List StreamEntry
  | .processing batch => batch.entries
  | _ => []

def WorkerPhase.isParking : WorkerPhase → Bool
  | .parking _ _ => true
  | _ => false

namespace History

def deliver {ι : Type} [DecidableEq ι] (h : History ι) (after : GroupState ι) (w : ι) :
    History ι :=
  { h with
    delivered := (after.workers w).phase.batch.map StreamEntry.id ++ h.delivered
    counts := Function.update h.counts w (fun id =>
      ((after.stream.pending.get id).map PendingRecord.deliveryCount).getD 0) }

/-- What a step of a tick adds to the history. -/
def record {ι : Type} [DecidableEq ι] (options : ι → ResolvedOptions) (h : History ι)
    (before after : GroupState ι) : GroupAction ι → History ι
  | .claim w => h.deliver after w
  | .readGroup w => h.deliver after w
  | .next w =>
    match (before.workers w).phase.batch with
    | [] => h
    | e :: _ => { h with
        taken := ⟨e.id, h.counts w e.id, (options w).maxDeliveries,
          (after.workers w).phase.isParking⟩ :: h.taken }
  | .resolve w =>
    match (before.workers w).phase with
    | .handling entry _ _ => { h with finished := entry.id :: h.finished }
    | _ => h
  | .parked w =>
    match (before.workers w).phase with
    | .parking parked _ => { h with finished := parked.entry.id :: h.finished }
    | _ => h
  | _ => h

end History

namespace Deployment

variable {κ ι : Type} [DecidableEq κ] [DecidableEq ι]

def setActivity (s : Deployment κ ι) (w : ι) (activity : Activity ι) : Deployment κ ι :=
  { s with activity := Function.update s.activity w activity }

def setControl (s : Deployment κ ι) (k : κ) (control : Control ι) : Deployment κ ι :=
  { s with control := Function.update s.control k control }

def setStream (s : Deployment κ ι) (stream : MemoryStream) : Deployment κ ι :=
  { s with group := { s.group with stream := stream } }

variable (owner : ι → κ) (options : κ → ResolvedOptions)

/-- The head of the loop: the next tick, or the end. -/
def loopHead (s : Deployment κ ι) (w : ι) (reading : ℤ) : Deployment κ ι :=
  let control := s.control (owner w)
  if control.stopping then s.setActivity w .free
  else
    let x := Worker.tick (options (owner w))
      { s.group.workers w with lastReclaimAt := control.lastReclaimAt } reading
    ({ s with group := s.group.setWorker w x }.setControl (owner w)
      { control with lastReclaimAt := x.lastReclaimAt }).setActivity w .ticking

/-- Where a failed tick leaves its thread. -/
def afterFailure (s : Deployment κ ι) (w : ι) : Activity ι :=
  match s.activity w with
  | .ticking => if (s.control (owner w)).stopping then .free else .pausing
  | _ => .free

/-- All threads of a worker end where they are, and its variables are lost. -/
def crash (s : Deployment κ ι) (k : κ) : Deployment κ ι :=
  { s with
    group := { s.group with workers := fun w => if owner w = k then {} else s.group.workers w }
    control := Function.update s.control k {}
    activity := fun w => if owner w = k then .free else s.activity w }

variable [Fintype ι] {E : Type} (decode : StreamEntry → Except Text E)

def step (s : Deployment κ ι) : DeploymentAction κ ι → Option (Deployment κ ι)
  | .elapse ms => some { s with group := { s.group with now := s.group.now + ms } }
  | .append fields maxLen => some (s.setStream (s.group.stream.append s.group.now fields maxLen))
  | .start w =>
    if s.activity w = .free then
      if (s.control (owner w)).running then some s
      else some ((s.setControl (owner w)
        { s.control (owner w) with running := true, stopping := false }).setActivity w .starting)
    else none
  | .started w reading =>
    if s.activity w = .starting then
      some ((s.setControl (owner w) { s.control (owner w) with loop := some w }).loopHead
        owner options w reading)
    else none
  | .startFailed w => if s.activity w = .starting then some (s.setActivity w .free) else none
  | .runOnce w shouldReclaim =>
    if s.activity w = .free then
      some ({ s with
        group := s.group.setWorker w ((s.group.workers w).startTick shouldReclaim)
        }.setActivity w .once)
    else none
  | .turn action =>
    match action.turnOf with
    | none => none
    | some _ =>
      (stepGroup decode (options ∘ owner) s.group action).map (fun group =>
        { s with
          group := group
          history := s.history.record (options ∘ owner) s.group group action })
  | .fail w =>
    (stepGroup decode (options ∘ owner) s.group (.fail w)).map (fun group =>
      { s with group := group }.setActivity w (s.afterFailure owner w))
  | .ticked w reading =>
    match (s.group.workers w).phase with
    | .idle =>
      match s.activity w with
      | .ticking => some (s.loopHead owner options w reading)
      | .once => some (s.setActivity w .free)
      | _ => none
    | _ => none
  | .resume w reading =>
    if s.activity w = .pausing then some (s.loopHead owner options w reading) else none
  | .stop w =>
    if s.activity w = .free then
      if (s.control (owner w)).running then
        some ((s.setControl (owner w) { s.control (owner w) with stopping := true }).setActivity
          w (.awaitingLoop (s.control (owner w)).loop))
      else some s
    else none
  | .loopEnded w =>
    match s.activity w with
    | .awaitingLoop loop =>
      if loop.all (fun v => !(s.activity v).isLoop) then
        some ((s.setControl (owner w)
          { s.control (owner w) with loop := none, running := false }).setActivity w .counting)
      else none
    | _ => none
  | .countPending w =>
    if s.activity w = .counting then
      if s.group.stream.consumerPendingCount (options (owner w)).consumer = 0 then
        some (s.setActivity w .deleting)
      else some (s.setActivity w .free)
    else none
  | .deleteConsumer w =>
    if s.activity w = .deleting then
      some ((s.setStream
        (s.group.stream.deleteConsumer (options (owner w)).consumer)).setActivity w .free)
    else none
  | .retireFailed w =>
    if s.activity w = .counting ∨ s.activity w = .deleting then some (s.setActivity w .free)
    else none
  | .crash k => some (s.crash owner k)

/-- Nothing has been called yet. -/
def init (stream : MemoryStream) : Deployment κ ι :=
  ⟨.start stream, fun _ => {}, fun _ => .free, {}⟩

end Deployment

/-- The entries a worker has still to take up. -/
def WorkerPhase.remaining : WorkerPhase → List StreamEntry
  | .processing batch => batch.entries
  | .handling _ _ batch => batch.entries
  | .acking _ batch => batch.entries
  | .parking _ batch => batch.entries
  | .parkAcking _ batch => batch.entries
  | _ => []

/-- The entry whose `XACK` comes next. -/
def WorkerPhase.acks : WorkerPhase → Option EntryId
  | .acking entry _ => some entry.id
  | .parkAcking parked _ => some parked.entry.id
  | _ => none

/-- The entries of a batch with the time they were delivered at. -/
def Batch.held (batch : Batch) : List (EntryId × ℕ) :=
  batch.entries.map (fun e => (e.id, batch.deliveredAt))

/-- The deliveries whose handlers the worker has not finished. -/
def WorkerPhase.held : WorkerPhase → List (EntryId × ℕ)
  | .processing batch => batch.held
  | .handling entry _ batch => (entry.id, batch.deliveredAt) :: batch.held
  | .acking _ batch => batch.held
  | .parking _ batch => batch.held
  | .parkAcking _ batch => batch.held
  | _ => []

/-- A tick that holds no entries. -/
structure WorkerPhase.EmptyHanded (phase : WorkerPhase) : Prop where
  remaining : phase.remaining = []
  acks : phase.acks = none
  startedAt : phase.startedAt = none

lemma WorkerPhase.EmptyHanded.held {phase : WorkerPhase} (h : phase.EmptyHanded) :
    phase.held = [] := by
  cases phase with
  | handling entry startedAt batch => cases h.startedAt
  | processing batch => exact List.map_eq_nil_iff.mpr h.remaining
  | acking entry batch => exact List.map_eq_nil_iff.mpr h.remaining
  | parking parked batch => exact List.map_eq_nil_iff.mpr h.remaining
  | parkAcking parked batch => exact List.map_eq_nil_iff.mpr h.remaining
  | _ => rfl

lemma emptyHanded_startTick (x : Worker) (shouldReclaim) :
    (x.startTick shouldReclaim).phase.EmptyHanded := by
  cases shouldReclaim <;> exact ⟨rfl, rfl, rfl⟩

lemma emptyHanded_tick (options) (x : Worker) (reading) :
    (x.tick options reading).phase.EmptyHanded := by
  unfold Worker.tick
  split_ifs <;> exact emptyHanded_startTick _ _

lemma emptyHanded_next {E batch} (decode : StreamEntry → Except Text E) (now)
    (hents : batch.entries = []) : (Worker.next decode now batch).EmptyHanded := by
  simp only [Worker.next, hents]
  split_ifs <;> exact ⟨rfl, rfl, rfl⟩

/-- Taking up an entry parks it if it does not decode, and else invokes its handler. -/
lemma next_takesUp {E e rest batch} (decode : StreamEntry → Except Text E) (now)
    (hents : batch.entries = e :: rest) :
    (Worker.next decode now batch).remaining = rest ∧ (Worker.next decode now batch).acks = none ∧
      (Worker.next decode now batch).isParking = !(decode e).isOk := by
  simp only [Worker.next, hents]
  cases decode e <;> exact ⟨rfl, rfl, rfl⟩

lemma reject_remaining (options) (x : Worker) (entry batch error) :
    (x.reject options entry batch error).phase.remaining = batch.entries ∧
      (x.reject options entry batch error).phase.acks = none ∧
      (x.reject options entry batch error).phase.held = batch.held ∧
      (x.reject options entry batch error).phase.startedAt = none := by
  unfold Worker.reject
  split_ifs <;> exact ⟨rfl, rfl, rfl, rfl⟩

namespace GroupState

variable {ι E : Type} [DecidableEq ι]

@[simp] lemma setWorker_self (s : GroupState ι) (w x) :
    (s.setWorker w x).workers w = x := Function.update_self ..

lemma setWorker_of_ne {v w} (s : GroupState ι) (x) (h : v ≠ w) :
    (s.setWorker w x).workers v = s.workers v := Function.update_of_ne h ..

/-- The entries that a command hands out. -/
def handedOut (options : ι → ResolvedOptions) (s : GroupState ι) : GroupAction ι → List StreamEntry
  | .readGroup w => (s.stream.readGroup s.now (options w).consumer (options w).batchSize).2
  | .claim w =>
    match (s.workers w).phase with
    | .claiming pending =>
      (s.stream.claim s.now (options w).consumer (options w).minIdleMs
        (pending.map PendingEntry.id)).2
    | _ => []
  | _ => []

/-- Everything a step of a tick can do. -/
inductive Turn (decode : StreamEntry → Except Text E) (options : ι → ResolvedOptions)
    (s : GroupState ι) (w : ι) : GroupAction ι → GroupState ι → Prop where
  | lists (phase : WorkerPhase) (hempty : phase.EmptyHanded) :
      Turn decode options s w (.pendingEntries w) (s.setPhase w phase)
  | reads (u : MemoryStream) (batch : Batch) (x : Worker) (hx : x.phase = .processing batch)
      (htaken : batch.entries = s.handedOut options (.readGroup w))
      (hat : batch.deliveredAt = s.now)
      (hhands : MemoryStream.Hands s.now (options w).minIdleMs (options w).consumer [] s.stream u
        batch.entries) :
      Turn decode options s w (.readGroup w) ({ s with stream := u }.setWorker w x)
  | claims (u : MemoryStream) (batch : Batch) (x : Worker) (ids : List EntryId)
      (hx : x.phase = .processing batch) (htaken : batch.entries = s.handedOut options (.claim w))
      (hat : batch.deliveredAt = s.now)
      (hhands : MemoryStream.Hands s.now (options w).minIdleMs (options w).consumer ids s.stream u
        batch.entries) :
      Turn decode options s w (.claim w) ({ s with stream := u }.setWorker w x)
  | takesUp (batch : Batch) (hphase : (s.workers w).phase = .processing batch) :
      Turn decode options s w (.next w) (s.setPhase w (Worker.next decode s.now batch))
  | resolves (entry : StreamEntry) (startedAt : ℕ) (batch : Batch)
      (hphase : (s.workers w).phase = .handling entry startedAt batch) :
      Turn decode options s w (.resolve w) (s.setPhase w (.acking entry batch))
  | rejects (entry : StreamEntry) (startedAt : ℕ) (batch : Batch) (error : Text)
      (hphase : (s.workers w).phase = .handling entry startedAt batch) :
      Turn decode options s w (.reject w error)
        (s.setWorker w ((s.workers w).reject (options w) entry batch error))
  | acks (id : EntryId) (batch : Batch) (x : Worker) (hx : x.phase = .processing batch)
      (hacks : (s.workers w).phase.acks = some id)
      (hremaining : (s.workers w).phase.remaining = batch.entries)
      (hheld : (s.workers w).phase.held = batch.held) :
      Turn decode options s w (.ack w) ({ s with stream := s.stream.ack id }.setWorker w x)
  | parks (parked : ParkedEntry) (batch : Batch)
      (hphase : (s.workers w).phase = .parking parked batch) :
      Turn decode options s w (.parked w) (s.setPhase w (.parkAcking parked batch))

lemma turn_of_stepGroup {options s action t} [Fintype ι] {decode : StreamEntry → Except Text E}
    {w : ι} (hw : action.turnOf = some w) (h : stepGroup decode options s action = some t) :
    Turn decode options s w action t := by
  cases action with
  | pendingEntries v =>
    cases hw
    simp only [stepGroup] at h
    split at h
    · split at h
      · cases h
        exact Turn.lists _ ⟨rfl, rfl, rfl⟩
      · cases h
        exact Turn.lists _ ⟨rfl, rfl, rfl⟩
    · cases h
  | claim v =>
    cases hw
    simp only [stepGroup] at h
    split at h
    · next pending hphase =>
        cases h
        refine Turn.claims _ _ _ _ rfl ?_ rfl (MemoryStream.hands_addConsumer
          (MemoryStream.hands_claimFrom (options w).minIdleMs.pos _ _ _ _ _ (fun _ h => h)))
        simp [handedOut, hphase]
    · cases h
  | readGroup v =>
    cases hw
    simp only [stepGroup] at h
    split at h
    · cases h
      exact Turn.reads _ _ _ rfl rfl rfl
        (MemoryStream.hands_readGroup (options w).minIdleMs.pos _ _ _ _)
    · cases h
  | next v =>
    cases hw
    simp only [stepGroup] at h
    split at h
    · next batch hphase =>
        cases h
        exact Turn.takesUp batch hphase
    · cases h
  | resolve v =>
    cases hw
    simp only [stepGroup] at h
    split at h
    · next entry startedAt batch hphase =>
        cases h
        exact Turn.resolves entry startedAt batch hphase
    · cases h
  | reject v error =>
    cases hw
    simp only [stepGroup] at h
    split at h
    · next entry startedAt batch hphase =>
        cases h
        exact Turn.rejects entry startedAt batch error hphase
    · cases h
  | ack v =>
    cases hw
    simp only [stepGroup] at h
    split at h
    · next entry batch hphase =>
        cases h
        exact Turn.acks entry.id batch _ rfl (by rw [hphase]; rfl) (by rw [hphase]; rfl)
          (by rw [hphase]; rfl)
    · next parked batch hphase =>
        cases h
        exact Turn.acks parked.entry.id batch _ rfl (by rw [hphase]; rfl) (by rw [hphase]; rfl)
          (by rw [hphase]; rfl)
    · cases h
  | parked v =>
    cases hw
    simp only [stepGroup] at h
    split at h
    · next parked batch hphase =>
        cases h
        exact Turn.parks parked batch hphase
    · cases h
  | _ => cases hw

end GroupState

namespace Deployment

variable {κ ι E : Type}

/-- A step that leaves the stream and the history alone. A worker it touches holds no entries
afterwards, and no `stop` gets as far as deleting its consumer. -/
structure Quiet (s t : Deployment κ ι) : Prop where
  stream : t.group.stream = s.group.stream
  history : t.history = s.history
  workers : ∀ v, (t.group.workers v).phase = (s.group.workers v).phase ∨
    (t.group.workers v).phase.EmptyHanded
  deleting : ∀ v, t.activity v = .deleting → s.activity v = .deleting

lemma quiet_refl (s : Deployment κ ι) : Quiet s s := ⟨rfl, rfl, fun _ => .inl rfl, fun _ h => h⟩

lemma quiet_trans {s u t : Deployment κ ι} (hsu : Quiet s u) (hut : Quiet u t) : Quiet s t := by
  refine ⟨hut.stream.trans hsu.stream, hut.history.trans hsu.history, ?_, ?_⟩
  · intro v
    rcases hut.workers v with hsame | hemp
    · rw [hsame]
      exact hsu.workers v
    · exact .inr hemp
  · exact fun v h => hsu.deleting v (hut.deleting v h)

lemma quiet_setActivity [DecidableEq ι] (s : Deployment κ ι) (w) {activity}
    (h : activity ≠ .deleting) : Quiet s (s.setActivity w activity) := by
  refine ⟨rfl, rfl, fun _ => .inl rfl, ?_⟩
  intro v hv
  by_cases hvw : v = w
  · subst hvw
    exact absurd (by simpa [setActivity] using hv) h
  · simpa [setActivity, hvw] using hv

lemma quiet_setControl [DecidableEq κ] (s) (k : κ) (control : Control ι) :
    Quiet s (s.setControl k control) := ⟨rfl, rfl, fun _ => .inl rfl, fun _ h => h⟩

lemma quiet_setWorker {x} [DecidableEq ι] (s : Deployment κ ι) (w) (h : x.phase.EmptyHanded) :
    Quiet s { s with group := s.group.setWorker w x } := by
  refine ⟨rfl, rfl, ?_, fun _ h => h⟩
  intro v
  by_cases hvw : v = w
  · subst hvw
    exact .inr (by simpa using h)
  · exact .inl (by simp [GroupState.setWorker, hvw])

variable {owner : ι → κ} {options : κ → ResolvedOptions}

lemma afterFailure_ne_deleting (s : Deployment κ ι) (w) : s.afterFailure owner w ≠ .deleting := by
  unfold afterFailure
  split
  · split_ifs <;> exact nofun
  · exact nofun

lemma quiet_crash [DecidableEq κ] (s k) : Quiet s (s.crash owner k) := by
  refine ⟨rfl, rfl, ?_, ?_⟩
  · intro v
    by_cases hv : owner v = k
    · have hidle : ((s.crash owner k).group.workers v).phase = .idle := by simp [crash, hv]
      exact .inr (hidle ▸ ⟨rfl, rfl, rfl⟩)
    · exact .inl (by simp [crash, hv])
  · intro v hv
    by_cases hk : owner v = k
    · simp [crash, hk] at hv
    · simpa [crash, hk] using hv

variable [DecidableEq κ] [DecidableEq ι]

lemma quiet_loopHead (s w reading) : Quiet s (s.loopHead owner options w reading) := by
  unfold loopHead
  dsimp only
  split_ifs
  · exact quiet_setActivity s w nofun
  · refine quiet_trans (quiet_setWorker s w ?_) (quiet_trans (quiet_setControl _ _ _)
      (quiet_setActivity _ w nofun))
    exact emptyHanded_tick _ _ _

variable [Fintype ι] {decode : StreamEntry → Except Text E}

/-- Everything a step can do. -/
inductive Effect (owner : ι → κ) (options : κ → ResolvedOptions)
    (decode : StreamEntry → Except Text E) (s : Deployment κ ι) :
    DeploymentAction κ ι → Deployment κ ι → Prop where
  | quiet {action : DeploymentAction κ ι} {t : Deployment κ ι} (h : Quiet s t) :
      Effect owner options decode s action t
  | appends (fields : List (Text × Text)) (maxLen : Option ℕ) :
      Effect owner options decode s (.append fields maxLen)
        (s.setStream (s.group.stream.append s.group.now fields maxLen))
  | turns (w : ι) (action : GroupAction ι) (group : GroupState ι)
      (h : GroupState.Turn decode (options ∘ owner) s.group w action group) :
      Effect owner options decode s (.turn action) { s with
        group := group
        history := s.history.record (options ∘ owner) s.group group action }
  | counts (w : ι)
      (hzero : s.group.stream.consumerPendingCount (options (owner w)).consumer = 0) :
      Effect owner options decode s (.countPending w) (s.setActivity w .deleting)
  | deletes (w : ι) (hdeleting : s.activity w = .deleting) :
      Effect owner options decode s (.deleteConsumer w)
        ((s.setStream (s.group.stream.deleteConsumer (options (owner w)).consumer)).setActivity
          w .free)

omit [DecidableEq κ] in
lemma quiet_fail {s : Deployment κ ι} {w : ι} {group : GroupState ι}
    (h : stepGroup decode (options ∘ owner) s.group (.fail w) = some group) :
    Quiet s { s with group := group } := by
  have hidle : Quiet s { s with group := s.group.setPhase w .idle } :=
    quiet_setWorker s w ⟨rfl, rfl, rfl⟩
  simp only [stepGroup] at h
  split at h <;> first | (cases h; exact hidle) | cases h

lemma effect_of_step {s t action} (h : s.step owner options decode action = some t) :
    Effect owner options decode s action t := by
  cases action <;> simp only [step] at h
  case elapse ms =>
    cases h
    exact .quiet ⟨rfl, rfl, fun _ => .inl rfl, fun _ h => h⟩
  case append fields maxLen =>
    cases h
    exact .appends fields maxLen
  case start w =>
    split_ifs at h
    · cases h
      exact .quiet (quiet_refl s)
    · cases h
      exact .quiet (quiet_trans (quiet_setControl s _ _) (quiet_setActivity _ w nofun))
  case started w reading =>
    split_ifs at h
    cases h
    exact .quiet (quiet_trans (quiet_setControl s _ _) (quiet_loopHead _ w reading))
  case startFailed w =>
    split_ifs at h
    cases h
    exact .quiet (quiet_setActivity s w nofun)
  case runOnce w shouldReclaim =>
    split_ifs at h
    cases h
    exact .quiet (quiet_trans (quiet_setWorker s w (emptyHanded_startTick _ _))
      (quiet_setActivity _ w nofun))
  case turn action =>
    split at h
    · cases h
    · next w hw =>
        obtain ⟨group, hgroup, rfl⟩ := Option.map_eq_some_iff.mp h
        exact .turns w action group (GroupState.turn_of_stepGroup hw hgroup)
  case fail w =>
    obtain ⟨group, hgroup, rfl⟩ := Option.map_eq_some_iff.mp h
    exact .quiet (quiet_trans (quiet_fail hgroup)
      (quiet_setActivity _ w (afterFailure_ne_deleting s w)))
  case ticked w reading =>
    split at h
    · split at h
      · cases h
        exact .quiet (quiet_loopHead s w reading)
      · cases h
        exact .quiet (quiet_setActivity s w nofun)
      · cases h
    · cases h
  case resume w reading =>
    split_ifs at h
    cases h
    exact .quiet (quiet_loopHead s w reading)
  case stop w =>
    split_ifs at h
    · cases h
      exact .quiet (quiet_trans (quiet_setControl s _ _) (quiet_setActivity _ w nofun))
    · cases h
      exact .quiet (quiet_refl s)
  case loopEnded w =>
    split at h
    · split_ifs at h
      cases h
      exact .quiet (quiet_trans (quiet_setControl s _ _) (quiet_setActivity _ w nofun))
    · cases h
  case countPending w =>
    split_ifs at h with hcoun hzero
    · cases h
      exact .counts w hzero
    · cases h
      exact .quiet (quiet_setActivity s w nofun)
  case deleteConsumer w =>
    split_ifs at h with hdel
    cases h
    exact .deletes w hdel
  case retireFailed w =>
    split_ifs at h
    cases h
    exact .quiet (quiet_setActivity s w nofun)
  case crash k =>
    cases h
    exact .quiet (quiet_crash s k)

end Deployment

end BoilerplateExpress.Redis

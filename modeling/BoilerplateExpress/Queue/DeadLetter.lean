import BoilerplateExpress.Calendar
import BoilerplateExpress.Errors

/-!
# Dead letters

`queue/dead-letter.ts` and `queue/replay.ts`. The sink of a worker copies a job it has given up on
to a store, and `replayDeadLetters` puts the oldest entries back on their queue.
-/
namespace BoilerplateExpress.Queue

open List

/-! ## Replay -/

structure StoredDeadLetter where
  entryId : Text
  jobName : Text
  deriving DecidableEq

/-- The store, oldest entry first, what was enqueued, and the counts of one call. -/
structure Replay where
  store : List StoredDeadLetter
  enqueued : List StoredDeadLetter
  replayed : ℕ := 0
  skipped : ℕ := 0
  failed : ℕ := 0

/-- Whether `enqueue` and `remove` of an entry resolve. -/
structure Ports where
  enqueues : StoredDeadLetter → Bool
  removes : StoredDeadLetter → Bool

structure ReplayOptions where
  limit : ℕ
  only : Option (List Text)

def ReplayOptions.takes (options : ReplayOptions) (entry : StoredDeadLetter) : Bool :=
  options.only.all (fun names => names.contains entry.jobName)

def replayEntry (ports : Ports) (options : ReplayOptions) (s : Replay) (entry : StoredDeadLetter) :
    Replay :=
  if !options.takes entry then { s with skipped := s.skipped + 1 }
  else if !ports.enqueues entry then { s with failed := s.failed + 1 }
  else
    let s := { s with enqueued := s.enqueued ++ [entry] }
    if ports.removes entry then
      { s with
        store := s.store.eraseP (fun e => e.entryId = entry.entryId)
        replayed := s.replayed + 1 }
    else { s with failed := s.failed + 1 }

/-- One call; `none` is the `RangeError` for its limit. -/
def replayDeadLetters (ports : Ports) (options : ReplayOptions) (s : Replay) : Option Replay :=
  if options.limit < 1 then none
  else some ((s.store.take options.limit).foldl (replayEntry ports options)
    { store := s.store, enqueued := s.enqueued })

/-- Calls until one replays nothing. -/
def replayRepeatedly (ports : Ports) (options : ReplayOptions) : ℕ → Replay → Option Replay
  | 0, _ => none
  | fuel + 1, s => do
    let t ← replayDeadLetters ports options s
    if t.replayed = 0 then some t else replayRepeatedly ports options fuel t

def Ports.reliable : Ports := ⟨fun _ => true, fun _ => true⟩

variable {options : ReplayOptions}

/-- The entries behind the `n`-th one that is skipped. -/
def behindSkipped (options : ReplayOptions) : ℕ → List StoredDeadLetter → List StoredDeadLetter
  | 0, store => store
  | _ + 1, [] => []
  | n + 1, entry :: store =>
    if options.takes entry then behindSkipped options (n + 1) store
    else behindSkipped options n store

/-- The entries that are taken leave the store, the others stay. -/
theorem foldl_replayEntry (entries kept rest : List StoredDeadLetter) (s : Replay)
    (hstore : s.store = kept ++ (entries ++ rest))
    (hids : ((kept ++ entries).map StoredDeadLetter.entryId).Nodup) :
    let t := entries.foldl (replayEntry .reliable options) s
    t.store = kept ++ (entries.filter (!options.takes ·) ++ rest) ∧
      t.enqueued = s.enqueued ++ entries.filter options.takes ∧
      t.replayed = s.replayed + (entries.filter options.takes).length := by
  induction entries generalizing s kept with
  | nil => simp [hstore]
  | cons entry entries ih =>
    rw [foldl_cons]
    cases htakes : options.takes entry with
    | false =>
      simpa [replayEntry, htakes] using ih (kept ++ [entry]) { s with skipped := s.skipped + 1 }
        (by simp [hstore]) (by simpa using hids)
    | true =>
      have hne : ∀ e ∈ kept, e.entryId ≠ entry.entryId := by
        intro e he heq
        simp only [map_append, nodup_append] at hids
        exact hids.2.2 _ (mem_map_of_mem he) _ mem_cons_self heq
      have herase : s.store.eraseP (fun e => e.entryId = entry.entryId) =
          kept ++ (entries ++ rest) := by
        rw [hstore, eraseP_append_right _ (by simpa using hne), cons_append,
          eraseP_cons_of_pos (by simp)]
      have hrest := ih kept (replayEntry .reliable options s entry)
        (by simp [replayEntry, htakes, Ports.reliable, herase])
        (hids.sublist (((sublist_cons_self _ _).append_left _).map _))
      simpa [replayEntry, htakes, Ports.reliable, add_assoc, add_comm] using hrest

variable {s t : Replay}

/-- One call that meets no error. -/
theorem replayDeadLetters_reliable (hids : (s.store.map StoredDeadLetter.entryId).Nodup)
    (h : replayDeadLetters .reliable options s = some t) :
    t.store = (s.store.take options.limit).filter (!options.takes ·) ++ s.store.drop options.limit ∧
      t.enqueued = s.enqueued ++ (s.store.take options.limit).filter options.takes ∧
      t.replayed = ((s.store.take options.limit).filter options.takes).length := by
  unfold replayDeadLetters at h
  split_ifs at h
  cases h
  simpa using foldl_replayEntry _ [] (s.store.drop options.limit) ⟨s.store, s.enqueued, 0, 0, 0⟩
    (by simp) (hids.sublist ((take_sublist _ _).map _))

/-- Replaying what stands in front of them moves no skipped entry. -/
theorem behindSkipped_filter {n} {first} (hfst : first.length ≤ n)
    (rest : List StoredDeadLetter) :
    behindSkipped options n (first.filter (!options.takes ·) ++ rest) =
      behindSkipped options n (first ++ rest) := by
  induction first generalizing n with
  | nil => rfl
  | cons entry first ih =>
    obtain ⟨n, rfl⟩ := Nat.exists_eq_add_of_le' (Nat.one_le_of_lt hfst)
    have hlen : first.length ≤ n := Nat.le_of_succ_le_succ hfst
    cases htakes : options.takes entry with
    | true => simp [behindSkipped, htakes, ih (Nat.le_succ_of_le hlen)]
    | false => simp [behindSkipped, htakes, ih hlen]

lemma behindSkipped_eq_drop {n} {store}
    (h : ∀ e ∈ store.take n, options.takes e = false) :
    behindSkipped options n store = store.drop n := by
  induction n generalizing store with
  | zero => simp [behindSkipped]
  | succ n ih =>
    cases store with
    | nil => rfl
    | cons entry store =>
      rw [take_succ_cons, forall_mem_cons] at h
      rw [behindSkipped, h.1, ih h.2]
      rfl

/-- Calls repeated until one replays nothing leave the entries they would take that stand behind
the `limit`-th one they skip, and no others. What is skipped stays, and each entry taken is
enqueued once, in order, or still there. -/
theorem replay_leaves_behind_skipped (options : ReplayOptions) (hlimit : 1 ≤ options.limit)
    (fuel : ℕ) (s : Replay) (hfuel : s.store.length < fuel)
    (hids : (s.store.map StoredDeadLetter.entryId).Nodup) :
    ∃ t, replayRepeatedly .reliable options fuel s = some t ∧
      t.store.filter options.takes =
        (behindSkipped options options.limit s.store).filter options.takes ∧
      t.store.filter (!options.takes ·) = s.store.filter (!options.takes ·) ∧
      t.enqueued ++ t.store.filter options.takes = s.enqueued ++ s.store.filter options.takes := by
  induction fuel generalizing s with
  | zero => omega
  | succ fuel ih =>
    obtain ⟨u, hu⟩ : ∃ u, replayDeadLetters .reliable options s = some u := ⟨_, if_neg (by omega)⟩
    obtain ⟨hstore, henq, hrep⟩ := replayDeadLetters_reliable hids hu
    have hparts := take_append_drop options.limit s.store
    have hfilt (p : StoredDeadLetter → Bool) : s.store.filter p =
        (s.store.take options.limit).filter p ++ (s.store.drop options.limit).filter p := by
      rw [← filter_append, hparts]
    have hoth : u.store.filter (!options.takes ·) = s.store.filter (!options.takes ·) := by
      simp [hstore, hfilt]
    have hmat : u.enqueued ++ u.store.filter options.takes =
        s.enqueued ++ s.store.filter options.takes := by simp [hstore, henq, hfilt]
    have hsub : u.store.Sublist s.store := by
      rw [hstore]
      conv_rhs => rw [← hparts]
      exact filter_sublist.append_right _
    have hlen : u.store.length + u.replayed = s.store.length := by
      have hall := congrArg List.length hparts
      have hfst := (s.store.take options.limit).length_eq_length_filter_add options.takes
      rw [length_append] at hall
      rw [hstore, hrep, length_append]
      omega
    simp only [replayRepeatedly, hu, Option.bind_eq_bind, Option.bind_some]
    split_ifs with hzero
    · have hnone : (s.store.take options.limit).filter options.takes = [] :=
        length_eq_zero_iff.mp (hrep.symm.trans hzero)
      have hsame : u.store = s.store := hsub.eq_of_length (by omega)
      refine ⟨u, rfl, ?_, hoth, hmat⟩
      rw [behindSkipped_eq_drop (by simpa using filter_eq_nil_iff.mp hnone), hsame, hfilt,
        hnone, nil_append]
    · obtain ⟨t, ht, hleft, hkept, hsent⟩ := ih u (by omega) (hids.sublist (hsub.map _))
      rw [hstore, behindSkipped_filter (length_take_le _ _), hparts] at hleft
      exact ⟨t, ht, hleft, hkept.trans hoth, hsent.trans hmat⟩

/-- Entries of two names in turn, and a limit of two: the second match stands behind two entries
that are skipped. -/
def mixedStore : List StoredDeadLetter :=
  [⟨['a'], ['y']⟩, ⟨['b'], ['x']⟩, ⟨['c'], ['y']⟩, ⟨['d'], ['x']⟩]

theorem mixed_replay_leaves_last :
    ∃ t, replayRepeatedly .reliable ⟨2, some [['x']]⟩ 5 ⟨mixedStore, [], 0, 0, 0⟩ = some t ∧
      t.store.filter (ReplayOptions.takes ⟨2, some [['x']]⟩) = [⟨['d'], ['x']⟩] ∧
      t.store.filter (!ReplayOptions.takes ⟨2, some [['x']]⟩ ·) = [⟨['a'], ['y']⟩, ⟨['c'], ['y']⟩] ∧
      t.enqueued = [⟨['b'], ['x']⟩] := by
  obtain ⟨t, ht, hleft, hkept, hsent⟩ := replay_leaves_behind_skipped ⟨2, some [['x']]⟩ (by decide) 5
    ⟨mixedStore, [], 0, 0, 0⟩ (by decide) (by decide)
  have hlast : (behindSkipped ⟨2, some [['x']]⟩ 2 mixedStore).filter
      (ReplayOptions.takes ⟨2, some [['x']]⟩) = [⟨['d'], ['x']⟩] := by decide
  have hboth : [] ++ mixedStore.filter (ReplayOptions.takes ⟨2, some [['x']]⟩) =
      [⟨['b'], ['x']⟩] ++ [⟨['d'], ['x']⟩] := by decide
  rw [hleft, hlast, hboth] at hsent
  exact ⟨t, ht, hleft.trans hlast, hkept.trans (by decide), append_cancel_right hsent⟩

/-- One entry of another name at the head, and a limit of one: nothing is ever replayed. -/
theorem skipped_head_blocks_replay :
    ¬ ∀ (options : ReplayOptions) (fuel : ℕ) (s t : Replay), 1 ≤ options.limit →
      (s.store.map StoredDeadLetter.entryId).Nodup →
      replayRepeatedly .reliable options fuel s = some t →
      ∀ e ∈ t.store, options.takes e = false := by
  intro h
  have hnone := h ⟨1, some [['x']]⟩ 1 ⟨[⟨['a'], ['y']⟩, ⟨['b'], ['x']⟩], [], 0, 0, 0⟩ _
    (by decide) (by decide) rfl ⟨['b'], ['x']⟩ (by decide)
  cases hnone

/-! ## The sink -/

/-- Stored data: an object with a `payload`, whose correlation id counts if it is a string, or
anything else. -/
inductive JobData (π : Type) where
  | envelope (payload : π) (correlationId : Option Text)
  | other (data : π)

structure TerminalJobFailure (π : Type) where
  queueName : Text
  jobId : Text
  jobName : Text
  data : JobData π
  attemptsMade : ℕ
  /-- `none` is a number that is no time at all, such as `NaN`. -/
  enqueuedAt : Option ℤ
  failedAt : Option ℤ
  failedReason : Text

structure DeadLetterRecord (π : Type) where
  sourceQueue : Text
  sourceJobId : Text
  jobName : Text
  attemptsMade : ℕ
  failedReason : Text
  correlationId : Option Text
  payload : π
  enqueuedAt : JsString
  failedAt : JsString
  deadLetteredAt : JsString

/-- What the sink calls, for one failure. -/
structure SinkOptions (π ε : Type) where
  redact : Option (Text → π → Except ε π)
  now : Option ℤ
  add : DeadLetterRecord π → Text → Except ε Unit
  evictOldest : ℕ → Except ε Unit
  maxSize : ℕ

inductive Thrown (ε : Type) where
  | byCaller (e : ε)
  /-- `RangeError: Invalid time value`. -/
  | invalidTime

variable {π ε : Type}

/-- `new Date(time).toISOString()`. -/
def isoTime : Option ℤ → Except (Thrown ε) JsString
  | none => .error .invalidTime
  | some time =>
    if time.natAbs ≤ 8640000000000000 then .ok (Calendar.toISOString time) else .error .invalidTime

def unwrapEnvelope : JobData π → π × Option Text
  | .envelope payload correlationId => (payload, correlationId)
  | .other data => (data, none)

def redactWith (redact : Option (Text → π → Except ε π)) (jobName : Text) (payload : π) :
    Except (Thrown ε) π :=
  match redact with
  | none => .ok payload
  | some redact => (redact jobName payload).mapError .byCaller

def deadLetterRecord (options : SinkOptions π ε) (failure : TerminalJobFailure π) :
    Except (Thrown ε) (DeadLetterRecord π) := do
  let (payload, correlationId) := unwrapEnvelope failure.data
  return {
    sourceQueue := failure.queueName
    sourceJobId := failure.jobId
    jobName := failure.jobName
    attemptsMade := failure.attemptsMade
    failedReason := failure.failedReason
    correlationId
    payload := ← redactWith options.redact failure.jobName payload
    enqueuedAt := ← isoTime failure.enqueuedAt
    failedAt := ← isoTime failure.failedAt
    deadLetteredAt := ← isoTime options.now }

def deadLetterJobId (queueName jobId : Text) : Text := "dlq:".toList ++ queueName ++ ':' :: jobId

/-- How the promise of the sink settles, and what `onError` is told: the record is made outside
the `try`. -/
def deadLetter (options : SinkOptions π ε) (failure : TerminalJobFailure π) :
    Except (Thrown ε) (List ε) := do
  let record ← deadLetterRecord options failure
  match options.add record (deadLetterJobId failure.queueName failure.jobId) with
  | .error e => return [e]
  | .ok () =>
    match options.evictOldest options.maxSize with
    | .error e => return [e]
    | .ok () => return []

lemma exists_isoTime_ok {time} :
    (∃ text, (isoTime time : Except (Thrown ε) JsString) = .ok text) ↔
      ∃ t ∈ time, t.natAbs ≤ 8640000000000000 := by
  cases time with
  | none => simp [isoTime]
  | some time =>
    rw [isoTime]
    split_ifs with h <;> simp [h]

/-- The promise resolves exactly if `redact` returns and the three times are times; then a record
that is not written is reported. -/
theorem sink_resolves_iff (options : SinkOptions π ε) (failure : TerminalJobFailure π) :
    (∃ reports, deadLetter options failure = .ok reports ∧
      (reports = [] → ∃ record, deadLetterRecord options failure = .ok record ∧
        options.add record (deadLetterJobId failure.queueName failure.jobId) = .ok ())) ↔
    (∃ payload, redactWith options.redact failure.jobName (unwrapEnvelope failure.data).1 =
      .ok payload) ∧ ∀ time ∈ [failure.enqueuedAt, failure.failedAt, options.now],
        ∃ t ∈ time, t.natAbs ≤ 8640000000000000 := by
  have hrec : (∃ record, deadLetterRecord options failure = .ok record) ↔
      (∃ payload, redactWith options.redact failure.jobName (unwrapEnvelope failure.data).1 =
        .ok payload) ∧ ∀ time ∈ [failure.enqueuedAt, failure.failedAt, options.now],
          ∃ t ∈ time, t.natAbs ≤ 8640000000000000 := by
    simp [deadLetterRecord, exists_bind_ok, exists_isoTime_ok, pure, Except.pure]
  rw [← hrec]
  unfold deadLetter
  constructor
  · rintro ⟨reports, h, -⟩
    obtain ⟨record, hok, -⟩ := bind_eq_ok h
    exact ⟨record, hok⟩
  · rintro ⟨record, hok⟩
    simp only [hok, ok_bind]
    split
    · exact ⟨_, rfl, by simp⟩
    · rename_i hadd
      split
      · exact ⟨_, rfl, by simp⟩
      · exact ⟨_, rfl, fun _ => ⟨record, rfl, hadd⟩⟩

/-- A `redact` that throws rejects the promise that the listener drops, and so does a time that is
none. -/
theorem throwing_redact_rejects :
    ¬ ∀ (options : SinkOptions Unit Unit) (failure : TerminalJobFailure Unit),
      ∃ reports, deadLetter options failure = .ok reports := by
  intro h
  obtain ⟨reports, h⟩ := h ⟨some fun _ _ => .error (), some 0, fun _ _ => .ok (), fun _ => .ok (), 1⟩
    ⟨[], [], [], .other (), 1, some 0, some 0, []⟩
  cases h

end BoilerplateExpress.Queue

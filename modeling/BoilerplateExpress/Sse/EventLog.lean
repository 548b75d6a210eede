import BoilerplateExpress.Sse.Frame

/-!
# The history a client resumes from

`SseEventLog` of `sse/event-log.ts`: a ring of the last events, and ids of the form
`<streamId>:<sequence>`. Sequence numbers are exact up to `Number.MAX_SAFE_INTEGER`.
-/
namespace BoilerplateExpress.Sse

open EventStream
open List

/-- One event; `data` is `undefined` where `JSON.stringify` gave that. -/
structure StreamMessage where
  id : JsString
  event : JsString
  data : Option JsString
  deriving DecidableEq, Repr

inductive ResumeResetReason where
  | expired
  | unknownStream
  | malformed
  deriving DecidableEq, Repr

inductive ResumeOutcome where
  | live
  | replay (messages : List StreamMessage)
  | reset (reason : ResumeResetReason)
  deriving DecidableEq, Repr

def sequenceSeparator : UInt16 := 58

/-- `Number.MAX_SAFE_INTEGER`. -/
def maxSafeInteger : ℕ := 2 ^ 53 - 1

structure SseEventLog where
  capacity : ℕ+
  streamId : JsString
  streamId_plain : sequenceSeparator ∉ streamId
  slots : ℕ → Option StreamMessage
  latestSequence : ℕ

structure EventLogOptions where
  capacity : ℚ
  /-- Injected under test only. -/
  streamId : Option JsString

/-- A lower-case hexadecimal digit. -/
def hexUnit (digit : ℕ) : UInt16 := UInt16.ofNat (if digit < 10 then 48 + digit else 87 + digit)

def hexUnits (bytes : Bytes) : JsString :=
  bytes.flatMap (fun b => [hexUnit (b.toNat / 16), hexUnit (b.toNat % 16)])

/-- The injected stream id, or 8 random bytes. -/
def EventLogOptions.resolveStreamId (options : EventLogOptions) (random : Fin 8 → UInt8) :
    JsString :=
  options.streamId.getD (hexUnits (List.ofFn random))

namespace SseEventLog

def create (options : EventLogOptions) (random : Fin 8 → UInt8) : Except SseError SseEventLog :=
  if h : options.capacity.den = 1 ∧ 0 < options.capacity.num then
    if hid : sequenceSeparator ∈ options.resolveStreamId random then
      .error (.text ("SseEventLog: streamId may not contain \":\", received \"".toList ++
        (options.resolveStreamId random).toText ++ ['"']))
    else
      .ok
        { capacity := ⟨options.capacity.num.toNat, by omega⟩
          streamId := options.resolveStreamId random
          streamId_plain := hid
          slots := fun _ => none
          latestSequence := 0 }
  else
    .error (.range ⟨"SseEventLog: capacity must be an integer >= 1, received ", options.capacity⟩)

/-- `Math.max(1, latest - capacity + 1)`. -/
def oldestSequence (log : SseEventLog) : ℕ := max 1 (log.latestSequence + 1 - log.capacity)

def idFor (log : SseEventLog) (sequence : ℕ) : JsString :=
  log.streamId ++ sequenceSeparator :: JsString.natUnits sequence

/-- The message that `append` would record. -/
def nextMessage (log : SseEventLog) (event : JsString) (data : Option JsString) : StreamMessage :=
  ⟨log.idFor (log.latestSequence + 1), event, data⟩

def append (log : SseEventLog) (event : JsString) (data : Option JsString) : SseEventLog :=
  let sequence := log.latestSequence + 1
  { log with
    slots := Function.update log.slots (sequence % log.capacity) (some (log.nextMessage event data))
    latestSequence := sequence }

/-- Digits only, and a safe integer from 1 on. -/
def parseSequence (raw : JsString) : Option ℕ :=
  if isDigits raw then
    let sequence := Text.digitsToNat raw.toText
    if 1 ≤ sequence ∧ sequence ≤ maxSafeInteger then some sequence else none
  else none

/-- The loop of `since` from one sequence number to the latest. -/
def replayFrom (log : SseEventLog) (sequence : ℕ) : List StreamMessage :=
  (List.range' (sequence + 1) (log.latestSequence - sequence)).filterMap
    (fun next => log.slots (next % log.capacity))

def since (log : SseEventLog) : Option JsString → ResumeOutcome
  | none => .live
  | some lastEventId =>
    if sequenceSeparator ∉ lastEventId then .reset .malformed
    else if lastEventId.takeWhile (· ≠ sequenceSeparator) ≠ log.streamId then
      .reset .unknownStream
    else
      match parseSequence ((lastEventId.dropWhile (· ≠ sequenceSeparator)).drop 1) with
      | none => .reset .malformed
      | some sequence =>
        if log.latestSequence ≤ sequence then .live
        else if sequence + 1 < log.oldestSequence then .reset .expired
        else .replay (log.replayFrom sequence)

lemma oldestSequence_append (log : SseEventLog) (event data) :
    (log.append event data).oldestSequence = max 1 (log.latestSequence + 2 - log.capacity) := rfl

lemma slots_append (log : SseEventLog) (event data i) :
    (log.append event data).slots i =
      if i = (log.latestSequence + 1) % log.capacity then some (log.nextMessage event data)
      else log.slots i := Function.update_apply ..

lemma parseSequence_natUnits {n} (hpos : 1 ≤ n) (hsafe : n ≤ maxSafeInteger) :
    parseSequence (JsString.natUnits n) = some n := by
  have hdig : isDigits (JsString.natUnits n) := by
    simp only [isDigits, Bool.and_eq_true, Bool.not_eq_true', isEmpty_eq_false_iff,
      all_eq_true, decide_eq_true_eq]
    refine ⟨JsString.natUnits_ne_nil n, ?_⟩
    intro u hu
    exact JsString.mem_natUnits hu
  have hvalue : Text.digitsToNat (JsString.natUnits n).toText = n := by
    rw [JsString.toText_natUnits, Text.digitsToNat_natToText]
  rw [parseSequence, if_pos hdig]
  simp only [hvalue]
  rw [if_pos ⟨hpos, hsafe⟩]

lemma idFor_injective (log : SseEventLog) : Function.Injective log.idFor := by
  intro m n h
  have hsuf := append_cancel_left h
  exact JsString.natUnits_injective (List.cons.inj hsuf).2

/-- What `since` says to a cursor that has the form of an id of this log. -/
theorem since_idFor {n} (log : SseEventLog) (hpos : 1 ≤ n) (hsafe : n ≤ maxSafeInteger) :
    log.since (some (log.idFor n)) = if log.latestSequence ≤ n then .live
      else if n + 1 < log.oldestSequence then .reset .expired
      else .replay (log.replayFrom n) := by
  obtain ⟨htake, hdrop⟩ := Text.takeWhile_ne_append log.streamId_plain (JsString.natUnits n)
  rw [← idFor] at htake hdrop
  have hmem : sequenceSeparator ∈ log.idFor n := by simp [idFor]
  rw [since, if_neg (not_not.mpr hmem), htake, if_neg (not_not.mpr rfl), hdrop]
  simp [parseSequence_natUnits hpos hsafe]

end SseEventLog

/-- The log holds the end of the history of everything published, each message in the slot of
its sequence number. -/
structure LogInv (log : SseEventLog) (history : List StreamMessage) : Prop where
  latest : log.latestSequence = history.length
  ids : ∀ m message, history[m]? = some message → message.id = log.idFor (m + 1)
  held : ∀ m message, history[m]? = some message → log.oldestSequence ≤ m + 1 →
    log.slots ((m + 1) % log.capacity) = some message
  slots_from : ∀ i message, log.slots i = some message → ∃ m, history[m]? = some message ∧
    log.oldestSequence ≤ m + 1 ∧ i = (m + 1) % log.capacity

namespace LogInv

variable {log : SseEventLog} {history : List StreamMessage}

lemma create {options random} (h : SseEventLog.create options random = .ok log) :
    LogInv log [] ∧ log.streamId = options.resolveStreamId random := by
  unfold SseEventLog.create at h
  split_ifs at h
  cases h
  exact ⟨⟨rfl, nofun, nofun, nofun⟩, rfl⟩

/-- Sequence numbers that are less than a capacity apart have different slots. -/
lemma slot_ne {capacity m n : ℕ} (hlt : m < n) (hnear : n < m + capacity) :
    m % capacity ≠ n % capacity := by
  intro heq
  have hdvd : capacity ∣ n - m := (Nat.modEq_iff_dvd' hlt.le).mp heq
  have hle := Nat.le_of_dvd (by omega) hdvd
  omega

/-- A message of a history with one more event is an old one or the new one. -/
lemma getElem?_history {m} {next message} (h : (history ++ [next])[m]? = some message) :
    (m < history.length ∧ history[m]? = some message) ∨ (m = history.length ∧ message = next) := by
  by_cases hlt : m < history.length
  · rw [getElem?_append_left hlt] at h
    exact .inl ⟨hlt, h⟩
  · rw [getElem?_append_right (by omega)] at h
    have hzero : m - history.length = 0 := by
      by_contra hne
      rw [getElem?_eq_none (by rw [length_singleton]; omega)] at h
      cases h
    rw [hzero] at h
    exact .inr ⟨by omega, (Option.some.inj h).symm⟩

lemma append (h : LogInv log history) (event data) :
    LogInv (log.append event data) (history ++ [log.nextMessage event data]) := by
  have hlat := h.latest
  have hcap := log.capacity.pos
  have holdest := log.oldestSequence_append event data
  have hold' : log.oldestSequence = max 1 (log.latestSequence + 1 - log.capacity) := rfl
  refine ⟨?_, ?_, ?_, ?_⟩
  · rw [length_append, ← hlat]
    rfl
  · intro m message hm
    rcases getElem?_history hm with ⟨_, hold⟩ | ⟨rfl, rfl⟩
    · exact h.ids m message hold
    · rw [← hlat]
      rfl
  · intro m message hm hle
    rw [log.slots_append]
    show (if (m + 1) % (log.capacity : ℕ) = _ then _ else log.slots ((m + 1) % log.capacity)) = _
    rcases getElem?_history hm with ⟨hlt, hold⟩ | ⟨rfl, rfl⟩
    · rw [if_neg (slot_ne (by omega) (by omega))]
      exact h.held m message hold (by omega)
    · rw [hlat, if_pos rfl]
  · intro i message hi
    rw [log.slots_append] at hi
    split_ifs at hi with hnew
    · refine ⟨history.length, ?_, by omega, by rw [hnew, hlat]; rfl⟩
      rw [getElem?_append_right le_rfl, Nat.sub_self]
      exact hi
    · obtain ⟨m, hm, hle, rfl⟩ := h.slots_from i message hi
      obtain ⟨hlt, _⟩ := List.getElem?_eq_some_iff.mp hm
      refine ⟨m, ?_, ?_, rfl⟩
      · rw [getElem?_append_left hlt]
        exact hm
      · -- the oldest slot is the one that was overwritten
        by_contra hgt
        have hslot : m + 1 + log.capacity = log.latestSequence + 1 := by omega
        exact hnew (by rw [← hslot, Nat.add_mod_right])

lemma replayFrom_eq {n} (h : LogInv log history) (hn : n ≤ history.length)
    (hheld : log.oldestSequence ≤ n + 1) : log.replayFrom n = history.drop n := by
  have hfrom : ∀ k m, m + k = history.length → n ≤ m →
      (range' (m + 1) k).filterMap (fun next => log.slots (next % log.capacity)) =
        history.drop m := by
    intro k
    induction k with
    | zero =>
      intro m hm _
      rw [drop_of_length_le (by omega)]
      rfl
    | succ k ih =>
      intro m hm hle
      have hlt : m < history.length := by omega
      have hslot := h.held m _ (getElem?_eq_getElem hlt) (by omega)
      have hrest := ih (m + 1) (by omega) (by omega)
      rw [range'_succ, filterMap_cons, hslot, hrest, drop_eq_getElem_cons hlt]
  rw [SseEventLog.replayFrom, h.latest]
  exact hfrom (history.length - n) n (by omega) le_rfl

/-- A message from before the oldest sequence number is in no slot. -/
theorem evicted {m message} (h : LogInv log history) (hm : m + 1 < log.oldestSequence)
    (hmsg : history[m]? = some message) (i) : log.slots i ≠ some message := by
  intro hi
  obtain ⟨j, hj, hle, _⟩ := h.slots_from i message hi
  have hids := (h.ids m message hmsg).symm.trans (h.ids j message hj)
  have heq := log.idFor_injective hids
  omega

end LogInv

end BoilerplateExpress.Sse

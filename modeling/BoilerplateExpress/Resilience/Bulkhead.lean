import BoilerplateExpress.Errors
import BoilerplateExpress.Machine

/-!
# The bulkhead

`Bulkhead` of `resilience/bulkhead.ts`: a cap on concurrent calls with a bounded
queue in front of it. `acquire` answers with a promise, so the state keeps every
call made so far with the resolve and reject calls on its promise, its queue
timer, its abort listener and the `released` flag of its permit. A call is named
by the order of arrival.

Timers and abort signals fire whenever they are armed, in any order.
-/
namespace BoilerplateExpress.Resilience

open List

structure BulkheadSettings where
  name : String
  maxConcurrent : ℕ
  maxQueue : ℕ
  queueTimeoutMs : ℕ
  maxConcurrent_pos : 1 ≤ maxConcurrent
  queueTimeoutMs_pos : 1 ≤ queueTimeoutMs

/-- The constructor's checks, in its order. -/
def BulkheadSettings.check (name : String) (maxConcurrent maxQueue queueTimeoutMs : ℚ) :
    Except RangeError BulkheadSettings := do
  let integer (field : String) (least : ℕ) (value : ℚ) := checkInteger ("Bulkhead(" ++ name ++
    "): " ++ field ++ " must be an integer >= " ++ toString least ++ ", received ") least value
  let maxConcurrent ← integer "maxConcurrent" 1 maxConcurrent
  let maxQueue ← integer "maxQueue" 0 maxQueue
  let queueTimeoutMs ← integer "queueTimeoutMs" 1 queueTimeoutMs
  return ⟨name, maxConcurrent.1, maxQueue.1, queueTimeoutMs.1, maxConcurrent.2, queueTimeoutMs.2⟩

/-- Why a signal was aborted: an error, by its text, or anything else. -/
abbrev AbortReason := Option String

/-- The text of the error a caller gets for its own abort. -/
def toAbortError (reason : AbortReason) : String := reason.getD "Operation aborted"

inductive AcquireRejection where
  | aborted (error : String)
  | full (error : AppError)
  deriving DecidableEq, Repr

inductive Settlement where
  | granted
  | rejected (error : AcquireRejection)
  deriving DecidableEq, Repr

def bulkheadFullError (message : String) : AppError where
  statusCode := 503
  message := message
  code := some "BULKHEAD_FULL"
  headers := [("Retry-After", "1")]

def queueFullError (settings : BulkheadSettings) (queued : ℕ) : AppError :=
  bulkheadFullError ("Bulkhead \"" ++ settings.name ++ "\" is full: " ++
    toString settings.maxConcurrent ++ " call(s) in flight and " ++ toString queued ++
    " queued; not calling the dependency")

def queueTimeoutError (settings : BulkheadSettings) (waitedMs : ℤ) : AppError :=
  bulkheadFullError ("Bulkhead \"" ++ settings.name ++ "\": waited " ++ toString waitedMs ++
    "ms for a slot (limit " ++ toString settings.queueTimeoutMs ++
    "ms); not calling the dependency")

/-- One `acquire`: the calls of its promise's resolve and reject so far, and what
can still fire for it. -/
structure AcquireCall where
  settlements : List Settlement
  timer : Bool
  listening : Bool
  queuedAt : ℤ
  released : Bool
  deriving DecidableEq

namespace AcquireCall

/-- An `acquire` that was answered before it returned. -/
def answered (settlement : Settlement) : AcquireCall := ⟨[settlement], false, false, 0, false⟩

def settle (call : AcquireCall) (settlement : Settlement) : AcquireCall :=
  { call with settlements := call.settlements ++ [settlement] }

/-- Cancels the queue deadline and the abort listener. -/
def dispose (call : AcquireCall) : AcquireCall := { call with timer := false, listening := false }

/-- The call was granted a permit that has not been released. -/
def holds (call : AcquireCall) : Bool :=
  decide (Settlement.granted ∈ call.settlements) && !call.released

end AcquireCall

/-- The caller's signal at the time of the call. -/
inductive Signal where
  | absent
  | pending
  | aborted (reason : AbortReason)
  deriving DecidableEq

/-- The two fields of the class, every call so far, and the calls granted so far in
the order of their grants. -/
structure Bulkhead where
  waiters : List ℕ
  inFlightCount : ℤ
  calls : List AcquireCall
  grants : List ℕ

namespace Bulkhead

variable (settings : BulkheadSettings)

def create : Bulkhead := ⟨[], 0, [], []⟩

/-- The promise of a call that is answered at once. -/
def answer (b : Bulkhead) (settlement : Settlement) : Bulkhead :=
  { b with calls := b.calls ++ [AcquireCall.answered settlement] }

def enqueue (b : Bulkhead) (signal : Signal) (now : ℤ) : Bulkhead :=
  { b with
    waiters := b.waiters ++ [b.calls.length]
    calls := b.calls ++ [⟨[], true, decide (signal = .pending), now, false⟩] }

def acquire (b : Bulkhead) (signal : Signal) (now : ℤ) : Bulkhead :=
  match signal with
  | .aborted reason => b.answer (.rejected (.aborted (toAbortError reason)))
  | signal =>
    if b.inFlightCount < settings.maxConcurrent then
      { b.answer .granted with
        inFlightCount := b.inFlightCount + 1
        grants := b.grants ++ [b.calls.length] }
    else if settings.maxQueue ≤ b.waiters.length then
      b.answer (.rejected (.full (queueFullError settings b.waiters.length)))
    else b.enqueue signal now

/-- Takes a waiter out of the queue and rejects it, with its timer and listener gone. -/
def turnAway (b : Bulkhead) (place : ℕ) (call : AcquireCall) (error : AcquireRejection) : Bulkhead :=
  { b with
    waiters := b.waiters.erase place
    calls := b.calls.set place (call.dispose.settle (.rejected error)) }

/-- Passes the freed slot to the head of the queue, or gives it back. -/
def handOff (b : Bulkhead) : Bulkhead :=
  match b.waiters with
  | [] => { b with inFlightCount := b.inFlightCount - 1 }
  | next :: rest =>
    { b with
      waiters := rest
      calls := b.calls.modify next (fun call => call.dispose.settle .granted)
      grants := b.grants ++ [next] }

/-- `release` of the permit of a call; a second one throws. -/
def release (b : Bulkhead) (place : ℕ) (call : AcquireCall) : Except String Bulkhead :=
  if call.released then .error ("Bulkhead(" ++ settings.name ++ "): permit released twice")
  else .ok (handOff { b with calls := b.calls.set place { call with released := true } })

inductive Action where
  | acquire (signal : Signal) (now : ℤ)
  | release (place : ℕ)
  | timeout (place : ℕ) (now : ℤ)
  | abort (place : ℕ) (reason : AbortReason)

/-- A release needs a permit, a timeout an armed timer, an abort a listener. -/
def step (b : Bulkhead) : Action → Option Bulkhead
  | .acquire signal now => some (b.acquire settings signal now)
  | .release place =>
    match b.calls[place]? with
    | none => none
    | some call =>
      if Settlement.granted ∈ call.settlements then
        match b.release settings place call with
        | .error _ => some b
        | .ok b' => some b'
      else none
  | .timeout place now =>
    match b.calls[place]? with
    | none => none
    | some call =>
      if call.timer then
        some (b.turnAway place call
          (.full (queueTimeoutError settings (now - call.queuedAt))))
      else none
  | .abort place reason =>
    match b.calls[place]? with
    | none => none
    | some call =>
      if call.listening then some (b.turnAway place call (.aborted (toAbortError reason)))
      else none

/-- The permits that were granted and not released. -/
def outstanding (b : Bulkhead) : ℕ := b.calls.countP AcquireCall.holds

/-- A call waits with nothing settled, or it was answered once and nothing can fire for it. -/
def Stands (waits granted : Prop) (call : AcquireCall) : Prop :=
  (waits ∧ ¬ granted ∧ call.settlements = [] ∧ call.released = false) ∨
    (¬ waits ∧ call.timer = false ∧ call.listening = false ∧
      ∃ settlement, call.settlements = [settlement] ∧ (granted ↔ settlement = .granted))

/-- How the queue, the calls and the grants fit together: everyone granted so far, and then
everyone who waits, stand in the order of arrival. -/
structure Ordered (b : Bulkhead) : Prop where
  stands : ∀ place call, b.calls[place]? = some call →
    Stands (place ∈ b.waiters) (place ∈ b.grants) call
  known : ∀ place ∈ b.grants ++ b.waiters, place < b.calls.length
  arrival : (b.grants ++ b.waiters).Pairwise (· < ·)

/-- The slots are accounted for, and nobody waits for a free one. -/
structure Inv (b : Bulkhead) : Prop extends Ordered b where
  count : b.inFlightCount = b.outstanding
  capped : b.inFlightCount ≤ settings.maxConcurrent
  saturated : b.waiters ≠ [] → b.inFlightCount = settings.maxConcurrent
  bounded : b.waiters.length ≤ settings.maxQueue

lemma inv_create : Inv settings create := by
  refine ⟨⟨?_, ?_, ?_⟩, ?_, ?_, ?_, ?_⟩ <;> simp [create, outstanding]

section Stands

variable {waits granted : Prop} {call : AcquireCall}

lemma Stands.of_waiting (h : Stands waits granted call) (hwaits : waits) :
    ¬ granted ∧ call.settlements = [] ∧ call.released = false := by
  rcases h with ⟨-, hrest⟩ | ⟨hnot, -⟩
  · exact hrest
  · exact absurd hwaits hnot

lemma Stands.of_settled (h : Stands waits granted call) (hset : call.settlements ≠ []) :
    ¬ waits ∧ call.timer = false ∧ call.listening = false ∧
      ∃ settlement, call.settlements = [settlement] ∧ (granted ↔ settlement = .granted) := by
  rcases h with ⟨-, -, hnone, -⟩ | hans
  · exact absurd hnone hset
  · exact hans

end Stands

variable {b b' : Bulkhead} {place : ℕ} {new call : AcquireCall}

/-- One call is new, or changes; the lists change for this call only. -/
lemma ordered_change (hb : Ordered b)
    (hcalls : place = b.calls.length ∧ b'.calls = b.calls ++ [new] ∨
      place < b.calls.length ∧ b'.calls = b.calls.set place new) (hlists : ∀ other, other ≠ place →
      (other ∈ b'.waiters ↔ other ∈ b.waiters) ∧ (other ∈ b'.grants ↔ other ∈ b.grants))
    (hnew : Stands (place ∈ b'.waiters) (place ∈ b'.grants) new)
    (harr : (b'.grants ++ b'.waiters).Pairwise (· < ·)) : Ordered b' := by
  have hplace : b'.calls[place]? = some new := by
    rcases hcalls with ⟨rfl, hpush⟩ | ⟨hlt, hset⟩
    · rw [hpush, getElem?_concat_length]
    · rw [hset, getElem?_set_self hlt]
  have hothers (other : ℕ) (hoth : other ≠ place) : b'.calls[other]? = b.calls[other]? := by
    rcases hcalls with ⟨rfl, hpush⟩ | ⟨-, hset⟩
    · rw [hpush, getElem?_append]
      split_ifs with hlt
      · rfl
      · rw [getElem?_eq_none (by omega : b.calls.length ≤ other), getElem?_singleton,
          if_neg (by omega)]
    · rw [hset, getElem?_set_ne (Ne.symm hoth)]
  refine ⟨?_, ?_, harr⟩
  · intro other found hfound
    by_cases hoth : other = place
    · subst hoth
      obtain rfl : new = found := Option.some.inj (hplace.symm.trans hfound)
      exact hnew
    · rw [hothers other hoth] at hfound
      have hstan := hb.stands other found hfound
      rwa [← propext (hlists other hoth).1, ← propext (hlists other hoth).2] at hstan
  · intro other hmem
    by_cases hoth : other = place
    · subst hoth
      exact (List.getElem?_eq_some_iff.mp hplace).1
    · have hold : other ∈ b.grants ++ b.waiters := by
        rw [mem_append, (hlists other hoth).1, (hlists other hoth).2] at hmem
        exact mem_append.mpr hmem
      have hfound := getElem?_eq_getElem (hb.known other hold)
      rw [← hothers other hoth] at hfound
      exact (List.getElem?_eq_some_iff.mp hfound).1

/-! ### Acquiring -/

/-- The place of a new call is on neither list, and behind everyone. -/
lemma ordered_length (hb : Ordered b) :
    b.calls.length ∉ b.waiters ∧ b.calls.length ∉ b.grants ∧
      (b.grants ++ b.waiters ++ [b.calls.length]).Pairwise (· < ·) := by
  refine ⟨?_, ?_, pairwise_append.mpr ⟨hb.arrival, pairwise_singleton _ _, ?_⟩⟩
  · exact fun h => lt_irrefl _ (hb.known _ (mem_append_right _ h))
  · exact fun h => lt_irrefl _ (hb.known _ (mem_append_left _ h))
  · intro earlier hear later hlater
    rw [mem_singleton.mp hlater]
    exact hb.known earlier hear

lemma inv_answer_rejected (hb : Inv settings b) (error) :
    Inv settings (b.answer (.rejected error)) := by
  obtain ⟨hwts, hgr, -⟩ := ordered_length hb.toOrdered
  have hord : Ordered (b.answer (.rejected error)) := by
    refine ordered_change hb.toOrdered (.inl ⟨rfl, rfl⟩) (fun _ _ => ⟨Iff.rfl, Iff.rfl⟩) ?_ hb.arrival
    exact .inr ⟨hwts, rfl, rfl, _, rfl, iff_of_false hgr nofun⟩
  refine ⟨hord, ?_, hb.capped, hb.saturated, hb.bounded⟩
  have hcnt : (b.answer (.rejected error)).outstanding = b.outstanding := by
    simp [outstanding, answer, AcquireCall.holds, AcquireCall.answered]
  rw [hcnt]
  exact hb.count

lemma inv_answer_granted (hb : Inv settings b) (hfree : b.inFlightCount < settings.maxConcurrent) :
    Inv settings { b.answer .granted with
      inFlightCount := b.inFlightCount + 1, grants := b.grants ++ [b.calls.length] } := by
  have hemp : b.waiters = [] := by
    by_contra hne
    have := hb.saturated hne
    omega
  have hcnt : (b.answer .granted).outstanding = b.outstanding + 1 := by
    simp [outstanding, answer, AcquireCall.holds, AcquireCall.answered]
  obtain ⟨hwts, -, harr⟩ := ordered_length hb.toOrdered
  refine ⟨ordered_change hb.toOrdered (.inl ⟨rfl, rfl⟩) ?_ ?_ ?_, ?_, ?_, ?_, hb.bounded⟩
  · intro other hoth
    simp [answer, hoth]
  · exact .inr ⟨hwts, rfl, rfl, _, rfl, by simp⟩
  · simpa [answer, hemp] using harr
  · show b.inFlightCount + 1 = ((b.answer .granted).outstanding : ℤ)
    have := hb.count
    omega
  · show b.inFlightCount + 1 ≤ _
    omega
  · intro hne
    exact absurd hemp hne

lemma inv_enqueue (hb : Inv settings b) (signal now)
    (htaken : ¬ b.inFlightCount < settings.maxConcurrent)
    (hroom : ¬ settings.maxQueue ≤ b.waiters.length) : Inv settings (b.enqueue signal now) := by
  obtain ⟨-, hgr, harr⟩ := ordered_length hb.toOrdered
  have hord : Ordered (b.enqueue signal now) := by
    refine ordered_change hb.toOrdered (.inl ⟨rfl, rfl⟩) ?_ ?_ ?_
    · intro other hoth
      simp [enqueue, hoth]
    · exact .inl ⟨mem_append_right _ (mem_singleton_self _), hgr, rfl, rfl⟩
    · rwa [append_assoc] at harr
  refine ⟨hord, ?_, hb.capped, ?_, ?_⟩
  · have hcnt : (b.enqueue signal now).outstanding = b.outstanding := by
      simp [outstanding, enqueue, AcquireCall.holds]
    rw [hcnt]
    exact hb.count
  · intro _
    have := hb.capped
    show b.inFlightCount = _
    omega
  · simp only [enqueue, length_append, length_singleton]
    omega

lemma inv_acquire (hb : Inv settings b) (signal now) :
    Inv settings (b.acquire settings signal now) := by
  unfold acquire
  split
  · exact inv_answer_rejected settings hb _
  · split_ifs with hfree hfull
    · exact inv_answer_granted settings hb hfree
    · exact inv_answer_rejected settings hb _
    · exact inv_enqueue settings hb signal now hfree hfull

/-! ### Leaving the queue, and releasing -/

/-- What is armed belongs to a waiter. -/
lemma mem_waiters_of_armed (hb : Inv settings b) (hcall : b.calls[place]? = some call)
    (harmed : call.timer ∨ call.listening) : place ∈ b.waiters := by
  rcases hb.stands place call hcall with ⟨hwaits, -⟩ | ⟨-, htimer, hlis, -⟩
  · exact hwaits
  · simp [htimer, hlis] at harmed

lemma inv_turnAway (hb : Inv settings b) (hcall : b.calls[place]? = some call)
    (hwaits : place ∈ b.waiters) (error) : Inv settings (b.turnAway place call error) := by
  obtain ⟨hgr, hset, -⟩ := (hb.stands place call hcall).of_waiting hwaits
  have hnd : b.waiters.Nodup := (pairwise_append.mp hb.arrival).2.1.imp (fun h => ne_of_lt h)
  have hnew : (call.dispose.settle (.rejected error)).settlements = [.rejected error] := by
    simp [AcquireCall.settle, AcquireCall.dispose, hset]
  have hord : Ordered (b.turnAway place call error) := by
    have hlt : place < b.calls.length := (List.getElem?_eq_some_iff.mp hcall).1
    refine ordered_change hb.toOrdered (.inr ⟨hlt, rfl⟩) ?_ ?_ ?_
    · exact fun other hoth => ⟨mem_erase_of_ne hoth, Iff.rfl⟩
    · exact .inr ⟨hnd.not_mem_erase, rfl, rfl, _, hnew, iff_of_false hgr nofun⟩
    · exact hb.arrival.sublist (erase_sublist.append_left _)
  refine ⟨hord, ?_, hb.capped, ?_, ?_⟩
  · have hcnt := Machine.countP_set_add hcall AcquireCall.holds
      (call.dispose.settle (.rejected error))
    rw [if_neg (by simp [AcquireCall.holds, hset]),
      if_neg (by simp [AcquireCall.holds, hnew])] at hcnt
    exact hb.count.trans (congrArg Int.ofNat hcnt.symm)
  · intro _
    exact hb.saturated (ne_nil_of_mem hwaits)
  · exact le_trans length_erase_le hb.bounded

/-- A first release marks the permit and changes nothing about the queue. -/
lemma ordered_markReleased (hb : Ordered b) (hcall : b.calls[place]? = some call)
    (hgr : Settlement.granted ∈ call.settlements) :
    Ordered { b with calls := b.calls.set place { call with released := true } } := by
  have hlt : place < b.calls.length := (List.getElem?_eq_some_iff.mp hcall).1
  refine ordered_change hb (.inr ⟨hlt, rfl⟩) (fun _ _ => ⟨Iff.rfl, Iff.rfl⟩) ?_ hb.arrival
  exact .inr ((hb.stands place call hcall).of_settled (ne_nil_of_mem hgr))

/-- The head of the queue is granted after everyone granted so far, and before
everyone who still waits. -/
lemma ordered_grantHead {rest} (hb : Ordered b) {next} (hwts : b.waiters = next :: rest) :
    Ordered { b with
      waiters := rest
      calls := b.calls.modify next (fun call => call.dispose.settle .granted)
      grants := b.grants ++ [next] } ∧
    (b.calls.modify next (fun call => call.dispose.settle .granted)).countP AcquireCall.holds =
      b.outstanding + 1 := by
  have hnext : next ∈ b.waiters := by simp [hwts]
  have hlt := hb.known next (mem_append_right _ hnext)
  obtain ⟨call, hcall⟩ : ∃ call, b.calls[next]? = some call := ⟨_, getElem?_eq_getElem hlt⟩
  obtain ⟨-, hsett, hrel⟩ := (hb.stands next call hcall).of_waiting hnext
  have harr := hb.arrival
  rw [hwts, List.append_cons] at harr
  have hset : b.calls.modify next (fun call => call.dispose.settle .granted) =
      b.calls.set next (call.dispose.settle .granted) := by
    rw [modify_eq_set_getElem?, hcall]
    rfl
  have hnew : (call.dispose.settle .granted).settlements = [.granted] := by
    simp [AcquireCall.settle, AcquireCall.dispose, hsett]
  have hout : next ∉ rest := by
    intro hrest
    have hsort := (pairwise_append.mp harr).2.2 next (by simp) next hrest
    exact lt_irrefl next hsort
  constructor
  · refine ordered_change hb (.inr ⟨hlt, hset⟩) ?_ ?_ harr
    · intro other hoth
      simp [hwts, hoth]
    · exact .inr ⟨hout, rfl, rfl, _, hnew, by simp⟩
  · have hcnt := Machine.countP_set_add hcall AcquireCall.holds (call.dispose.settle .granted)
    have hpre : call.holds = false := by simp [AcquireCall.holds, hsett]
    have haft : (call.dispose.settle .granted).holds := by
      rw [AcquireCall.holds, hnew]
      simp [AcquireCall.settle, AcquireCall.dispose, hrel]
    rw [hset]
    simpa [outstanding, hpre, haft] using hcnt

lemma inv_release {t} (hb : Inv settings b) (hcall : b.calls[place]? = some call)
    (hgranted : Settlement.granted ∈ call.settlements) (h : b.release settings place call = .ok t) :
    Inv settings t := by
  unfold release at h
  split_ifs at h with hreleased
  cases h
  have hordered := ordered_markReleased hb.toOrdered hcall hgranted
  have hcount := Machine.countP_set_add hcall AcquireCall.holds { call with released := true }
  rw [if_pos (by simpa [AcquireCall.holds, hgranted] using hreleased),
    if_neg (by simp [AcquireCall.holds])] at hcount
  have hb' := hb.count
  unfold handOff
  cases hwaiters : b.waiters with
  | nil =>
    rw [hwaiters] at hordered
    refine ⟨⟨hordered.stands, hordered.known, hordered.arrival⟩, ?_, ?_, ?_, Nat.zero_le _⟩
    · simp only [outstanding] at hcount hb' ⊢
      omega
    · have := hb.capped
      simp only
      omega
    · intro hne
      exact absurd rfl hne
  | cons next rest =>
    obtain ⟨hnext, hgrow⟩ := ordered_grantHead hordered hwaiters
    have hbound := hb.bounded
    rw [hwaiters, length_cons] at hbound
    refine ⟨hnext, ?_, hb.capped, ?_, ?_⟩
    · -- the slot changes hands: one permit out, one permit in
      simp only [outstanding] at hcount hgrow hb' ⊢
      omega
    · intro _
      exact hb.saturated (by simp [hwaiters])
    · show rest.length ≤ _
      omega

lemma inv_step (b a t) (hb : Inv settings b) (h : step settings b a = some t) :
    Inv settings t := by
  cases a <;> simp only [step] at h
  case acquire signal now =>
    cases h
    exact inv_acquire settings hb signal now
  case release place =>
    cases hcall : b.calls[place]? with
    | none => simp [hcall] at h
    | some call =>
      simp only [hcall] at h
      split_ifs at h with hgr
      cases hrel : b.release settings place call with
      | error e =>
        rw [hrel] at h
        rw [← Option.some.inj h]
        exact hb
      | ok b' =>
        rw [hrel] at h
        rw [← Option.some.inj h]
        exact inv_release settings hb hcall hgr hrel
  case timeout place now =>
    cases hcall : b.calls[place]? with
    | none => simp [hcall] at h
    | some call =>
      simp only [hcall] at h
      split_ifs at h with harmed
      cases h
      exact inv_turnAway settings hb hcall (mem_waiters_of_armed settings hb hcall (.inl harmed)) _
  case abort place reason =>
    cases hcall : b.calls[place]? with
    | none => simp [hcall] at h
    | some call =>
      simp only [hcall] at h
      split_ifs at h with harmed
      cases h
      exact inv_turnAway settings hb hcall (mem_waiters_of_armed settings hb hcall (.inr harmed)) _

/-! ### Whole runs -/

lemma mem_grants_iff (hb : Ordered b) : place ∈ b.grants ↔
    ∃ call, b.calls[place]? = some call ∧ Settlement.granted ∈ call.settlements := by
  constructor
  · intro hgrant
    have hcall := getElem?_eq_getElem (hb.known place (mem_append_left _ hgrant))
    refine ⟨_, hcall, ?_⟩
    rcases hb.stands place _ hcall with ⟨-, hnot, -⟩ | ⟨-, -, -, settlement, hone, hiff⟩
    · exact absurd hgrant hnot
    · rw [hone, hiff.mp hgrant]
      exact mem_singleton_self _
  · rintro ⟨call, hcall, hmem⟩
    obtain ⟨-, -, -, settlement, hone, hiff⟩ :=
      (hb.stands place call hcall).of_settled (ne_nil_of_mem hmem)
    rw [hone, mem_singleton] at hmem
    exact hiff.mpr hmem.symm

lemma settlements_le_one (hb : Ordered b) (call) (hcall : call ∈ b.calls) :
    call.settlements.length ≤ 1 := by
  obtain ⟨place, hplace⟩ := mem_iff_getElem?.mp hcall
  rcases hb.stands place call hplace with ⟨-, -, hnone, -⟩ | ⟨-, -, -, settlement, hone, -⟩
  · simp [hnone]
  · simp [hone]

lemma not_granted_of_rejected {error} (hb : Ordered b) (hcall : b.calls[place]? = some call)
    (hrej : Settlement.rejected error ∈ call.settlements) : place ∉ b.grants := by
  intro hgrant
  obtain ⟨-, -, -, settlement, hone, hiff⟩ :=
    (hb.stands place call hcall).of_settled (ne_nil_of_mem hrej)
  rw [hone, hiff.mp hgrant, mem_singleton] at hrej
  cases hrej

/-- Whatever the order of acquires, releases, timeouts and aborts, no permit is lost or
made up, the queue holds only whom no slot is free for, and grants follow arrival. -/
theorem bulkhead_conserves_permits (as : List Action) (b : Bulkhead)
    (h : Machine.exec (step settings) create as = some b) :
    b.inFlightCount = b.outstanding ∧ b.outstanding ≤ settings.maxConcurrent ∧
    b.waiters.length ≤ settings.maxQueue ∧
    (b.waiters ≠ [] → b.inFlightCount = settings.maxConcurrent) ∧
    (∀ place, place ∈ b.grants ↔
      ∃ call, b.calls[place]? = some call ∧ Settlement.granted ∈ call.settlements) ∧
    b.grants.Pairwise (· < ·) ∧
    (∀ earlier ∈ b.grants, ∀ later ∈ b.waiters, earlier < later) ∧
    (∀ call ∈ b.calls, call.settlements.length ≤ 1) ∧
    ∀ place call error, b.calls[place]? = some call →
      Settlement.rejected error ∈ call.settlements → place ∉ b.grants := by
  have hb := Machine.exec_invariant (Inv settings) (inv_step settings) (inv_create settings) h
  have hcapp : b.outstanding ≤ settings.maxConcurrent := by
    have hcnt := hb.count
    have hcap := hb.capped
    omega
  obtain ⟨hgr, -, hahead⟩ := pairwise_append.mp hb.arrival
  refine ⟨hb.count, hcapp, hb.bounded, hb.saturated, fun _ => mem_grants_iff hb.toOrdered,
    hgr, hahead, settlements_le_one hb.toOrdered, ?_⟩
  intro place call error hcall hrej
  exact not_granted_of_rejected hb.toOrdered hcall hrej

/-- One slot and a queue of two: the first waiter times out, the second gets the slot
when it is released, and releasing it again changes nothing. -/
theorem bulkhead_conserves_permits_run :
    ∃ b, Machine.exec (step ⟨"db", 1, 2, 100, by decide, by decide⟩) create
      [.acquire .absent 0, .acquire .pending 0, .acquire .absent 10, .acquire .absent 10,
        .timeout 1 100, .release 0, .release 0] = some b ∧
      b.grants = [0, 2] ∧ b.waiters = [] ∧ b.inFlightCount = 1 ∧ b.outstanding ≤ 1 := by
  refine ⟨_, rfl, rfl, rfl, rfl, ?_⟩
  exact (bulkhead_conserves_permits ⟨"db", 1, 2, 100, by decide, by decide⟩
    [.acquire .absent 0, .acquire .pending 0, .acquire .absent 10, .acquire .absent 10,
      .timeout 1 100, .release 0, .release 0] _ rfl).2.1

end Bulkhead

end BoilerplateExpress.Resilience

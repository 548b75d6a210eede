import BoilerplateExpress.Errors
import BoilerplateExpress.JsString
import BoilerplateExpress.Machine

/-!
# The event bus

`events/event-bus.ts`: subscribers of named events over one `EventEmitter`, and publications
that wait for every handler. There is one action per stretch of code that runs without a break:
a subscription, a publication up to its `emit`, one listener called by `emit`, one handler that
settles, and the end of `Promise.all`. A handler is known by how it settles; what it does
meanwhile is made of actions of its own.

`toError` looks at the thrown value with `instanceof` and `String`. Both run code of an object
and may throw; what they do is given by a `ValueRuntime`.
-/
namespace BoilerplateExpress.Events

open List

/-- The error a reporter is handed: the thrown one, or a new one with the value's text. -/
inductive ReportedError (V : Type) where
  | thrown (value : V)
  | new (message : JsString)

def toError {V : Type} (runtime : ValueRuntime JsString V) (value : V) : Except V (ReportedError V) := do
  if ← runtime.instanceofError value then
    return .thrown value
  return .new (← runtime.string value)

structure DomainEvent (P : Type) where
  id : String
  name : String
  occurredAt : ℤ
  correlationId : Option String
  payload : P

structure PublishOptions where
  correlationId : Option String := none
  eventId : Option String := none
  occurredAt : Option ℤ := none
  onHandlerError : Option ℕ := none

/-- A subscriber's wrapper on the emitter. -/
structure Listener where
  event : String
  handlerName : String
  once : Bool

inductive HandlerOutcome (V : Type) where
  | resolved
  | failed (value : V)

/-- One run of `runIsolated`, with its arguments; `outcome` is how the handler settled. -/
structure HandlerCall (P V : Type) where
  publication : ℕ
  listener : ℕ
  handlerName : String
  event : DomainEvent P
  reportTo : Option ℕ
  outcome : Option (HandlerOutcome V)

/-- What a publication rejects with: the name is reserved, or a promise of its handlers. -/
inductive PublishError (V : Type) where
  | reserved (message : String)
  | isolation (value : V)

/-- `audience` holds the listeners attached when `emit` started, `emitting` those of them that
it has still to call. -/
structure Publication (P V : Type) where
  event : DomainEvent P
  reportTo : Option ℕ
  audience : List ℕ
  emitting : List ℕ
  outcome : Option (Except (PublishError V) Unit)

/-- A call of a reporter: the one of the publication, or the bus's own. -/
structure Report (P V : Type) where
  call : ℕ
  error : ReportedError V
  event : DomainEvent P
  handlerName : String
  reporter : Option ℕ

/-- `listeners` holds every wrapper ever made, by its number; `attached` those that the emitter
has, in order. -/
structure EventBus (P V : Type) where
  listeners : List Listener := []
  attached : List ℕ := []
  fired : List ℕ := []
  publications : List (Publication P V) := []
  calls : List (HandlerCall P V) := []
  reports : List (Report P V) := []

def createEventBus {P V : Type} (maxListenersPerEvent : ℚ := 20) :
    Except RangeError (EventBus P V) :=
  if maxListenersPerEvent.den = 1 ∧ 1 ≤ maxListenersPerEvent then .ok {}
  else .error ⟨"createEventBus: maxListenersPerEvent must be an integer >= 1, received ",
    maxListenersPerEvent⟩

def reservedEventNames : List String := ["error", "newListener", "removeListener"]

def assertUsableName (name : String) : Except String Unit :=
  if name ∈ reservedEventNames then
    .error ("createEventBus: \"" ++ name ++ "\" is reserved by EventEmitter")
  else .ok ()

namespace EventBus

variable {P V : Type}

def hears (s : EventBus P V) (name : String) (id : ℕ) : Bool :=
  s.listeners[id]?.any (·.event = name)

def subscribe (s : EventBus P V) (name handlerName : String) (once : Bool) : EventBus P V :=
  match assertUsableName name with
  | .error _ => s
  | .ok _ =>
    { s with
      listeners := s.listeners ++ [⟨name, handlerName, once⟩]
      attached := s.attached ++ [s.listeners.length] }

def unsubscribe (s : EventBus P V) (id : ℕ) : EventBus P V :=
  { s with attached := s.attached.filter (· ≠ id) }

def removeAllListeners (s : EventBus P V) : Option String → EventBus P V
  | none => { s with attached := [] }
  | some name => { s with attached := s.attached.filter (fun id => !s.hears name id) }

/-- `emit` calls the listeners that are attached when it starts. -/
def publish (s : EventBus P V) (name : String) (payload : P) (options : PublishOptions)
    (newId : String) (now : ℤ) : EventBus P V :=
  let event : DomainEvent P :=
    ⟨options.eventId.getD newId, name, options.occurredAt.getD now, options.correlationId, payload⟩
  match assertUsableName name with
  | .error message =>
    { s with publications := s.publications ++
        [⟨event, options.onHandlerError, [], [], some (.error (.reserved message))⟩] }
  | .ok _ =>
    let listeners := s.attached.filter (s.hears name)
    { s with publications := s.publications ++
        [⟨event, options.onHandlerError, listeners, listeners, none⟩] }

def setPublication (s : EventBus P V) (p : ℕ) (publication : Publication P V) : EventBus P V :=
  { s with publications := s.publications.set p publication }

def addCall (s : EventBus P V) (p id : ℕ) (publication : Publication P V) (listener : Listener) :
    EventBus P V :=
  { s with calls := s.calls ++
      [⟨p, id, listener.handlerName, publication.event, publication.reportTo, none⟩] }

/-- A wrapper of `once` takes itself off and runs its handler the first time only. -/
def callListener (s : EventBus P V) (p id : ℕ) (publication : Publication P V)
    (listener : Listener) : EventBus P V :=
  if listener.once then
    if id ∈ s.fired then s
    else
      { s with attached := s.attached.filter (· ≠ id), fired := s.fired ++ [id] }.addCall p id
        publication listener
  else s.addCall p id publication listener

/-- `emit` calls its next listener. -/
def emitNext (s : EventBus P V) (p : ℕ) : Option (EventBus P V) :=
  match s.publications[p]? with
  | none => none
  | some publication =>
    match publication.emitting with
    | [] => none
    | id :: rest =>
      (s.listeners[id]?).map fun listener =>
        (s.callListener p id publication listener).setPublication p
          { publication with emitting := rest }

/-- Reporting must not become its own failure: what the reporter throws is dropped. -/
def report (s : EventBus P V) (entry : Report P V) : Except V Unit → EventBus P V
  | .ok _ | .error _ => { s with reports := s.reports ++ [entry] }

end EventBus

section

variable {P V : Type} (runtime : ValueRuntime JsString V)

def shownName (handlerName : String) : String :=
  if handlerName = "" then "<anonymous>" else handlerName

/-- The report of a call, if it failed and its value can be made an error. -/
def HandlerCall.report (call : HandlerCall P V) (c : ℕ) : Option (Report P V) :=
  match call.outcome with
  | some (.failed value) =>
    match toError runtime value with
    | .ok error => some ⟨c, error, call.event, shownName call.handlerName, call.reportTo⟩
    | .error _ => none
  | _ => none

/-- The promise of `runIsolated`: it rejects only with what `toError` itself throws. -/
def HandlerCall.promise (call : HandlerCall P V) : Option (Except V Unit) :=
  match call.outcome with
  | none => none
  | some .resolved => some (.ok ())
  | some (.failed value) =>
    match toError runtime value with
    | .ok _ => some (.ok ())
    | .error thrown => some (.error thrown)

end

namespace EventBus

variable {P V : Type} (runtime : ValueRuntime JsString V)

/-- A handler settles, and `runIsolated` goes on to its end. -/
def settle (s : EventBus P V) (c : ℕ) (outcome : HandlerOutcome V) (reporter : Except V Unit) :
    Option (EventBus P V) :=
  match s.calls[c]? with
  | none => none
  | some call =>
    if call.outcome.isSome then none
    else
      let settled : HandlerCall P V := { call with outcome := some outcome }
      let t := { s with calls := s.calls.set c settled }
      match settled.report runtime c with
      | none => some t
      | some entry => some (t.report entry reporter)

def callsOf (s : EventBus P V) (p : ℕ) : List (HandlerCall P V) :=
  s.calls.filter (·.publication = p)

/-- The first of the promises that has rejected. -/
def rejection (s : EventBus P V) (p : ℕ) : Option V :=
  (s.callsOf p).findSome? fun call =>
    match call.promise runtime with
    | some (.error value) => some value
    | _ => none

/-- `Promise.all`: it rejects with the first rejection, and resolves when all have resolved. -/
def promiseAll (s : EventBus P V) (p : ℕ) : Option (Except (PublishError V) Unit) :=
  match s.rejection runtime p with
  | some value => some (.error (.isolation value))
  | none =>
    if (s.callsOf p).all (fun call => (call.promise runtime).isSome) then some (.ok ()) else none

def finish (s : EventBus P V) (p : ℕ) : Option (EventBus P V) :=
  match s.publications[p]? with
  | none => none
  | some publication =>
    if publication.emitting = [] ∧ publication.outcome.isNone then
      (s.promiseAll runtime p).map fun outcome =>
        s.setPublication p { publication with outcome := some outcome }
    else none

end EventBus

inductive Action (P V : Type) where
  | subscribe (name handlerName : String) (once : Bool)
  | unsubscribe (id : ℕ)
  | removeAllListeners (name : Option String)
  | publish (name : String) (payload : P) (options : PublishOptions) (newId : String) (now : ℤ)
  | emitNext (p : ℕ)
  | settle (c : ℕ) (outcome : HandlerOutcome V) (reporter : Except V Unit)
  | finish (p : ℕ)

def step {P V : Type} (runtime : ValueRuntime JsString V) (s : EventBus P V) : Action P V → Option (EventBus P V)
  | .subscribe name handlerName once => some (s.subscribe name handlerName once)
  | .unsubscribe id => some (s.unsubscribe id)
  | .removeAllListeners name => some (s.removeAllListeners name)
  | .publish name payload options newId now => some (s.publish name payload options newId now)
  | .emitNext p => s.emitNext p
  | .settle c outcome reporter => s.settle runtime c outcome reporter
  | .finish p => s.finish runtime p

/-! ## What holds in every reachable state -/

section

variable {P V : Type} (runtime : ValueRuntime JsString V)

lemma promise_isSome_iff (call : HandlerCall P V) :
    (call.promise runtime).isSome ↔ call.outcome.isSome := by
  unfold HandlerCall.promise
  repeat' split
  all_goals simp [*]

/-- A promise rejects exactly when the handler failed with a value that is no error and that
cannot be made one. -/
theorem promise_rejected_iff (call : HandlerCall P V) (thrown) :
    call.promise runtime = some (.error thrown) ↔
      ∃ value, call.outcome = some (.failed value) ∧ toError runtime value = .error thrown := by
  rcases hout : call.outcome with _ | (_ | value)
  · simp [HandlerCall.promise, hout]
  · simp [HandlerCall.promise, hout]
  · cases herror : toError runtime value <;> simp [HandlerCall.promise, hout, herror]

variable {call : HandlerCall P V}

lemma promise_resolved (hset : call.outcome.isSome)
    (hnot : ∀ thrown, call.promise runtime ≠ some (.error thrown)) :
    call.promise runtime = some (.ok ()) := by
  rw [← promise_isSome_iff runtime] at hset
  cases hprom : call.promise runtime with
  | none => rw [hprom] at hset; cases hset
  | some result =>
    cases result with
    | ok _ => rfl
    | error thrown => exact absurd hprom (hnot thrown)

variable {s : EventBus P V} {p : ℕ}

lemma rejection_eq_some {value} (h : s.rejection runtime p = some value) :
    ∃ call ∈ s.calls, call.publication = p ∧ call.promise runtime = some (.error value) := by
  obtain ⟨call, hmem, hvalue⟩ := exists_of_findSome?_eq_some h
  simp only [EventBus.callsOf, mem_filter, decide_eq_true_eq] at hmem
  refine ⟨call, hmem.1, hmem.2, ?_⟩
  split at hvalue
  · rename_i thrown hprom
    rw [hprom, Option.some.inj hvalue]
  · cases hvalue

lemma rejection_eq_none_iff (s : EventBus P V) (p) :
    s.rejection runtime p = none ↔ ∀ call ∈ s.calls, call.publication = p →
      ∀ thrown, call.promise runtime ≠ some (.error thrown) := by
  simp only [EventBus.rejection, findSome?_eq_none_iff, EventBus.callsOf, mem_filter,
    decide_eq_true_eq]
  constructor
  · intro h call hmem hp thrown hprom
    have := h call ⟨hmem, hp⟩
    rw [hprom] at this
    cases this
  · intro h call hmem
    split
    · rename_i thrown hprom
      exact absurd hprom (h call hmem.1 hmem.2 thrown)
    · rfl

/-- What is known about publication number `p`. -/
structure PublicationOk (s : EventBus P V) (p : ℕ) (publication : Publication P V) : Prop where
  emitting_known : ∀ id ∈ publication.emitting, id < s.listeners.length
  closed : publication.outcome ≠ none → publication.emitting = []
  resolved : publication.outcome = some (.ok ()) → ∀ call ∈ s.calls, call.publication = p →
    call.promise runtime = some (.ok ())
  rejected : ∀ error, publication.outcome = some (.error error) →
    publication.event.name ∈ reservedEventNames ∨ ∃ call ∈ s.calls, call.publication = p ∧
      ∃ thrown, call.promise runtime = some (.error thrown)
  heard : ∀ id ∈ publication.audience, id ∈ publication.emitting ∨ id ∈ s.fired ∨
    ∃ call ∈ s.calls, call.publication = p ∧ call.listener = id

/-- The call was made by a publication. -/
def Owned (s : EventBus P V) (call : HandlerCall P V) : Prop :=
  ∃ publication, s.publications[call.publication]? = some publication ∧
    publication.event = call.event ∧ publication.reportTo = call.reportTo

structure Inv (s : EventBus P V) : Prop where
  owned : ∀ call ∈ s.calls, Owned s call
  attached_known : ∀ id ∈ s.attached, id < s.listeners.length
  publication_ok : ∀ p publication, s.publications[p]? = some publication →
    PublicationOk runtime s p publication
  reported : ∀ c, s.reports.filter (·.call = c) =
    (s.calls[c]?.bind (fun call => call.report runtime c)).toList

lemma inv_initial : Inv runtime ({} : EventBus P V) where
  owned := by simp
  attached_known := by simp
  publication_ok := by simp
  reported := by simp

/-- What no step takes back. -/
structure Grows (s t : EventBus P V) : Prop where
  listeners : s.listeners.length ≤ t.listeners.length
  fired : ∀ id ∈ s.fired, id ∈ t.fired
  publications : ∀ (p : ℕ) (old : Publication P V), s.publications[p]? = some old →
    ∃ new : Publication P V, t.publications[p]? = some new ∧ new.event = old.event ∧
      new.reportTo = old.reportTo
  calls : ∀ call ∈ s.calls, ∃ kept ∈ t.calls, kept.publication = call.publication ∧
    kept.listener = call.listener ∧ (call.outcome.isSome → kept = call)

variable {t : EventBus P V}

lemma publicationOk_of_grows {publication}
    (h : PublicationOk runtime s p publication) (hgrows : Grows s t)
    (hnew : publication.outcome = some (.ok ()) → ∀ call ∈ t.calls, call.publication = p →
      call ∈ s.calls) : PublicationOk runtime t p publication where
  emitting_known := fun id hid => (h.emitting_known id hid).trans_le hgrows.listeners
  closed := h.closed
  resolved := fun hresolved call hcall hp =>
    h.resolved hresolved call (hnew hresolved call hcall hp) hp
  rejected := by
    intro error herror
    refine (h.rejected error herror).imp_right ?_
    rintro ⟨call, hcall, hp, thrown, hthrown⟩
    obtain ⟨kept, hkept, -, -, hsame⟩ := hgrows.calls call hcall
    obtain rfl : kept = call := hsame (by rw [← promise_isSome_iff runtime, hthrown]; rfl)
    exact ⟨kept, hkept, hp, thrown, hthrown⟩
  heard := by
    intro id hid
    refine (h.heard id hid).imp_right (Or.imp (hgrows.fired id) ?_)
    rintro ⟨call, hcall, hp, hlistener⟩
    obtain ⟨kept, hkept, hkeptp, hkeptl, -⟩ := hgrows.calls call hcall
    exact ⟨kept, hkept, hkeptp.trans hp, hkeptl.trans hlistener⟩

/-- A step keeps the invariant if its calls belong to publications and none of them is new to a
publication that has resolved. -/
theorem inv_of_grows (hgrows : Grows s t) (howned : ∀ call ∈ t.calls, Owned s call)
    (hatt : ∀ id ∈ t.attached, id < t.listeners.length)
    (hok : ∀ p publication, t.publications[p]? = some publication →
      PublicationOk runtime s p publication ∧ (publication.outcome = some (.ok ()) →
        ∀ call ∈ t.calls, call.publication = p → call ∈ s.calls))
    (hrep : ∀ c, t.reports.filter (·.call = c) =
      (t.calls[c]?.bind (fun call => call.report runtime c)).toList) : Inv runtime t where
  owned := by
    intro call hcall
    obtain ⟨publication, hp, hevent, hreport⟩ := howned call hcall
    obtain ⟨next, hnext, hnextEv, hnex⟩ := hgrows.publications _ publication hp
    exact ⟨next, hnext, hnextEv.trans hevent, hnex.trans hreport⟩
  attached_known := hatt
  publication_ok := fun p publication hp =>
    publicationOk_of_grows runtime (hok p publication hp).1 hgrows (hok p publication hp).2
  reported := hrep

lemma inv_listeners {fired attached listeners} (h : Inv runtime s)
    (hfired : ∀ id ∈ s.fired, id ∈ fired) (hlen : s.listeners.length ≤ listeners.length)
    (hatt : ∀ id ∈ attached, id < listeners.length) :
    Inv runtime { s with listeners := listeners, attached := attached, fired := fired } := by
  refine inv_of_grows (s := s) runtime ⟨hlen, hfired, ?_, ?_⟩ h.owned hatt ?_ h.reported
  · exact fun p publication hp => ⟨publication, hp, rfl, rfl⟩
  · exact fun call hcall => ⟨call, hcall, rfl, rfl, fun _ => rfl⟩
  · exact fun p publication hp => ⟨h.publication_ok p publication hp, fun _ _ hcall _ => hcall⟩

lemma inv_subscribe (h : Inv runtime s) (name handlerName once) :
    Inv runtime (s.subscribe name handlerName once) := by
  unfold EventBus.subscribe
  split
  · exact h
  · refine inv_listeners runtime h (fun _ hid => hid) (by simp) ?_
    intro id hid
    simp only [mem_append, mem_singleton, length_append] at hid ⊢
    rcases hid with hid | rfl
    · exact (h.attached_known id hid).trans (Nat.lt_succ_self _)
    · exact Nat.lt_succ_self _

lemma inv_detached {fired attached} (h : Inv runtime s) (hfired : ∀ id ∈ s.fired, id ∈ fired)
    (hatt : ∀ id ∈ attached, id ∈ s.attached) :
    Inv runtime { s with attached := attached, fired := fired } :=
  inv_listeners runtime h hfired le_rfl (fun id hid => h.attached_known id (hatt id hid))

lemma inv_removeAllListeners (h : Inv runtime s) (name) :
    Inv runtime (s.removeAllListeners name) := by
  cases name with
  | none => exact inv_detached runtime h (fun _ hid => hid) (by simp)
  | some name => exact inv_detached runtime h (fun _ hid => hid) (fun _ => mem_of_mem_filter)

lemma inv_add_publication {publication} (h : Inv runtime s)
    (hok : PublicationOk runtime s s.publications.length publication) :
    Inv runtime { s with publications := s.publications ++ [publication] } := by
  refine inv_of_grows (s := s) runtime ⟨le_rfl, fun _ hid => hid, ?_, ?_⟩ h.owned h.attached_known ?_
    h.reported
  · intro p other hp
    exact ⟨other, by rw [getElem?_append_left (List.getElem?_eq_some_iff.mp hp).1]; exact hp,
      rfl, rfl⟩
  · exact fun call hcall => ⟨call, hcall, rfl, rfl, fun _ => rfl⟩
  · intro p other hp
    refine ⟨?_, fun _ _ hcall _ => hcall⟩
    rw [getElem?_append] at hp
    split at hp
    · exact h.publication_ok p other hp
    · rename_i hlt
      obtain ⟨hlen, hget⟩ := List.getElem?_eq_some_iff.mp hp
      obtain rfl : p = s.publications.length := by
        simp only [length_singleton] at hlen
        omega
      simp only [getElem_singleton] at hget
      exact hget ▸ hok

lemma assertUsableName_eq_ok_iff (name) :
    assertUsableName name = .ok () ↔ name ∉ reservedEventNames := by
  unfold assertUsableName
  split <;> simp_all

lemma inv_publish (h : Inv runtime s) (name payload options newId now) :
    Inv runtime (s.publish name payload options newId now) := by
  unfold EventBus.publish
  cases hname : assertUsableName name with
  | error message =>
    have hres : name ∈ reservedEventNames := by
      by_contra hnot
      rw [(assertUsableName_eq_ok_iff name).mpr hnot] at hname
      cases hname
    refine inv_add_publication runtime h ?_
    exact ⟨by simp, fun _ => rfl, by simp, fun _ _ => .inl hres, by simp⟩
  | ok _ =>
    refine inv_add_publication runtime h ?_
    exact ⟨fun id hid => h.attached_known id (mem_of_mem_filter hid), by simp, by simp,
      by simp, fun id hid => .inl hid⟩

lemma inv_setPublication {old new} (h : Inv runtime s) (hp : s.publications[p]? = some old)
    (hevent : new.event = old.event) (hrep : new.reportTo = old.reportTo)
    (hok : PublicationOk runtime s p new) : Inv runtime (s.setPublication p new) := by
  have hself : (s.publications.set p new)[p]? = some new :=
    getElem?_set_self (List.getElem?_eq_some_iff.mp hp).1
  refine inv_of_grows (s := s) runtime ⟨le_rfl, fun _ hid => hid, ?_, ?_⟩ h.owned h.attached_known ?_
    h.reported
  · intro q other hq
    by_cases heq : p = q
    · subst heq
      obtain rfl : old = other := Option.some.inj (hp.symm.trans hq)
      exact ⟨new, hself, hevent, hrep⟩
    · exact ⟨other, (getElem?_set_ne heq).trans hq, rfl, rfl⟩
  · exact fun call hcall => ⟨call, hcall, rfl, rfl, fun _ => rfl⟩
  · intro q other hq
    refine ⟨?_, fun _ _ hcall _ => hcall⟩
    by_cases heq : p = q
    · subst heq
      exact Option.some.inj (hself.symm.trans hq) ▸ hok
    · exact h.publication_ok q other ((getElem?_set_ne heq).symm.trans hq)

lemma inv_addCall {publication} (h : Inv runtime s) {id}
    (hp : s.publications[p]? = some publication) (hopen : publication.outcome = none) (listener) :
    Inv runtime (s.addCall p id publication listener) := by
  refine inv_of_grows (s := s) runtime ⟨le_rfl, fun _ hid => hid, ?_, ?_⟩ ?_ h.attached_known ?_ ?_
  · exact fun q other hq => ⟨other, hq, rfl, rfl⟩
  · exact fun call hcall => ⟨call, mem_append_left _ hcall, rfl, rfl, fun _ => rfl⟩
  · intro call hcall
    rcases mem_append.mp hcall with hold | hnew
    · exact h.owned call hold
    · rw [mem_singleton.mp hnew]
      exact ⟨publication, hp, rfl, rfl⟩
  · intro q other hq
    refine ⟨h.publication_ok q other hq, ?_⟩
    intro hres call hcall hcallq
    rcases mem_append.mp hcall with hold | hnew
    · exact hold
    · obtain rfl : p = q := by simpa [mem_singleton.mp hnew] using hcallq
      rw [← Option.some.inj (hp.symm.trans hq), hopen] at hres
      cases hres
  · intro c
    have hold := h.reported c
    simp only [EventBus.addCall, getElem?_append]
    split
    · exact hold
    · rename_i hlt
      rw [getElem?_eq_none (Nat.not_lt.mp hlt)] at hold
      rw [hold]
      cases hc : c - s.calls.length <;> simp [HandlerCall.report]

lemma inv_callListener {publication} (h : Inv runtime s) {id}
    (hp : s.publications[p]? = some publication) (hopen : publication.outcome = none) (listener) :
    Inv runtime (s.callListener p id publication listener) := by
  unfold EventBus.callListener
  split
  · split
    · exact h
    · have hfired : Inv runtime { s with
          attached := s.attached.filter (· ≠ id), fired := s.fired ++ [id] } :=
        inv_detached runtime h (fun _ => mem_append_left _) (fun _ => mem_of_mem_filter)
      exact inv_addCall runtime hfired hp hopen listener
  · exact inv_addCall runtime h hp hopen listener

/-- A called listener has run its handler for this publication, or it is of `once` and had its
one delivery before. -/
theorem callListener_heard (s : EventBus P V) (p id publication listener) :
    id ∈ (s.callListener p id publication listener).fired ∨
      ∃ call ∈ (s.callListener p id publication listener).calls,
        call.publication = p ∧ call.listener = id := by
  unfold EventBus.callListener
  split
  · split
    · exact .inl ‹_›
    · exact .inl (by simp [EventBus.addCall])
  · exact .inr ⟨_, mem_append_right _ (mem_singleton_self _), rfl, rfl⟩

@[simp] lemma callListener_publications (s : EventBus P V) (p id publication listener) :
    (s.callListener p id publication listener).publications = s.publications := by
  unfold EventBus.callListener EventBus.addCall
  split <;> (try split) <;> rfl

lemma emitNext_eq_some (h : s.emitNext p = some t) :
    ∃ publication id rest listener, s.publications[p]? = some publication ∧
      publication.emitting = id :: rest ∧
      t = (s.callListener p id publication listener).setPublication p
        { publication with emitting := rest } := by
  unfold EventBus.emitNext at h
  split at h
  · cases h
  · rename_i publication hp
    split at h
    · cases h
    · rename_i id rest hemit
      obtain ⟨listener, -, rfl⟩ := Option.map_eq_some_iff.mp h
      exact ⟨publication, id, rest, listener, hp, hemit, rfl⟩

lemma inv_emitNext (h : Inv runtime s) (hstep : s.emitNext p = some t) : Inv runtime t := by
  obtain ⟨publication, id, rest, listener, hp, hemit, rfl⟩ := emitNext_eq_some hstep
  have hnone : publication.outcome = none := by
    by_contra hne
    rw [(h.publication_ok p publication hp).closed hne] at hemit
    cases hemit
  have hcal : Inv runtime (s.callListener p id publication listener) :=
    inv_callListener runtime h hp hnone listener
  have hp' : (s.callListener p id publication listener).publications[p]? = some publication := by
    rw [callListener_publications]
    exact hp
  have hok := hcal.publication_ok p publication hp'
  refine inv_setPublication runtime hcal hp' rfl rfl ?_
  refine ⟨?_, fun hne => absurd hnone hne, ?_, ?_, ?_⟩
  · intro id' hid
    exact hok.emitting_known id' (by rw [hemit]; exact mem_cons_of_mem _ hid)
  · intro hres
    rw [show publication.outcome = _ from hres] at hnone
    cases hnone
  · intro error hrej
    rw [show publication.outcome = _ from hrej] at hnone
    cases hnone
  · intro id' hid
    rcases hok.heard id' hid with hwait | hheard
    · rw [hemit] at hwait
      rcases mem_cons.mp hwait with rfl | hrest
      · exact .inr (callListener_heard s p id' publication listener)
      · exact .inl hrest
    · exact .inr hheard

variable {c : ℕ}

/-- The state after a handler has settled: its call has an outcome, and there may be a report. -/
theorem settle_eq_some {outcome reporter} (h : s.settle runtime c outcome reporter = some t) :
    ∃ call, s.calls[c]? = some call ∧ call.outcome = none ∧
      t = { s with
        calls := s.calls.set c { call with outcome := some outcome }
        reports := s.reports ++
          (HandlerCall.report runtime { call with outcome := some outcome } c).toList } := by
  unfold EventBus.settle at h
  split at h
  · cases h
  · rename_i call hcall
    split at h
    · cases h
    · rename_i hopen
      refine ⟨call, hcall, by simpa using hopen, ?_⟩
      dsimp only at h
      split at h
      · rename_i hrep
        rw [hrep, ← Option.some.inj h]
        simp
      · rename_i entry hrep
        rw [hrep, ← Option.some.inj h]
        cases reporter <;> simp [EventBus.report]

lemma report_call {entry} (h : call.report runtime c = some entry) : entry.call = c := by
  unfold HandlerCall.report at h
  split at h
  · split at h
    · rw [← Option.some.inj h]
    · cases h
  · cases h

lemma filter_report (call : HandlerCall P V) (c c') :
    (call.report runtime c).toList.filter (·.call = c') =
      if c = c' then (call.report runtime c).toList else [] := by
  cases hrep : call.report runtime c with
  | none => simp
  | some entry => simp [report_call runtime hrep, filter_singleton]

lemma inv_settle {outcome reporter} (h : Inv runtime s)
    (hstep : s.settle runtime c outcome reporter = some t) : Inv runtime t := by
  obtain ⟨call, hcall, hopen, rfl⟩ := settle_eq_some runtime hstep
  have hmem : call ∈ s.calls := mem_of_getElem? hcall
  have hself : (s.calls.set c { call with outcome := some outcome })[c]? =
      some { call with outcome := some outcome } :=
    getElem?_set_self (List.getElem?_eq_some_iff.mp hcall).1
  refine inv_of_grows (s := s) runtime ⟨le_rfl, fun _ hid => hid, ?_, ?_⟩ ?_ h.attached_known ?_ ?_
  · exact fun q other hq => ⟨other, hq, rfl, rfl⟩
  · intro other hoth
    obtain ⟨i, hi⟩ := mem_iff_getElem?.mp hoth
    by_cases heq : c = i
    · subst heq
      obtain rfl : call = other := Option.some.inj (hcall.symm.trans hi)
      exact ⟨_, mem_of_getElem? hself, rfl, rfl, by simp [hopen]⟩
    · exact ⟨other, mem_of_getElem? ((getElem?_set_ne heq).trans hi), rfl, rfl, fun _ => rfl⟩
  · intro other hoth
    rcases mem_or_eq_of_mem_set hoth with hold | rfl
    · exact h.owned other hold
    · exact h.owned call hmem
  · intro p publication hp
    have hok := h.publication_ok p publication hp
    refine ⟨hok, ?_⟩
    -- all calls of a resolved publication had settled before
    intro hres other hoth hotherp
    rcases mem_or_eq_of_mem_set hoth with hold | rfl
    · exact hold
    · have hprom := hok.resolved hres call hmem hotherp
      rw [HandlerCall.promise, hopen] at hprom
      cases hprom
  · intro c'
    have hold := h.reported c'
    rw [filter_append, filter_report, hold]
    by_cases heq : c = c'
    · subst heq
      rw [hself, hcall]
      simp [HandlerCall.report, hopen]
    · rw [getElem?_set_ne heq]
      simp [heq]

lemma promiseAll_eq_ok (h : s.promiseAll runtime p = some (.ok ())) :
    ∀ call ∈ s.calls, call.publication = p → call.promise runtime = some (.ok ()) := by
  unfold EventBus.promiseAll at h
  split at h
  · cases h
  · rename_i hnone
    split at h
    · rename_i hall
      intro call hcall hp
      have hsome := all_eq_true.mp hall call (by simp [EventBus.callsOf, hcall, hp])
      exact promise_resolved runtime ((promise_isSome_iff runtime call).mp hsome)
        ((rejection_eq_none_iff runtime s p).mp hnone call hcall hp)
    · cases h

lemma promiseAll_eq_error {error} (h : s.promiseAll runtime p = some (.error error)) :
    ∃ call ∈ s.calls, call.publication = p ∧
      ∃ thrown, call.promise runtime = some (.error thrown) := by
  unfold EventBus.promiseAll at h
  split at h
  · rename_i value hvalue
    obtain ⟨call, hcall, hp, hprom⟩ := rejection_eq_some runtime hvalue
    exact ⟨call, hcall, hp, value, hprom⟩
  · split at h <;> cases h

lemma inv_finish (h : Inv runtime s) (hstep : s.finish runtime p = some t) : Inv runtime t := by
  unfold EventBus.finish at hstep
  split at hstep
  · cases hstep
  · rename_i publication hp
    split at hstep
    · rename_i hdone
      obtain ⟨outcome, hout, rfl⟩ := Option.map_eq_some_iff.mp hstep
      have hok := h.publication_ok p publication hp
      refine inv_setPublication runtime h hp rfl rfl ?_
      refine ⟨hok.emitting_known, fun _ => hdone.1, ?_, ?_, hok.heard⟩
      · intro hres
        obtain rfl : outcome = .ok () := Option.some.inj hres
        exact promiseAll_eq_ok runtime hout
      · intro error hrej
        obtain rfl : outcome = .error error := Option.some.inj hrej
        exact .inr (promiseAll_eq_error runtime hout)
    · cases hstep

lemma inv_step (h : Inv runtime s) (action) (hstep : step runtime s action = some t) :
    Inv runtime t := by
  cases action with
  | subscribe name handlerName once =>
    exact Option.some.inj hstep ▸ inv_subscribe runtime h name handlerName once
  | unsubscribe id =>
    exact Option.some.inj hstep ▸
      inv_detached runtime h (fun _ hid => hid) (fun _ => mem_of_mem_filter)
  | removeAllListeners name => exact Option.some.inj hstep ▸ inv_removeAllListeners runtime h name
  | publish name payload options newId now =>
    exact Option.some.inj hstep ▸ inv_publish runtime h name payload options newId now
  | emitNext p => exact inv_emitNext runtime h hstep
  | settle c outcome reporter => exact inv_settle runtime h hstep
  | finish p => exact inv_finish runtime h hstep

end

end BoilerplateExpress.Events

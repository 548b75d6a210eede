import BoilerplateExpress.Events.EventBus

/-!
# Publishers are isolated from subscribers

`runIsolated` is meant to be total: whatever a handler throws is reported, and its promise
fulfils. Its `catch` block looks at the thrown value with `toError`, outside of any `try`, so a
value on which `String` throws rejects the promise of the publication, and the reporter is not
called. Such values in the publication's own handlers are the only way through.
-/
namespace BoilerplateExpress.Events

open List

section

variable {P V : Type} (runtime : ValueRuntime JsString V)

/-- The value is an error, or it is found not to be one and has a text. -/
def Convertible (value : V) : Prop :=
  runtime.instanceofError value = .ok true ∨
    (runtime.instanceofError value = .ok false ∧ ∃ text, runtime.string value = .ok text)

lemma convertible_iff (value) :
    Convertible runtime value ↔ ∃ error, toError runtime value = .ok error := by
  unfold Convertible toError
  cases runtime.instanceofError value with
  | error thrown => simp
  | ok isError =>
    cases isError with
    | true => simp [pure, Except.pure]
    | false => cases runtime.string value <;> simp

lemma not_rejected_of_convertible {call : HandlerCall P V}
    (h : ∀ value, call.outcome = some (.failed value) → Convertible runtime value) (thrown) :
    call.promise runtime ≠ some (.error thrown) := by
  intro hprom
  obtain ⟨value, hvalue, herror⟩ := (promise_rejected_iff runtime call thrown).mp hprom
  obtain ⟨error, hok⟩ := (convertible_iff runtime value).mp (h value hvalue)
  rw [hok] at herror
  cases herror

/-- The promise that `publish` gives for publication `p`: it never rejects, it resolves only
after every listener has been called and every handler has settled, it does resolve then, and
every failed handler has one report, at the reporter that the publication asked for. -/
structure Isolated (s : EventBus P V) (p : ℕ) (publication : Publication P V) : Prop where
  not_rejected : ∀ error, publication.outcome ≠ some (.error error)
  after_all : publication.outcome = some (.ok ()) →
    (∀ id ∈ publication.audience, id ∈ s.fired ∨
      ∃ call ∈ s.calls, call.publication = p ∧ call.listener = id) ∧
    ∀ call ∈ s.calls, call.publication = p → call.outcome.isSome
  calls_next : publication.emitting ≠ [] → (s.emitNext p).isSome
  resolves : publication.emitting = [] → publication.outcome = none →
    (∀ call ∈ s.calls, call.publication = p → call.outcome.isSome) →
    s.finish runtime p = some (s.setPublication p { publication with outcome := some (.ok ()) })
  reported : ∀ c call value, s.calls[c]? = some call → call.publication = p →
    call.outcome = some (.failed value) → ∃ error, s.reports.filter (·.call = c) =
      [⟨c, error, publication.event, shownName call.handlerName, publication.reportTo⟩]

variable {s : EventBus P V} {p : ℕ} {publication : Publication P V}

lemma finish_resolves (hp : s.publications[p]? = some publication)
    (hemitting : publication.emitting = []) (hopen : publication.outcome = none)
    (hsettled : ∀ call ∈ s.calls, call.publication = p → call.outcome.isSome)
    (hnot : ∀ call ∈ s.calls, call.publication = p →
      ∀ thrown, call.promise runtime ≠ some (.error thrown)) :
    s.finish runtime p =
      some (s.setPublication p { publication with outcome := some (.ok ()) }) := by
  have hnone : s.rejection runtime p = none :=
    (rejection_eq_none_iff runtime s p).mpr hnot
  have hall : (s.callsOf p).all (fun call => (call.promise runtime).isSome) := by
    rw [all_eq_true]
    intro call hcall
    simp only [EventBus.callsOf, mem_filter, decide_eq_true_eq] at hcall
    exact (promise_isSome_iff runtime call).mpr (hsettled call hcall.1 hcall.2)
  simp [EventBus.finish, hp, hemitting, hopen, EventBus.promiseAll, hnone, hall]

lemma emitNext_isSome (hp : s.publications[p]? = some publication)
    (hok : PublicationOk runtime s p publication) (hopen : publication.emitting ≠ []) :
    (s.emitNext p).isSome := by
  obtain ⟨id, rest, hemit⟩ := exists_cons_of_ne_nil hopen
  have hid := hok.emitting_known id (by rw [hemit]; exact mem_cons_self)
  simp [EventBus.emitNext, hp, hemit, getElem?_eq_getElem hid]

/-- A publication is isolated as long as the values that its handlers fail with can be
reported. -/
theorem isolated_of_convertible (h : Inv runtime s)
    (hvals : ∀ call ∈ s.calls, call.publication = p → ∀ value,
      call.outcome = some (.failed value) → Convertible runtime value)
    (hp : s.publications[p]? = some publication)
    (hname : publication.event.name ∉ reservedEventNames) : Isolated runtime s p publication := by
  have hok := h.publication_ok p publication hp
  have hnot : ∀ call ∈ s.calls, call.publication = p →
      ∀ thrown, call.promise runtime ≠ some (.error thrown) :=
    fun call hcall hcallp => not_rejected_of_convertible runtime (hvals call hcall hcallp)
  refine ⟨?_, ?_, emitNext_isSome runtime hp hok, ?_, ?_⟩
  · intro error herror
    rcases hok.rejected error herror with hreser | ⟨call, hcall, hcallp, thrown, hthr⟩
    · exact hname hreser
    · exact hnot call hcall hcallp thrown hthr
  · intro hres
    have hemit : publication.emitting = [] := hok.closed (by rw [hres]; simp)
    refine ⟨?_, ?_⟩
    · intro id hid
      rcases hok.heard id hid with hwait | hheard
      · rw [hemit] at hwait
        cases hwait
      · exact hheard
    · intro call hcall hcallp
      rw [← promise_isSome_iff runtime, hok.resolved hres call hcall hcallp]
      rfl
  · intro hemit hopen hset
    exact finish_resolves runtime hp hemit hopen hset hnot
  · intro c call value hcall hcallp hvalue
    have hmem : call ∈ s.calls := mem_of_getElem? hcall
    obtain ⟨error, herror⟩ :=
      (convertible_iff runtime value).mp (hvals call hmem hcallp value hvalue)
    obtain ⟨own, hown, hevent, hrep⟩ := h.owned call hmem
    obtain rfl : own = publication := by
      rw [hcallp, hp] at hown
      exact (Option.some.inj hown).symm
    rw [h.reported c, hcall, hevent, hrep]
    simp [HandlerCall.report, hvalue, herror]

lemma convertible_of_isolated (h : Inv runtime s) (hiso : Isolated runtime s p publication)
    {call} (hcall : call ∈ s.calls) (hcallp : call.publication = p) {value}
    (hvalue : call.outcome = some (.failed value)) : Convertible runtime value := by
  obtain ⟨c, hc⟩ := mem_iff_getElem?.mp hcall
  obtain ⟨error, hreport⟩ := hiso.reported c call value hc hcallp hvalue
  rw [h.reported c, hc] at hreport
  rw [convertible_iff]
  cases herror : toError runtime value with
  | ok error => exact ⟨error, rfl⟩
  | error thrown => simp [HandlerCall.report, hvalue, herror] at hreport

/-- In every run of a bus, with every set of handlers and reporters and every interleaving: a
publication is isolated from its subscribers exactly if every value that one of its handlers has
failed with can be looked at by `instanceof` and `String`. -/
theorem publish_isolated_iff_convertible {trace : List (Action P V)} {s : EventBus P V}
    (hrun : Machine.exec (step runtime) {} trace = some s) (p : ℕ) (publication : Publication P V)
    (hp : s.publications[p]? = some publication)
    (hname : publication.event.name ∉ reservedEventNames) :
    Isolated runtime s p publication ↔ ∀ call ∈ s.calls, call.publication = p → ∀ value,
      call.outcome = some (.failed value) → Convertible runtime value := by
  have hinv : Inv runtime s :=
    Machine.exec_invariant (Inv runtime) (fun _ action _ h => inv_step runtime h action)
      (inv_initial runtime) hrun
  constructor
  · intro hiso call hcall hcallp value
    exact convertible_of_isolated runtime hinv hiso hcall hcallp
  · intro hvalues
    exact isolated_of_convertible runtime hinv hvalues hp hname

end

/-- Thrown values: an error, a text, and an object with no prototype, on which `String` throws a
`TypeError`. -/
inductive Thrown where
  | error
  | text
  | bare
  | typeError
  deriving DecidableEq

def sampleRuntime : ValueRuntime JsString Thrown where
  instanceofError value := .ok (value = .error ∨ value = .typeError)
  get value _ := .ok value
  string value := if value = .bare then .error .typeError else .ok []

/-- Subscribe one handler, publish, and let the handler fail with `value`. -/
def sampleTrace (value : Thrown) : List (Action Unit Thrown) :=
  [.subscribe "user.created" "audit" false, .publish "user.created" () {} "id" 0, .emitNext 0,
    .settle 0 (.failed value) (.ok ()), .finish 0]

theorem publish_isolated_text :
    ∃ s publication, Machine.exec (step sampleRuntime) {} (sampleTrace .text) = some s ∧
      s.publications[0]? = some publication ∧ Isolated sampleRuntime s 0 publication := by
  have hrun : Machine.exec (step sampleRuntime) {} (sampleTrace .text) = some _ := rfl
  refine ⟨_, _, hrun, rfl,
    (publish_isolated_iff_convertible sampleRuntime hrun 0 _ rfl (by decide)).mpr ?_⟩
  intro call hcall _ value hvalue
  obtain rfl := mem_singleton.mp hcall
  obtain rfl : Thrown.text = value := HandlerOutcome.failed.inj (Option.some.inj hvalue)
  exact .inr ⟨rfl, [], rfl⟩

/-- With the bare object the publication rejects and its handler is never reported. -/
theorem publish_rejects_unprintable :
    ∃ s publication, Machine.exec (step sampleRuntime) {} (sampleTrace .bare) = some s ∧
      s.publications[0]? = some publication ∧
      publication.event.name ∉ reservedEventNames ∧
      publication.outcome = some (.error (.isolation .typeError)) ∧ s.reports = [] :=
  ⟨_, _, rfl, rfl, by decide, rfl, rfl⟩

end BoilerplateExpress.Events

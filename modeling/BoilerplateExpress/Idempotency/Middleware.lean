import BoilerplateExpress.Machine
import BoilerplateExpress.Http.Response
import BoilerplateExpress.Idempotency.Types

/-!
# Captured responses

`captureResponse` and `replayResponse` of `idempotency/idempotency.middleware.ts`. The
first `json` or `end` of a handler is held back until the store has answered; every
other call goes straight to the response, so it may come before the flush of the call
that was captured. A trace holds the calls of the handler and the moment at which the
promise of the store settles.
-/
namespace BoilerplateExpress.Idempotency

open Http

def neverReplayable : List ℕ := [408, 425, 429]

/-- 2xx, 3xx and 4xx, less the statuses that mean "ask again later". -/
def defaultIsReplayable (status : ℕ) : Bool :=
  200 ≤ status && status < 500 && !neverReplayable.contains status

inductive Capture (V : Type) where
  | waiting
  /-- The record is with the store; the call is flushed when the store has answered. -/
  | recording (response : RecordedResponse V) (flush : ResponseCall V)
  | done

structure Exchange (V : Type) where
  response : Response
  capture : Capture V
  recorded : Option (RecordedResponse V)

inductive ExchangeEvent (V : Type) where
  | call (c : ResponseCall V)
  /-- The promise of `complete` or `release` settles; `stored` if it resolved to `true`. -/
  | settle (stored : Bool)

def Exchange.start (V : Type) : Exchange V := ⟨.fresh, .waiting, none⟩

/-- `json` and `end` are wrapped until one of them is called. -/
def intercepted {V : Type} : ResponseCall V → Bool
  | .json _ => true
  | .endWith _ => true
  | _ => false

/-- The record made of an intercepted call. An `end` with a chunk has none. -/
def recordOf {V : Type} (statusCode : ℕ) : ResponseCall V → Option (RecordedResponse V)
  | .json body => some ⟨statusCode, true, body⟩
  | .endWith none => some ⟨statusCode, false, none⟩
  | _ => none

variable {V : Type}

variable {c : ResponseCall V} {response : RecordedResponse V}

lemma intercepted_of_recordOf {statusCode} (h : recordOf statusCode c = some response) : intercepted
    c := by
  cases c with
  | status code => cases h
  | write chunk => cases h
  | json body => rfl
  | endWith chunk => rfl

/-- A call of the handler. An `end` with a chunk releases the claim and goes out at once. -/
def Exchange.call {V : Type} (serialise : Option V → Bytes) (s : Exchange V)
    (c : ResponseCall V) : Exchange V :=
  match s.capture, intercepted c, recordOf s.response.statusCode c with
  | .waiting, true, some response => { s with capture := .recording response c }
  | .waiting, true, none =>
    { s with response := s.response.apply serialise c, capture := .done }
  | _, _, _ => { s with response := s.response.apply serialise c }

/-- The continuation of `recordThenFlush`. -/
def Exchange.settle {V : Type} (serialise : Option V → Bytes) (isReplayable : ℕ → Bool)
    (s : Exchange V) (stored : Bool) : Option (Exchange V) :=
  match s.capture with
  | .recording response flush =>
    some
      { response := s.response.apply serialise flush
        capture := .done
        recorded := if isReplayable response.status && stored then some response
          else s.recorded }
  | _ => none

def stepExchange {V : Type} (serialise : Option V → Bytes) (isReplayable : ℕ → Bool)
    (s : Exchange V) : ExchangeEvent V → Option (Exchange V)
  | .call c => some (s.call serialise c)
  | .settle stored => s.settle serialise isReplayable stored

/-- The response to a later request with the same key. -/
def replayResponse {V : Type} (serialise : Option V → Bytes) (response : RecordedResponse V) :
    Response :=
  let r := Response.fresh.apply serialise (.status response.status)
  if response.hasBody then r.apply serialise (.json response.body)
  else r.apply serialise (.endWith none)

/-- The bytes of the captured call when it is the first to send anything. -/
def terminalBody {V : Type} (serialise : Option V → Bytes) (status : ℕ) :
    ResponseCall V → Bytes
  | .json body => Response.jsonBody serialise status body
  | _ => []

variable {status : ℕ}

lemma flush_of_no_head (serialise) {w : Response} (h : recordOf status c = some response)
    (hhead : w.head = none) :
    (w.apply serialise c).received = ⟨some w.statusCode, terminalBody serialise w.statusCode c⟩ ∧
      (w.apply serialise c).ended := by
  have hended : w.ended = false := by
    by_contra hne
    have hsome := w.head_of_ended (by simpa using hne)
    rw [hhead] at hsome
    cases hsome
  cases c with
  | status code => cases h
  | write chunk => cases h
  | json body =>
    refine ⟨Response.json_received_of_no_head serialise body hhead, ?_⟩
    simp [Response.apply, hhead, Response.finish]
  | endWith chunk =>
    cases chunk with
    | none =>
      have happly : w.apply serialise (.endWith none) = w.finish [] := by
        simp [Response.apply, hended]
      rw [happly, Response.finish_received_of_no_head [] hhead]
      simp [terminalBody, Response.finish]
    | some chunk => cases h

/-- A replay makes the captured call again, under the recorded status. -/
lemma replayResponse_eq (serialise) (h : recordOf status c = some response) :
    replayResponse serialise response =
      (Response.fresh.apply serialise (.status status)).apply serialise c := by
  cases c with
  | status code => cases h
  | write chunk => cases h
  | json body =>
    cases h
    rfl
  | endWith chunk =>
    cases chunk with
    | none =>
      cases h
      rfl
    | some chunk => cases h

lemma replayResponse_received (serialise) (hvalid : 100 ≤ status ∧ status ≤ 999)
    (h : recordOf status c = some response) :
    (replayResponse serialise response).received =
      ⟨some status, terminalBody serialise status c⟩ := by
  have hstat : Response.fresh.apply serialise (.status status) =
      { Response.fresh with statusCode := status, valid := hvalid } := by
    simp [Response.apply, hvalid]
  rw [replayResponse_eq serialise h, hstat]
  exact (flush_of_no_head serialise h rfl).1

/-- The calls after the flush that still reach the client once others have sent the
status line: a late `json` throws and closes nothing, an `end` closes the response. -/
def laterCalls {V : Type} (c : ResponseCall V) (after : List (ResponseCall V)) :
    List (ResponseCall V) :=
  match c with
  | .json _ => after
  | _ => []

lemma flush_of_head (serialise) {w : Response} (h : recordOf status c = some response)
    (hhead : w.head.isSome) (after) :
    ((w.apply serialise c).run serialise after).received =
      (w.run serialise (laterCalls c after)).received := by
  cases c with
  | status code => cases h
  | write chunk => cases h
  | json body => simp [Response.apply, hhead, laterCalls]
  | endWith chunk =>
    cases chunk with
    | none =>
      obtain ⟨hreceived, hended⟩ : (w.apply serialise (.endWith none)).received = w.received ∧
          (w.apply serialise (.endWith none)).ended := by
        obtain ⟨status, hstatus⟩ := Option.isSome_iff_exists.mp hhead
        by_cases hended : w.ended
        · simp [Response.apply, hended]
        · simp [Response.apply, hended, Response.finish, Response.send, Response.received, hstatus]
      rw [Response.received_run_of_ended serialise _ after hended, hreceived]
      rfl
    | some chunk => cases h

lemma call_of_not_intercepted (serialise) (s : Exchange V) (c)
    (h : s.capture ≠ .waiting ∨ intercepted c = false) :
    s.call serialise c = { s with response := s.response.apply serialise c } := by
  unfold Exchange.call
  split
  · next hcap hint _ => simp [hcap, hint] at h
  · next hcap hint _ => simp [hcap, hint] at h
  · rfl

variable {serialise : Option V → Bytes} {isReplayable : ℕ → Bool} {s t : Exchange V}
  {as : List (ExchangeEvent V)}

/-- After the capture every call goes straight to the response. -/
lemma exec_done (hdone : s.capture = .done)
    (hexec : Machine.exec (stepExchange serialise isReplayable) s as = some t) :
    ∃ after, as = after.map .call ∧ t.response = s.response.run serialise after ∧
      t.recorded = s.recorded := by
  induction as generalizing s with
  | nil =>
    cases hexec
    exact ⟨[], rfl, rfl, rfl⟩
  | cons a as ih =>
    obtain ⟨u, hu, hrest⟩ := (Machine.exec_cons _ s t a as).mp hexec
    cases a with
    | settle stored => simp [stepExchange, Exchange.settle, hdone] at hu
    | call c =>
      obtain rfl : s.call serialise c = u := Option.some.inj hu
      rw [call_of_not_intercepted serialise s c (by simp [hdone])] at hrest
      obtain ⟨after, has, hresp, hrecd⟩ := ih (by exact hdone) hrest
      exact ⟨c :: after, by rw [has, List.map_cons], hresp, hrecd⟩

lemma exec_recording {flush record} (hcap : s.capture = .recording response flush)
    (hnone : s.recorded = none)
    (hexec : Machine.exec (stepExchange serialise isReplayable) s as = some t)
    (hrec : t.recorded = some record) :
    ∃ between after, as = between.map .call ++ .settle true :: after.map .call ∧ record = response ∧
      t.response = ((s.response.run serialise between).apply serialise flush).run
        serialise after := by
  induction as generalizing s with
  | nil =>
    cases hexec
    rw [hnone] at hrec
    cases hrec
  | cons a as ih =>
    obtain ⟨u, hu, hrest⟩ := (Machine.exec_cons _ s t a as).mp hexec
    cases a with
    | call c =>
      obtain rfl : s.call serialise c = u := Option.some.inj hu
      rw [call_of_not_intercepted serialise s c (by simp [hcap])] at hrest
      obtain ⟨between, after, has, hresp, hfinal⟩ := ih (by exact hcap) (by exact hnone) hrest
      exact ⟨c :: between, after, by rw [has]; rfl, hresp, hfinal⟩
    | settle stored =>
      simp only [stepExchange, Exchange.settle, hcap, Option.some.injEq] at hu
      subst hu
      obtain ⟨after, has, hfinal, hrecd⟩ := exec_done rfl hrest
      rw [hrec, hnone] at hrecd
      split_ifs at hrecd with hst
      have hst : stored := by
        rw [Bool.and_eq_true] at hst
        exact hst.2
      exact ⟨[], after, by rw [hst, has]; rfl, Option.some.inj hrecd, hfinal⟩

/-- The shape of every trace that leaves a record. -/
lemma exec_waiting {record} (hwait : s.capture = .waiting) (hnone : s.recorded = none)
    (hexec : Machine.exec (stepExchange serialise isReplayable) s as = some t)
    (hrec : t.recorded = some record) :
    ∃ before c between after,
      as = before.map .call ++ .call c :: (between.map .call ++ .settle true :: after.map .call) ∧
      (∀ b ∈ before, intercepted b = false) ∧
      recordOf (s.response.run serialise before).statusCode c = some record ∧
      t.response = ((s.response.run serialise (before ++ between)).apply serialise c).run
        serialise after := by
  induction as generalizing s with
  | nil =>
    cases hexec
    rw [hnone] at hrec
    cases hrec
  | cons a as ih =>
    obtain ⟨u, hu, hrest⟩ := (Machine.exec_cons _ s t a as).mp hexec
    cases a with
    | settle stored => simp [stepExchange, Exchange.settle, hwait] at hu
    | call c =>
      obtain rfl : s.call serialise c = u := Option.some.inj hu
      cases hint : intercepted c with
      | false =>
        rw [call_of_not_intercepted serialise s c (.inr hint)] at hrest
        obtain ⟨before, d, between, after, has, hpre, hresp, hfinal⟩ :=
          ih (by exact hwait) (by exact hnone) hrest
        exact ⟨c :: before, d, between, after, by rw [has]; rfl,
          List.forall_mem_cons.mpr ⟨hint, hpre⟩, hresp, hfinal⟩
      | true =>
        cases hof : recordOf s.response.statusCode c with
        | none =>
          simp only [Exchange.call, hwait, hint, hof] at hrest
          obtain ⟨after, _, _, hrecd⟩ := exec_done rfl hrest
          rw [hrec, hnone] at hrecd
          cases hrecd
        | some response =>
          simp only [Exchange.call, hwait, hint, hof] at hrest
          obtain ⟨between, after, has, hresp, hfinal⟩ :=
            exec_recording rfl (by exact hnone) hrest hrec
          rw [hresp]
          exact ⟨[], c, between, after, by rw [has]; rfl, by simp, hof, hfinal⟩

/-- The flush is the first call to send anything, and the status is still the one that
was recorded. -/
def FlushSendsRecord {V : Type} (serialise : Option V → Bytes)
    (before between : List (ResponseCall V)) : Prop :=
  (∀ d ∈ before ++ between, d.sends = false) ∧
    (Response.fresh.run serialise (before ++ between)).statusCode =
      (Response.fresh.run serialise before).statusCode

/-- Another call sends the status line before the flush, under the status that was recorded, and
the body that follows it happens to be the one of `c`: none under a status without body, that of
another `json`, or chunks up to the first `end`. -/
def OthersSendRecord {V : Type} (serialise : Option V → Bytes)
    (before : List (ResponseCall V)) (c : ResponseCall V)
    (between after : List (ResponseCall V)) : Prop :=
  let status := (Response.fresh.run serialise before).statusCode
  ∃ quiet d rest, before ++ between = quiet ++ d :: rest ∧ (∀ q ∈ quiet, q.sends = false) ∧
    d.sends = true ∧ (Response.fresh.run serialise quiet).statusCode = status ∧
      Response.firstBody serialise status d (rest ++ laterCalls c after) =
        terminalBody serialise status c

/-- Whatever the handler does, a response is recorded only if some call `c` was the first
`json` or body-less `end`; the replay then repeats what the client received exactly if
the flush of `c` sent it, or if other calls sent just the same. -/
theorem replay_reproduces_iff {V : Type} (serialise : Option V → Bytes)
    (isReplayable : ℕ → Bool) (as : List (ExchangeEvent V)) (s : Exchange V)
    (record : RecordedResponse V)
    (hexec : Machine.exec (stepExchange serialise isReplayable) (.start V) as = some s)
    (hrecord : s.recorded = some record) :
    ∃ before c between after,
      as = before.map .call ++ .call c :: (between.map .call ++ .settle true :: after.map .call) ∧
      (∀ b ∈ before, intercepted b = false) ∧ intercepted c = true ∧
      (s.response.received = (replayResponse serialise record).received ↔
        FlushSendsRecord serialise before between ∨
          OthersSendRecord serialise before c between after) := by
  obtain ⟨before, c, between, after, has, hpre, hof, hfinal⟩ :=
    exec_waiting rfl rfl hexec hrecord
  refine ⟨before, c, between, after, has, hpre, intercepted_of_recordOf hof, ?_⟩
  have hrep := replayResponse_received serialise (Response.fresh.run serialise before).valid hof
  have hfinal : s.response = ((Response.fresh.run serialise (before ++ between)).apply
      serialise c).run serialise after := hfinal
  rw [hrep, hfinal]
  have hhead := Response.head_run_eq_none serialise Response.fresh (before ++ between)
  by_cases hsends : ∀ d ∈ before ++ between, d.sends = false
  · obtain ⟨hrec, hended⟩ := flush_of_no_head serialise hof (hhead.mpr ⟨rfl, hsends⟩)
    rw [Response.received_run_of_ended serialise _ after hended, hrec]
    constructor
    · intro heq
      exact .inl ⟨hsends, Option.some.inj (Received.mk.inj heq).1⟩
    · rintro (⟨_, hstat⟩ | ⟨quiet, d, rest, hcalls, -, hsend, -⟩)
      · rw [hstat]
      · rw [hsends d (by simp [hcalls])] at hsend
        cases hsend
  · have hsome : (Response.fresh.run serialise (before ++ between)).head.isSome := by
      rw [Option.isSome_iff_ne_none]
      exact fun hnone => hsends (hhead.mp hnone).2
    rw [flush_of_head serialise hof hsome after, ← Response.run_append]
    have hsplit : ∀ {quiet d rest}, before ++ between = quiet ++ d :: rest →
        (∀ q ∈ quiet, q.sends = false) → d.sends →
        (Response.fresh.run serialise (before ++ between ++ laterCalls c after)).received =
          ⟨some (Response.fresh.run serialise quiet).statusCode, Response.firstBody serialise
            (Response.fresh.run serialise quiet).statusCode d (rest ++ laterCalls c after)⟩ := by
      intro quiet d rest hcalls hquiet hd
      rw [hcalls, List.append_assoc, List.cons_append, Response.run_append]
      exact Response.received_run_of_first serialise
        ((Response.head_run_eq_none serialise _ quiet).mpr ⟨rfl, hquiet⟩) hd _
    constructor
    · intro heq
      obtain ⟨d, hfind⟩ : ∃ d, (before ++ between).find? ResponseCall.sends = some d := by
        refine Option.isSome_iff_exists.mp (List.find?_isSome.mpr ?_)
        simpa using hsends
      obtain ⟨hd, quiet, rest, hcalls, hquiet⟩ := List.find?_eq_some_iff_append.mp hfind
      have hquiet' : ∀ q ∈ quiet, q.sends = false := fun q hq => by simpa using hquiet q hq
      rw [hsplit hcalls hquiet' hd, Received.mk.injEq, Option.some.injEq] at heq
      exact .inr ⟨quiet, d, rest, hcalls, hquiet', hd, heq.1, heq.1 ▸ heq.2⟩
    · rintro (⟨hnone, _⟩ | ⟨quiet, d, rest, hcalls, hquiet, hd, hstat, hbody⟩)
      · exact absurd hnone hsends
      · rw [hsplit hcalls hquiet hd, hstat, hbody]

/-- A handler that sets a status and answers with one `json` is replayed as it was. -/
theorem json_answer_replayed :
    let serialise : Option Json → Bytes := fun _ => [110, 117, 108, 108]
    ∃ s, Machine.exec (stepExchange serialise defaultIsReplayable) (.start Json)
        [.call (.status 201), .call (.json (some .null)), .settle true] = some s ∧
      s.response.received = (replayResponse serialise ⟨201, true, some .null⟩).received := by
  intro serialise
  obtain ⟨s, hexec⟩ : ∃ s, Machine.exec (stepExchange serialise defaultIsReplayable)
      (.start Json) [.call (.status 201), .call (.json (some .null)), .settle true] = some s :=
    ⟨_, rfl⟩
  have hrec : s.recorded = some ⟨201, true, some .null⟩ := by
    cases hexec
    rfl
  refine ⟨s, hexec, ?_⟩
  obtain ⟨before, c, between, after, has, hpre, hc, hiff⟩ :=
    replay_reproduces_iff serialise defaultIsReplayable _ s _ hexec hrec
  apply hiff.mpr
  left
  -- the trace can be cut only at its one intercepted call
  rcases before with _ | ⟨b, _ | ⟨b', before⟩⟩
  · simp at has
    simp [← has.1, intercepted] at hc
  · rcases between with _ | ⟨d, between⟩
    · simp at has
      simp [FlushSendsRecord, ← has.1, ResponseCall.sends]
    · simp at has
  · simp at has
    have hb := hpre b' (by simp)
    simp [← has.2.1, intercepted] at hb

/-- A body written in chunks and closed by a bare `end` is recorded without its body. -/
theorem written_body_lost_in_replay :
    ¬ ∀ (V : Type) (serialise : Option V → Bytes) (isReplayable : ℕ → Bool)
      (as : List (ExchangeEvent V)) (s : Exchange V) (record : RecordedResponse V),
      Machine.exec (stepExchange serialise isReplayable) (.start V) as = some s →
      s.recorded = some record →
      s.response.received = (replayResponse serialise record).received := by
  intro hall
  have hlost := hall Json (fun _ => []) defaultIsReplayable
    [.call (.write [104, 105]), .call (.endWith none), .settle true] _ ⟨200, false, none⟩ rfl rfl
  revert hlost
  decide

end BoilerplateExpress.Idempotency

import BoilerplateExpress.Sse.Hub

/-!
# Resumption is exact

What a connection is written from the moment it attaches: the replay and the live events
together are the history after one point. The point is the client's cursor, unless the client
is told to start again.
-/
namespace BoilerplateExpress.Sse

open EventStream
open List

/-- Every id minted under it is accepted by the encoder: a sequence number has at most 16
digits. -/
def MintsFields (streamId : JsString) : Prop :=
  OneLine streamId ∧ 0 ∉ streamId ∧ streamId.length + 17 ≤ maxFieldLength

/-- A valid event name and a serialisable payload. -/
def HubAction.publishable {κ : Type} : HubAction κ → Bool
  | .publish event data _ =>
    data.isSome && (eventLine ⟨none, some event, []⟩).isOk
  | _ => true

/-- The cursor is the id of event `n`, which was published before the connection attached. -/
def Attachment.ResumesFrom (a : Attachment) (log : SseEventLog) (n : ℕ) : Prop :=
  a.lastEventId = some (log.idFor n) ∧ 1 ≤ n ∧ n ≤ a.latest

def SseConnection.toldReset (c : SseConnection) : Bool :=
  match c.opened with
  | some payload => payload.resume = .reset
  | none => false

/-- A connection that resumes from event `n` is written the events after it, all of them while
it is open. If it is told to reset instead, an event after `n` has been evicted. -/
structure ResumesExactly {κ : Type} (hub : SseHub κ) (k : κ) (n : ℕ) : Prop where
  exact : (hub.conns k).toldReset = false → (hub.conns k).written <+: hub.history.drop n ∧
    ((hub.conns k).closed = false → (hub.conns k).written = hub.history.drop n)
  evicted : (hub.conns k).toldReset = true → ∃ m message, n ≤ m ∧
    hub.history[m]? = some message ∧ ∀ i, hub.log.slots i ≠ some message

lemma mintsFields_hexUnits (random : Fin 8 → UInt8) : MintsFields (hexUnits (ofFn random)) := by
  have hunit : ∀ digit, digit < 16 → 48 ≤ (hexUnit digit).toNat := by decide
  have hmem : ∀ u ∈ hexUnits (ofFn random), 48 ≤ u.toNat := by
    intro u hu
    obtain ⟨b, _, hb⟩ := mem_flatMap.mp hu
    have hlt := b.toNat_lt
    rcases mem_pair.mp hb with rfl | rfl
    · exact hunit _ (by omega)
    · exact hunit _ (by omega)
  refine ⟨?_, ?_, ?_⟩
  · intro u hu
    have hlow := hmem u hu
    constructor
    · rintro rfl
      exact absurd hlow (by decide)
    · rintro rfl
      exact absurd hlow (by decide)
  · intro hzero
    exact absurd (hmem 0 hzero) (by decide)
  · simp [hexUnits, maxFieldLength]

lemma rejectFieldValue_of_plain {value} (field) (hline : OneLine value) (hnul : 0 ∉ value)
    (hlength : value.length ≤ maxFieldLength) : rejectFieldValue field value = .ok () := by
  have hbreak : hasLineBreak value = false := by
    refine any_eq_false.mpr ?_
    intro u hu
    have hne := hline u hu
    simp [hne.1, hne.2]
  rw [rejectFieldValue, hbreak, if_neg (by decide), if_neg hnul, if_neg (by omega)]

variable {log : SseEventLog}

lemma rejectFieldValue_idFor {n} (h : MintsFields log.streamId) (hn : n ≤ maxSafeInteger) (field) :
    rejectFieldValue field (log.idFor n) = .ok () := by
  obtain ⟨hline, hnul, hlen⟩ := h
  have hdig : (JsString.natUnits n).length ≤ 16 := by
    refine JsString.length_natUnits_le (by decide) (lt_of_le_of_lt hn ?_)
    decide
  refine rejectFieldValue_of_plain field ?_ ?_ ?_
  · refine oneLine_append.mpr ⟨hline, ?_⟩
    intro u hu
    rcases mem_cons.mp hu with rfl | hu
    · decide
    · exact oneLine_natUnits n u hu
  · simp only [SseEventLog.idFor, mem_append, mem_cons, not_or]
    refine ⟨hnul, by decide, ?_⟩
    intro hzero
    exact absurd (JsString.mem_natUnits hzero).1 (by decide)
  · rw [SseEventLog.idFor, length_append, length_cons]
    omega

lemma encodeMessage_nextMessage {event data} (h : MintsFields log.streamId)
    (hsafe : log.latestSequence < maxSafeInteger) (hdata : data.isSome)
    (hevent : (eventLine ⟨none, some event, []⟩).isOk) :
    ∃ chunk, encodeMessage (log.nextMessage event data) = .ok chunk := by
  obtain ⟨payload, rfl⟩ := Option.isSome_iff_exists.mp hdata
  obtain ⟨named, hnamed⟩ : ∃ named, eventLine ⟨none, some event, []⟩ = .ok named := by
    cases hline : eventLine ⟨none, some event, []⟩ with
    | error e =>
      rw [hline] at hevent
      cases hevent
    | ok named => exact ⟨named, rfl⟩
  have hid : idLine ⟨some (log.idFor (log.latestSequence + 1)), some event, payload⟩ =
      .ok [units "id: " ++ log.idFor (log.latestSequence + 1)] := by
    rw [idLine]
    simp only [rejectFieldValue_idFor h (Nat.succ_le_of_lt hsafe)]
    rfl
  have hname : eventLine ⟨some (log.idFor (log.latestSequence + 1)), some event, payload⟩ =
      .ok named := hnamed
  apply Exists.intro
  show encodeFrame ⟨some (log.idFor (log.latestSequence + 1)), some event, payload⟩ = _
  rw [encodeFrame, hid, hname]
  rfl

/-- What has been written is the history from `start` on, up to where the connection closed. -/
structure Delivers (history : List StreamMessage) (c : SseConnection) (start : ℕ) : Prop where
  bound : start ≤ history.length
  sent : c.written <+: history.drop start
  complete : c.closed = false → c.written = history.drop start

namespace Delivers

variable {history : List StreamMessage} {c : SseConnection} {start : ℕ}

/-- Nothing has been written, and nothing is owed. -/
lemma of_nothing (hbound : start ≤ history.length) (hwr : c.written = [])
    (howed : c.closed ∨ history.length ≤ start) : Delivers history c start := by
  refine ⟨hbound, hwr ▸ nil_prefix, fun hopen => ?_⟩
  rcases howed with hcl | hle
  · rw [hcl] at hopen
    cases hopen
  · rw [hwr, drop_of_length_le hle]

lemma close (h : Delivers history c start) : Delivers history { c with closed := true } start :=
  ⟨h.bound, h.sent, nofun⟩

/-- A closed connection misses what is published from then on. -/
lemma extend (h : Delivers history c start) (hcl : c.closed) (messages) :
    Delivers (history ++ messages) c start := by
  refine ⟨?_, ?_, ?_⟩
  · rw [length_append]
    exact h.bound.trans (Nat.le_add_right _ _)
  · rw [drop_append_of_le_length h.bound]
    exact h.sent.trans (prefix_append _ _)
  · intro hopen
    rw [hcl] at hopen
    cases hopen

lemma record (h : Delivers history c start) (hopen : c.closed = false) (message) :
    Delivers (history ++ [message]) (c.record message) start := by
  have hwr : (c.record message).written = (history ++ [message]).drop start := by
    rw [drop_append_of_le_length h.bound, ← h.complete hopen]
    rfl
  refine ⟨?_, ?_, fun _ => hwr⟩
  · rw [length_append]
    exact h.bound.trans (Nat.le_add_right _ _)
  · rw [hwr]

/-- Sending the next message keeps to the history, whatever the socket does. -/
lemma send (h : Delivers history c start) (message outcome) :
    Delivers (history ++ [message]) (c.write outcome (SseConnection.record message)) start := by
  unfold SseConnection.write
  split_ifs with hcl
  · exact h.extend hcl [message]
  · have hopen : c.closed = false := by simpa using hcl
    cases outcome with
    | written => exact h.record hopen message
    | throws => exact h.close.extend rfl [message]
    | overflows => exact (h.record hopen message).close

end Delivers

lemma SseConnection.write_record_opened (c : SseConnection) (outcome message) :
    (c.write outcome (record message)).opened = c.opened ∧
      (c.write outcome (record message)).attachment = c.attachment := by
  unfold SseConnection.write
  split_ifs
  · exact ⟨rfl, rfl⟩
  · cases outcome <;> exact ⟨rfl, rfl⟩

lemma SseConnection.send_eq {message chunk} (h : encodeMessage message = .ok chunk)
    (c : SseConnection) (outcome) :
    c.send message outcome = .ok (c.write outcome (record message)) := by
  rw [SseConnection.send, h]
  rfl

variable {history : List StreamMessage} {c : SseConnection}

lemma sendAll_spec {messages}
    (henc : ∀ message ∈ messages, ∃ chunk, encodeMessage message = .ok chunk) (c outcomes) :
    ∃ sent, c.sendAll outcomes messages = (sent, none) ∧ sent.opened = c.opened ∧
      sent.attachment = c.attachment ∧
      ∀ history start, Delivers history c start → Delivers (history ++ messages) sent start := by
  induction messages generalizing c outcomes with
  | nil =>
    refine ⟨c, rfl, rfl, rfl, fun history start h => ?_⟩
    rwa [append_nil]
  | cons message messages ih =>
    obtain ⟨⟨chunk, hchunk⟩, hrest⟩ := forall_mem_cons.mp henc
    obtain ⟨hop, hatch⟩ := c.write_record_opened (outcomes 0) message
    obtain ⟨sent, hsent, hop', hatch', hdel⟩ :=
      ih hrest (c.write (outcomes 0) (SseConnection.record message)) (fun i => outcomes (i + 1))
    refine ⟨sent, ?_, hop'.trans hop, hatch'.trans hatch, ?_⟩
    · rw [SseConnection.sendAll, SseConnection.send_eq hchunk]
      exact hsent
    · intro history start h
      have hall := hdel _ start (h.send message (outcomes 0))
      rwa [append_assoc] at hall

/-- What a connection that resumes from event `n` has been told and written. -/
def Resumed (log : SseEventLog) (history : List StreamMessage) (c : SseConnection) (n : ℕ) : Prop :=
  if c.toldReset then n + 1 < log.oldestSequence else Delivers history c n

lemma Resumed.mono {n history' c' log'} (h : Resumed log history c n)
    (hopened : c'.opened = c.opened) (holdest : log.oldestSequence ≤ log'.oldestSequence)
    (hdelivers : Delivers history c n → Delivers history' c' n) : Resumed log' history' c' n := by
  unfold Resumed SseConnection.toldReset at h ⊢
  rw [hopened]
  split_ifs at h ⊢
  · exact h.trans_le holdest
  · exact hdelivers h

/-- What holds of one connection; `member` says that it is in the set. -/
structure ConnInv (log : SseEventLog) (history : List StreamMessage) (c : SseConnection)
    (member : Prop) : Prop where
  member_iff : member ↔ c.attachment.isSome = true ∧ c.closed = false
  fresh : c.attachment = none → c.written = [] ∧ c.opened = none
  resumed : ∀ a n, c.attachment = some a → a.ResumesFrom log n → Resumed log history c n

namespace ConnInv

variable {log : SseEventLog} {history : List StreamMessage} {c : SseConnection} {member : Prop}

lemma close {member'} (h : ConnInv log history c member) (hmember : ¬ member') :
    ConnInv log history { c with closed := true } member' := by
  refine ⟨?_, h.fresh, ?_⟩
  · constructor
    · intro hin
      exact absurd hin hmember
    · rintro ⟨_, hopen⟩
      cases hopen
  · exact fun a n ha hn => (h.resumed a n ha hn).mono rfl le_rfl (·.close)

lemma comment (h : ConnInv log history c member) (outcome) :
    ConnInv log history (c.write outcome id) (member ∧ (c.write outcome id).closed = false) := by
  have hstays : ConnInv log history c (member ∧ c.closed = false) := by
    refine ⟨?_, h.fresh, h.resumed⟩
    rw [h.member_iff, and_assoc, and_self]
  have hclos : ConnInv log history { c with closed := true } (member ∧ true = false) :=
    h.close (by rintro ⟨_, hfalse⟩; cases hfalse)
  unfold SseConnection.write
  split_ifs
  · exact hstays
  · cases outcome with
    | written => exact hstays
    | throws => exact hclos
    | overflows => exact hclos

/-- An event is published: a member of the set is sent it, any other connection is left alone. -/
lemma publish (h : ConnInv log history c member) (event data outcome) :
    (member → ConnInv (log.append event data) (history ++ [log.nextMessage event data])
      (c.write outcome (SseConnection.record (log.nextMessage event data)))
      ((c.write outcome (SseConnection.record (log.nextMessage event data))).closed = false)) ∧
    (¬ member → ConnInv (log.append event data) (history ++ [log.nextMessage event data]) c
      False) := by
  have hold : log.oldestSequence ≤ (log.append event data).oldestSequence := by
    rw [log.oldestSequence_append, SseEventLog.oldestSequence]
    omega
  constructor
  · intro hmem
    obtain ⟨hatt, _⟩ := h.member_iff.mp hmem
    obtain ⟨hop, hatch⟩ := c.write_record_opened outcome (log.nextMessage event data)
    refine ⟨?_, ?_, ?_⟩
    · rw [hatch, hatt, eq_self, true_and]
    · intro hnone
      rw [← hatch, hnone] at hatt
      cases hatt
    · intro a n ha hn
      exact (h.resumed a n (hatch ▸ ha) hn).mono hop hold (·.send _ outcome)
  · intro hmem
    refine ⟨?_, h.fresh, ?_⟩
    · constructor
      · exact False.elim
      · intro hin
        exact hmem (h.member_iff.mpr hin)
    · intro a n ha hn
      have hcl : c.closed := by
        by_contra hopen
        exact hmem (h.member_iff.mpr ⟨by rw [ha]; rfl, by simpa using hopen⟩)
      exact (h.resumed a n ha hn).mono rfl hold (·.extend hcl _)

end ConnInv

lemma mem_replayOf {lastEventId} (h : LogInv log history) :
    ∀ message ∈ replayOf (log.since lastEventId), message ∈ history := by
  cases hsince : log.since lastEventId with
  | replay messages =>
    intro message hmem
    unfold SseEventLog.since at hsince
    split at hsince
    · cases hsince
    · split_ifs at hsince
      split at hsince
      · cases hsince
      · split_ifs at hsince
        obtain rfl := ResumeOutcome.replay.inj hsince
        obtain ⟨next, _, hslot⟩ := mem_filterMap.mp hmem
        obtain ⟨m, hm, _⟩ := h.slots_from _ _ hslot
        exact mem_of_getElem? hm
  | _ => exact fun message hmem => by cases hmem

/-- Either the control event has been written, or the connection is closed. -/
lemma control_cases (hop : c.opened = none) (payload outcome) :
    (c.control payload outcome).written = c.written ∧
      (c.control payload outcome).attachment = c.attachment ∧
      ((c.control payload outcome).toldReset = decide (payload.resume = .reset) ∨
        (c.control payload outcome).toldReset = false ∧ (c.control payload outcome).closed) := by
  have hfalse : c.toldReset = false := by rw [SseConnection.toldReset, hop]
  unfold SseConnection.control SseConnection.write
  split_ifs with hcl
  · exact ⟨rfl, rfl, .inr ⟨hfalse, hcl⟩⟩
  · cases outcome with
    | throws => exact ⟨rfl, rfl, .inr ⟨hfalse, rfl⟩⟩
    | _ => exact ⟨rfl, rfl, .inl rfl⟩

/-- A connection that attaches follows the history from its cursor, unless it is reset. -/
lemma attach_resumed (h : LogInv log history) (hsafe : log.latestSequence ≤ maxSafeInteger)
    (henc : ∀ message ∈ history, ∃ chunk, encodeMessage message = .ok chunk)
    (hwr : c.written = []) (hop : c.opened = none) (lastEventId)
    (outcomes : ℕ → WriteOutcome) :
    ∃ sent, (c.control (openPayload log (log.since lastEventId)) (outcomes 0)).sendAll
        (fun i => outcomes (i + 1)) (replayOf (log.since lastEventId)) = (sent, none) ∧
      sent.attachment = c.attachment ∧
      ∀ n, (Attachment.mk lastEventId log.latestSequence).ResumesFrom log n →
        Resumed log history sent n := by
  obtain ⟨hsame, hkept, htold⟩ :=
    control_cases hop (openPayload log (log.since lastEventId)) (outcomes 0)
  generalize c.control (openPayload log (log.since lastEventId)) (outcomes 0) = told at *
  obtain ⟨sent, hsent, hop', hatch', hdel⟩ := sendAll_spec
    (fun message hmem => henc message (mem_replayOf h message hmem)) told
    (fun i => outcomes (i + 1))
  refine ⟨sent, hsent, hatch'.trans hkept, ?_⟩
  rintro n ⟨hcurs, hpos, hle⟩
  have hlat := h.latest
  have hnot : ∀ history', n ≤ history'.length →
      told.closed ∨ history'.length ≤ n → Delivers history' told n :=
    fun _ hbound => Delivers.of_nothing hbound (hsame.trans hwr)
  have hsame : sent.toldReset = told.toldReset := by
    rw [SseConnection.toldReset, hop', SseConnection.toldReset]
  simp only at hcurs hle
  rw [hcurs, log.since_idFor hpos (hle.trans hsafe)] at htold hdel
  rw [Resumed, hsame]
  split_ifs at htold hdel with hlive hexp
  · have hall : Delivers (history ++ []) sent n :=
      hdel history n (hnot _ (by omega) (.inr (by omega)))
    rw [append_nil] at hall
    rcases htold with htold | ⟨htold, _⟩
    · rwa [htold]
    · rwa [htold]
  · rcases htold with htold | ⟨htold, hcl⟩
    · rwa [htold]
    · have hall : Delivers (history ++ []) sent n :=
        hdel history n (hnot _ (by omega) (.inl hcl))
      rw [append_nil] at hall
      rwa [htold]
  · have hall := hdel (history.take n) n
      (hnot _ (by rw [length_take]; omega) (.inr (length_take_le _ _)))
    rw [replayOf, h.replayFrom_eq (by omega) (by omega), take_append_drop] at hall
    rcases htold with htold | ⟨htold, _⟩
    · rwa [htold]
    · rwa [htold]

namespace SseHub

variable {κ : Type} [DecidableEq κ]

lemma settle_conns (hub : SseHub κ) (k j c) :
    (hub.settle k c).conns j = if j = k then c else hub.conns j := Function.update_apply ..

lemma mem_settle {k j} {hub : SseHub κ} :
    j ∈ (hub.settle k c).connections ↔ j ∈ hub.connections ∧ (j = k → c.closed = false) := by
  unfold settle
  split_ifs with hcl
  · simp [hcl]
  · simp [hcl]

lemma settle_sublist (hub : SseHub κ) (k c) :
    (hub.settle k c).connections.Sublist hub.connections := by
  unfold settle
  split_ifs
  · exact filter_sublist
  · exact List.Sublist.refl _

end SseHub

/-- The ring holds the end of the history, whatever is published. -/
structure Logged {κ : Type} (hub : SseHub κ) : Prop where
  log : LogInv hub.log hub.history
  safe : hub.log.latestSequence ≤ maxSafeInteger

namespace Logged

variable {κ : Type} [DecidableEq κ] {hub : SseHub κ}

omit [DecidableEq κ] in
lemma create {options} {random}
    (h : createSseHub options random = .ok hub) :
    Logged hub ∧ hub.log.streamId = (EventLogOptions.mk options.replayBufferSize
      options.streamId).resolveStreamId random ∧ hub.connections = [] ∧ hub.history = [] ∧
      hub.conns = fun _ => {} := by
  unfold createSseHub at h
  split_ifs at h
  obtain ⟨log, hlog, h⟩ := bind_eq_ok h
  cases h
  obtain ⟨hinv, hstream⟩ := LogInv.create hlog
  exact ⟨⟨hinv, hinv.latest ▸ Nat.zero_le _⟩, hstream, rfl, rfl, rfl⟩

/-- The event is on record however far its delivery gets. -/
lemma deliver_log (message outcomes ks) (hub : SseHub κ) :
    (SseHub.deliver message outcomes ks hub).1.log = hub.log ∧
      (SseHub.deliver message outcomes ks hub).1.history = hub.history := by
  induction ks generalizing hub with
  | nil => exact ⟨rfl, rfl⟩
  | cons k ks ih =>
    rw [SseHub.deliver]
    split
    · exact ⟨rfl, rfl⟩
    · exact ih _

lemma publish (h : Logged hub) (hsafe : hub.log.latestSequence < maxSafeInteger)
    (event data outcomes) : Logged (hub.publish event data outcomes).1 := by
  obtain ⟨hlog, hhis⟩ := deliver_log (hub.log.nextMessage event data) outcomes
    hub.connections { hub with
      log := hub.log.append event data
      history := hub.history ++ [hub.log.nextMessage event data] }
  constructor
  · rw [SseHub.publish, hlog, hhis]
    exact h.log.append event data
  · rw [SseHub.publish, hlog]
    exact hsafe

lemma step {action} (h : Logged hub) {after} (hstep : hub.step action = some after) : Logged
    after := by
  cases action with
  | publish event data outcomes =>
    obtain ⟨hsafe, ⟨⟩⟩ := Option.ite_none_right_eq_some.mp hstep
    exact h.publish hsafe event data outcomes
  | attach k lastEventId outcomes =>
    simp only [SseHub.step] at hstep
    split at hstep
    · cases hstep
      unfold SseHub.attach
      dsimp only
      split
      · exact ⟨h.log, h.safe⟩
      · split_ifs <;> exact ⟨h.log, h.safe⟩
    · cases hstep
  | comment | close | closeAll =>
    cases hstep
    exact ⟨h.log, h.safe⟩

end Logged

/-- What holds of the hub in every state. -/
structure HubInv {κ : Type} (hub : SseHub κ) : Prop extends Logged hub where
  mints : MintsFields hub.log.streamId
  encodes : ∀ message ∈ hub.history, ∃ chunk, encodeMessage message = .ok chunk
  nodup : hub.connections.Nodup
  conns : ∀ k, ConnInv hub.log hub.history (hub.conns k) (k ∈ hub.connections)

namespace HubInv

variable {κ : Type} [DecidableEq κ] {hub : SseHub κ}

omit [DecidableEq κ] in
lemma create {options} {random}
    (hinjected : ∀ streamId ∈ options.streamId, MintsFields streamId)
    (h : createSseHub options random = .ok hub) : HubInv hub := by
  obtain ⟨hlogged, hstream, hconnections, hhistory, hconns⟩ := Logged.create h
  refine ⟨hlogged, ?_, by simp [hhistory], by simp [hconnections], ?_⟩
  · rw [hstream, EventLogOptions.resolveStreamId]
    cases hid : options.streamId with
    | none => exact mintsFields_hexUnits random
    | some streamId => exact hinjected streamId hid
  · intro k
    rw [hconns, hconnections]
    exact ⟨by simp, fun _ => ⟨rfl, rfl⟩, nofun⟩

lemma settle {k} (h : HubInv hub)
    (hc : ConnInv hub.log hub.history c (k ∈ hub.connections ∧ c.closed = false)) :
    HubInv (hub.settle k c) := by
  refine ⟨⟨h.log, h.safe⟩, h.mints, h.encodes, h.nodup.sublist (hub.settle_sublist k c), ?_⟩
  intro j
  show ConnInv hub.log hub.history _ _
  rw [SseHub.settle_conns, SseHub.mem_settle]
  split_ifs with hjk
  · simpa [hjk] using hc
  · simpa [hjk] using h.conns j

/-- The loop of `publish`: the connections `ks` are still to be sent the event. -/
structure Publishing (log : SseEventLog) (history : List StreamMessage) (event : JsString)
    (data : Option JsString) (ks : List κ) (hub : SseHub κ) : Prop where
  log_eq : hub.log = log.append event data
  history_eq : hub.history = history ++ [log.nextMessage event data]
  nodup : hub.connections.Nodup
  waiting : ∀ k ∈ ks, k ∈ hub.connections ∧
    ConnInv log history (hub.conns k) (k ∈ hub.connections)
  done : ∀ k ∉ ks, ConnInv hub.log hub.history (hub.conns k) (k ∈ hub.connections)

lemma deliver {event data chunk ks}
    (hchunk : encodeMessage (log.nextMessage event data) = .ok chunk) (outcomes)
    (hnodup : ks.Nodup) (h : Publishing log history event data ks hub) :
    Publishing log history event data []
      (SseHub.deliver (log.nextMessage event data) outcomes ks hub).1 := by
  induction ks generalizing hub with
  | nil => exact h
  | cons k ks ih =>
    obtain ⟨hk, hks⟩ := nodup_cons.mp hnodup
    obtain ⟨hmember, hconn⟩ := h.waiting k mem_cons_self
    rw [SseHub.deliver, SseConnection.send_eq hchunk]
    refine ih hks ⟨h.log_eq, h.history_eq, h.nodup.sublist (hub.settle_sublist k _), ?_, ?_⟩
    · intro j hj
      have hjk : j ≠ k := fun heq => hk (heq ▸ hj)
      simpa [SseHub.settle_conns, SseHub.mem_settle, hjk] using h.waiting j (mem_cons_of_mem k hj)
    · intro j hj
      show ConnInv hub.log hub.history _ _
      rw [SseHub.settle_conns, SseHub.mem_settle]
      by_cases hjk : j = k
      · have hsent := (hconn.publish event data (outcomes k)).1 hmember
        rw [← h.log_eq, ← h.history_eq] at hsent
        simpa [hjk, hmember] using hsent
      · simpa [hjk] using h.done j (by simp [hjk, hj])

lemma publish {event data} (h : HubInv hub) (outcomes)
    (hsafe : hub.log.latestSequence < maxSafeInteger)
    (henc : ∃ chunk, encodeMessage (hub.log.nextMessage event data) = .ok chunk) :
    HubInv (hub.publish event data outcomes).1 := by
  obtain ⟨chunk, hchunk⟩ := henc
  have hstart : Publishing hub.log hub.history event data hub.connections
      { hub with
        log := hub.log.append event data
        history := hub.history ++ [hub.log.nextMessage event data] } := by
    refine ⟨rfl, rfl, h.nodup, fun k hk => ⟨hk, h.conns k⟩, fun k hk => ?_⟩
    simpa [hk] using ((h.conns k).publish event data (outcomes k)).2 hk
  have hdone := deliver hchunk outcomes h.nodup hstart
  have hlog : Logged (SseHub.deliver _ outcomes hub.connections _).1 :=
    h.toLogged.publish hsafe event data outcomes
  show HubInv (SseHub.deliver _ outcomes hub.connections _).1
  refine ⟨hlog, ?_, ?_, hdone.nodup, fun k => hdone.done k not_mem_nil⟩
  · rw [hdone.log_eq]
    exact h.mints
  · rw [hdone.history_eq]
    exact forall_mem_append.mpr ⟨h.encodes, forall_mem_singleton.mpr ⟨chunk, hchunk⟩⟩

lemma attach (h : HubInv hub) {k} (hfresh : (hub.conns k).attachment = none)
    (lastEventId : Option JsString) (outcomes : ℕ → WriteOutcome) :
    HubInv (hub.attach k lastEventId outcomes).1 := by
  obtain ⟨hwr, hop⟩ := (h.conns k).fresh hfresh
  obtain ⟨sent, hsent, hatch, hres⟩ :=
    attach_resumed (c := { hub.conns k with
        attachment := some ⟨lastEventId, hub.log.latestSequence⟩ })
      h.log h.safe h.encodes hwr hop lastEventId outcomes
  have hout : k ∉ hub.connections := by
    intro hk
    have hatt := ((h.conns k).member_iff.mp hk).1
    rw [hfresh] at hatt
    cases hatt
  have hconn : ∀ member : Prop, (member ↔ sent.closed = false) →
      ConnInv hub.log hub.history sent member := by
    intro member hmem
    refine ⟨?_, ?_, ?_⟩
    · rw [hatch, hmem]
      simp
    · rw [hatch]
      nofun
    · intro a n ha
      rw [hatch] at ha
      exact Option.some.inj ha ▸ hres n
  have hoth : ∀ (connections : List κ), (∀ j, j ≠ k → (j ∈ connections ↔ j ∈ hub.connections)) →
      (k ∈ connections ↔ sent.closed = false) → ∀ j, ConnInv hub.log hub.history
        (Function.update hub.conns k sent j) (j ∈ connections) := by
    intro connections hsame hk j
    rw [Function.update_apply]
    split_ifs with hjk
    · exact hconn _ (hjk ▸ hk)
    · rw [hsame j hjk]
      exact h.conns j
  unfold SseHub.attach
  simp only [hsent]
  split_ifs with hcl
  · refine ⟨⟨h.log, h.safe⟩, h.mints, h.encodes, h.nodup, hoth _ (fun _ _ => Iff.rfl) ?_⟩
    simp [hout, hcl]
  · refine ⟨⟨h.log, h.safe⟩, h.mints, h.encodes, ?_, hoth _ ?_ ?_⟩
    · rw [nodup_append_comm, singleton_append]
      exact nodup_cons.mpr ⟨hout, h.nodup⟩
    · intro j hjk
      simp [hjk]
    · simp [hcl]

lemma closeAll (h : HubInv hub) {after} (hstep : hub.step .closeAll = some after) :
    HubInv after := by
  cases hstep
  refine ⟨⟨h.log, h.safe⟩, h.mints, h.encodes, nodup_nil, ?_⟩
  intro k
  show ConnInv hub.log hub.history (if k ∈ hub.connections then _ else _) (k ∈ [])
  split_ifs with hk
  · exact (h.conns k).close (not_mem_nil)
  · have hstays := h.conns k
    rwa [iff_false_intro hk, ← iff_false_intro (not_mem_nil (a := k))] at hstays

lemma step {action} (h : HubInv hub) (hpub : action.publishable) {after}
    (hstep : hub.step action = some after) : HubInv after := by
  cases action <;> simp only [SseHub.step] at hstep
  case publish event data outcomes =>
    split_ifs at hstep with hsafe
    cases hstep
    obtain ⟨hdata, hevent⟩ := Bool.and_eq_true_iff.mp hpub
    exact h.publish outcomes hsafe (encodeMessage_nextMessage h.mints hsafe hdata hevent)
  case attach k lastEventId outcomes =>
    split at hstep
    · next hfresh =>
        cases hstep
        exact h.attach hfresh lastEventId outcomes
    · cases hstep
  case comment k outcome =>
    cases hstep
    exact h.settle ((h.conns k).comment outcome)
  case close k =>
    cases hstep
    exact h.settle ((h.conns k).close (by rintro ⟨_, hfalse⟩; cases hfalse))
  case closeAll => exact h.closeAll hstep

end HubInv

/-- In every run of a hub whose events can be encoded, a client that attaches with the id of an
event it has received is written exactly what was published after it, or is told to reset
because some of that is gone. -/
theorem resumption_exact {κ : Type} [DecidableEq κ] (options : SseHubOptions)
    (random : Fin 8 → UInt8) (hinjected : ∀ streamId ∈ options.streamId, MintsFields streamId)
    {initial hub : SseHub κ} (hcreate : createSseHub options random = .ok initial)
    (actions : List (HubAction κ))
    (hpublishable : ∀ action ∈ actions, action.publishable = true)
    (hexec : Machine.exec SseHub.step initial actions = some hub) (k : κ) (a : Attachment)
    (hattached : (hub.conns k).attachment = some a) (n : ℕ) (hcursor : a.ResumesFrom hub.log n) :
    ResumesExactly hub k n := by
  have hinv : HubInv hub :=
    Machine.exec_invariant_of_guarded HubInv (fun _ _ _ hi hok hstep => hi.step hok hstep)
      (HubInv.create hinjected hcreate) (Machine.guarded_of_forall _ hpublishable initial) hexec
  have hres := (hinv.conns k).resumed a n hattached hcursor
  constructor
  · intro hreset
    rw [Resumed, if_neg (by simp [hreset])] at hres
    exact ⟨hres.sent, hres.complete⟩
  · intro hreset
    have hexp : n + 1 < hub.log.oldestSequence := by rwa [Resumed, if_pos hreset] at hres
    have hlt : n < hub.history.length := by
      have hlat := hinv.log.latest
      have hcap := hub.log.capacity.pos
      rw [SseEventLog.oldestSequence] at hexp
      omega
    exact ⟨n, hub.history[n], le_rfl, getElem?_eq_getElem hlt,
      hinv.log.evicted hexp (getElem?_eq_getElem hlt)⟩

/-- A hub that holds two events. -/
def smallHub : SseHub Bool :=
  ⟨⟨2, units "0000000000000000", by decide, fun _ => none, 0⟩, [], fun _ => {}, []⟩

def publishTick (outcome : WriteOutcome) : HubAction Bool :=
  .publish (units "tick") (some (units "null")) (fun _ => outcome)

/-- One client resumes after the first event, is sent two more and falls behind; another comes
back with the same cursor when it has expired. -/
def resumingCalls : List (HubAction Bool) :=
  let cursor := some (smallHub.log.idFor 1)
  [publishTick .written, publishTick .written, .attach false cursor (fun _ => .written),
    publishTick .written, publishTick .overflows, .attach true cursor (fun _ => .written)]

def resumedHub : SseHub Bool :=
  (Machine.exec SseHub.step smallHub resumingCalls).get (by decide +kernel)

theorem resumption_after_replay_and_eviction :
    createSseHub ⟨2, 100, none⟩ (fun _ => 0) = .ok smallHub ∧
      Machine.exec SseHub.step smallHub resumingCalls = some resumedHub ∧
      (resumedHub.conns false).written.length = 3 ∧ ResumesExactly resumedHub false 1 ∧
      (resumedHub.conns true).toldReset = true ∧ ResumesExactly resumedHub true 1 := by
  have hcreate : createSseHub ⟨2, 100, none⟩ (fun _ => 0) = .ok smallHub := by rfl
  have hexec : Machine.exec SseHub.step smallHub resumingCalls = some resumedHub :=
    (Option.some_get _).symm
  have hresumes := resumption_exact ⟨2, 100, none⟩ (fun _ => 0) nofun hcreate resumingCalls
    (by decide +kernel) hexec
  have hid : some (smallHub.log.idFor 1) = some (resumedHub.log.idFor 1) := by decide +kernel
  have hissued : ∀ latest, 1 ≤ latest →
      (Attachment.mk (some (smallHub.log.idFor 1)) latest).ResumesFrom resumedHub.log 1 :=
    fun _ hlatest => ⟨hid, le_rfl, hlatest⟩
  refine ⟨hcreate, hexec, by decide +kernel, ?_, by decide +kernel, ?_⟩
  · exact hresumes false _ (by decide +kernel) 1 (hissued 2 (by decide))
  · exact hresumes true _ (by decide +kernel) 1 (hissued 4 (by decide))

/-! ### Events that cannot be encoded -/

lemma sendAll_eq_none_iff (c : SseConnection) (outcomes messages) :
    (c.sendAll outcomes messages).2 = none ↔
      ∀ message ∈ messages, ∃ chunk, encodeMessage message = .ok chunk := by
  induction messages generalizing c outcomes with
  | nil => simp [SseConnection.sendAll]
  | cons message messages ih =>
    rw [forall_mem_cons, SseConnection.sendAll]
    cases hchunk : encodeMessage message with
    | error e => simp [SseConnection.send, hchunk]
    | ok chunk => simp [SseConnection.send_eq hchunk, ih]

/-- In every run, an event is on record once it is published, and a client that attaches with the
id of an event is turned away exactly if the replay holds an event that cannot be encoded. -/
theorem attach_throws_iff {κ : Type} [DecidableEq κ] (options : SseHubOptions)
    (random : Fin 8 → UInt8) {initial hub : SseHub κ}
    (hcreate : createSseHub options random = .ok initial) (actions : List (HubAction κ))
    (hexec : Machine.exec SseHub.step initial actions = some hub) (k : κ) (n : ℕ) (hpos : 1 ≤ n)
    (hissued : n ≤ hub.log.latestSequence) (outcomes : ℕ → WriteOutcome) :
    let attached := hub.attach k (some (hub.log.idFor n)) outcomes
    (attached.2 = none ↔ n + 1 < hub.log.oldestSequence ∨
        ∀ message ∈ hub.history.drop n, ∃ chunk, encodeMessage message = .ok chunk) ∧
      (attached.2 = none → (attached.1.conns k).closed = false → k ∈ attached.1.connections) ∧
      ∀ event data written,
        (hub.publish event data written).1.log = hub.log.append event data := by
  have hlog : Logged hub := Machine.exec_invariant Logged (fun _ _ _ h hstep => h.step hstep)
    (Logged.create hcreate).1 hexec
  have hlat := hlog.log.latest
  have hsince := hub.log.since_idFor hpos (hissued.trans hlog.safe)
  refine ⟨?_, ?_, fun event data written => (Logged.deliver_log _ _ _ _).1⟩
  · have hthr : (hub.attach k (some (hub.log.idFor n)) outcomes).2 = none ↔
        ∀ message ∈ replayOf (hub.log.since (some (hub.log.idFor n))),
          ∃ chunk, encodeMessage message = .ok chunk := by
      unfold SseHub.attach
      dsimp only
      split
      · next hsent =>
          refine iff_of_false nofun fun hall => ?_
          rw [(sendAll_eq_none_iff _ _ _).mpr hall] at hsent
          cases hsent
      · next hsent => exact iff_of_true rfl ((sendAll_eq_none_iff _ _ _).mp hsent)
    rw [hthr, hsince]
    split_ifs with hlive hexp
    · simp [replayOf, drop_of_length_le (hlat ▸ hlive)]
    · simp [replayOf, hexp]
    · rw [replayOf, hlog.log.replayFrom_eq (by omega) (by omega), or_iff_right hexp]
  · unfold SseHub.attach
    dsimp only
    split
    · nofun
    · split_ifs with hcl
      · simp [hcl]
      · simp

/-- The hub after two events, the second of them under a name. -/
def publishNamed (name : JsString) : Option (SseHub Bool) :=
  Machine.exec SseHub.step smallHub
    [publishTick .written, .publish name (some (units "null")) (fun _ => .written)]

/-- A client comes back with the id of the first event. -/
def reattach (hub : SseHub Bool) : SseHub Bool × Option SseError :=
  hub.attach false (some (hub.log.idFor 1)) (fun _ => .written)

theorem attach_after_encodable :
    ∃ hub, publishNamed (units "tick") = some hub ∧ (reattach hub).2 = none ∧
      ∀ message ∈ hub.history.drop 1, ∃ chunk, encodeMessage message = .ok chunk := by
  have hcreate : createSseHub ⟨2, 100, none⟩ (fun _ => 0) = .ok smallHub := rfl
  have hexec : publishNamed (units "tick") =
      some ((publishNamed (units "tick")).get (by decide +kernel)) := (Option.some_get _).symm
  have hiff := attach_throws_iff _ _ hcreate _ hexec false 1 le_rfl (by decide +kernel)
    (fun _ => .written)
  exact ⟨_, hexec, by decide +kernel,
    (hiff.1.mp (by decide +kernel)).resolve_left (by decide +kernel)⟩

/-- A name with a line break is published without an error and stays in the log; the next client
that resumes is turned away for it, with its connection open. -/
theorem failed_publish_breaks_attach :
    ∃ hub, publishNamed (units "a\nb") = some hub ∧ hub.log.latestSequence = 2 ∧
      (reattach hub).2.isSome = true ∧ ((reattach hub).1.conns false).closed = false ∧
      false ∉ (reattach hub).1.connections :=
  ⟨(publishNamed (units "a\nb")).get (by decide +kernel), (Option.some_get _).symm,
    by decide +kernel⟩

end BoilerplateExpress.Sse

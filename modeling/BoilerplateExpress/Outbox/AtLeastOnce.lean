import BoilerplateExpress.Outbox.Relay

/-!
# Delivery at least once

A message stays pending until a dispatch of it has succeeded or its attempts are used up. A
batch only ever touches rows it has locked, and a row that is locked is as it was when it was
claimed; so the marks of a batch, which take effect together, say the truth about the rows
they change.
-/
namespace BoilerplateExpress.Outbox

open List

namespace OutboxState

variable {ι : Type}

/-- A message is pending, or a dispatch of it has succeeded, or it was dead-lettered by a
relay whose number of attempts it has reached. -/
def Kept (options : ι → RelayOptions) (s : OutboxState ι) (seq : ℕ) : Prop :=
  (∃ id row, s.rows.get id = some row ∧ row.seq = seq ∧ row.status = .pending) ∨
    seq ∈ s.history.succeeded ∨
    ∃ id row r, s.rows.get id = some row ∧ row.seq = seq ∧ row.status = .dead ∧
      (seq, r) ∈ s.history.deadLetters ∧ ((options r).maxAttempts : ℕ) ≤ row.attempts

structure AtLeastOnce (options : ι → RelayOptions) (s : OutboxState ι) : Prop where
  kept : ∀ seq ∈ s.history.enqueued, s.Kept options seq
  /-- The attempts of a message are its failed dispatches that were committed. -/
  counted : ∀ id row, s.rows.get id = some row → row.attempts = s.history.failed.count row.seq
  /-- No two relays with open transactions wait for dispatches of one message. -/
  apart : ∀ r r' seq, r ≠ r' → (s.relays r).live = true → (s.relays r').live = true →
    (s.relays r).phase.awaits = some seq → (s.relays r').phase.awaits ≠ some seq

/-- A relay has a dispatch of the message running, whether it still waits for it or not. -/
def Dispatching (s : OutboxState ι) (r : ι) (seq : ℕ) : Prop :=
  (s.relays r).phase.awaits = some seq ∨ (r, seq) ∈ s.abandoned

/-- The row of a claimed message is as it was when it was claimed. -/
def Unchanged (rows : Table) (m : OutboxMessage) : Prop :=
  ∃ row, rows.get m.id = some row ∧ row.seq = m.seq ∧ row.attempts = m.attempts ∧
    row.status = .pending

/-- A message is removed after a success, and dead-lettered after its last attempt. -/
def Truthful (options : RelayOptions) (succeeded : List ℕ) (p : OutboxMessage × Mark) : Prop :=
  (p.2.isRemove = true → p.1.seq ∈ succeeded) ∧
    (p.2.isDeadLetter = true → (options.maxAttempts : ℕ) ≤ p.1.attempts + 1)

structure RelayFacts (options : RelayOptions) (rows : Table) (locks : Text → Option ι)
    (succeeded : List ℕ) (r : ι) (x : Relay) : Prop where
  claims : x.live = true → ∀ m ∈ x.held, locks m.id = some r ∧ Unchanged rows m
  nodup : x.live = true → (x.held.map OutboxMessage.id).Nodup
  truthful : ∀ p ∈ x.outcomes, Truthful options succeeded p
  fresh : x.phase = .claiming → x.done = []

/-- What holds of the rows and the history. -/
structure TableInv (options : ι → RelayOptions) (s : OutboxState ι) : Prop where
  row : ∀ id row, s.rows.get id = some row → row.id = id ∧ row.seq ∈ s.history.enqueued ∧
    row.attempts = s.history.failed.count row.seq
  failed_numbered : ∀ seq ∈ s.history.failed, seq ∈ s.history.enqueued
  distinct : ∀ id id' row row', s.rows.get id = some row → s.rows.get id' = some row' →
    row.seq = row'.seq → id = id'
  kept : ∀ seq ∈ s.history.enqueued, s.Kept options seq

structure RelayInv (options : ι → RelayOptions) (s : OutboxState ι) : Prop where
  table : TableInv options s
  relay : ∀ r, RelayFacts (options r) s.rows s.locks s.history.succeeded r (s.relays r)

variable {options : ι → RelayOptions} {s : OutboxState ι}

/-- Two relays that wait for one message would both have its row locked. -/
lemma atLeastOnce_of_inv (h : RelayInv options s) : AtLeastOnce options s := by
  have hawaits : ∀ r seq, (s.relays r).phase.awaits = some seq →
      ∃ m ∈ (s.relays r).held, m.seq = seq := by
    intro r seq hseq
    unfold RelayPhase.awaits at hseq
    split at hseq
    · next m rest hph =>
        refine ⟨m, ?_, Option.some.inj hseq⟩
        unfold Relay.held
        rw [hph]
        exact mem_append_right _ mem_cons_self
    · cases hseq
  refine ⟨h.table.kept, fun id row hrow => (h.table.row id row hrow).2.2, ?_⟩
  intro r r' seq hne hlive hlive' hr hr'
  obtain ⟨m, hm, hseq⟩ := hawaits r seq hr
  obtain ⟨m', hm', hseq'⟩ := hawaits r' seq hr'
  obtain ⟨hlock, row, hrow, hrows, _⟩ := (h.relay r).claims hlive m hm
  obtain ⟨hlock', row', hrow', hrows', _⟩ := (h.relay r').claims hlive' m' hm'
  have hid : m.id = m'.id := by
    refine h.table.distinct m.id m'.id row row' hrow hrow' ?_
    rw [hrows, hrows', hseq, hseq']
  rw [hid, hlock'] at hlock
  exact hne (Option.some.inj hlock).symm

section Facts

variable {rows rows' : Table} {locks locks' : Text → Option ι} {succeeded succeeded' : List ℕ}
  {r : ι} {x : Relay} {o : RelayOptions}

/-- The rows a relay has locked stay locked and as they are. -/
lemma RelayFacts.mono (h : RelayFacts o rows locks succeeded r x)
    (hclaims : ∀ m, locks m.id = some r → Unchanged rows m →
      locks' m.id = some r ∧ Unchanged rows' m) (hsuc : ∀ seq ∈ succeeded, seq ∈ succeeded') :
    RelayFacts o rows' locks' succeeded' r x := by
  refine ⟨?_, h.nodup, ?_, h.fresh⟩
  · intro hlive m hm
    obtain ⟨hlock, hrow⟩ := h.claims hlive m hm
    exact hclaims m hlock hrow
  · exact fun p hp => ⟨fun hr => hsuc _ ((h.truthful p hp).1 hr), (h.truthful p hp).2⟩

/-- A relay that holds no row only has to remember what is true. -/
lemma relayFacts_of_held_nil (hheld : x.live → x.held = [])
    (hfresh : x.phase = .claiming → x.done = [])
    (htr : ∀ p ∈ x.outcomes, Truthful o succeeded p) :
    RelayFacts o rows locks succeeded r x := by
  refine ⟨?_, ?_, htr, hfresh⟩
  · intro hlive m hm
    rw [hheld hlive] at hm
    cases hm
  · intro hlive
    rw [hheld hlive]
    exact nodup_nil

end Facts

lemma relayInv_init : RelayInv options (init : OutboxState ι) := by
  constructor
  · constructor <;> simp [init]
  · exact fun r => relayFacts_of_held_nil (fun _ => rfl) nofun nofun

/-- The clock and the abandoned dispatches are no part of it. -/
lemma relayInv_env (h : RelayInv options s) (now abandoned) :
    RelayInv options { s with now := now, abandoned := abandoned } := ⟨{ h.table with }, h.relay⟩

lemma relayInv_settled (h : RelayInv options s) (r seq result) :
    RelayInv options (s.settled r seq result) := by
  cases result with
  | failed reason => exact h
  | timedOut reason => exact relayInv_env h s.now _
  | delivered =>
    refine ⟨{ h.table with kept := ?_ }, ?_⟩
    · intro n hn
      rcases h.table.kept n hn with hpend | hdone | hdead
      · exact .inl hpend
      · exact .inr (.inl (mem_cons_of_mem seq hdone))
      · exact .inr (.inr hdead)
    · exact fun r' => (h.relay r').mono (fun m hlock hrow => ⟨hlock, hrow⟩)
        (fun n hn => mem_cons_of_mem seq hn)

lemma relayInv_enqueue {seq} (h : RelayInv options s) {id} (startedAt) (hid : s.rows.get id = none)
    (hseq : seq ∉ s.history.enqueued) :
    RelayInv options { s with
      rows := s.rows.set id (enqueued id seq startedAt)
      history := { s.history with enqueued := seq :: s.history.enqueued } } := by
  have hold : ∀ j row, s.rows.get j = some row →
      (s.rows.set id (enqueued id seq startedAt)).get j = some row := by
    intro j row hj
    refine OrderedMap.get_set_eq_some.mpr (.inr ⟨?_, hj⟩)
    intro heq
    rw [heq, hid] at hj
    cases hj
  have hfresh : ∀ j row, s.rows.get j = some row → row.seq ≠ seq :=
    fun j row hj heq => hseq (heq ▸ (h.table.row j row hj).2.1)
  refine ⟨⟨?_, ?_, ?_, ?_⟩, ?_⟩
  · intro j row hj
    rcases OrderedMap.get_set_eq_some.mp hj with ⟨rfl, rfl⟩ | ⟨_, hj⟩
    · have hnone : seq ∉ s.history.failed := fun hin => hseq (h.table.failed_numbered seq hin)
      exact ⟨rfl, mem_cons_self, (count_eq_zero.mpr hnone).symm⟩
    · obtain ⟨hkey, hnum, hcnt⟩ := h.table.row j row hj
      exact ⟨hkey, mem_cons_of_mem seq hnum, hcnt⟩
  · exact fun n hn => mem_cons_of_mem seq (h.table.failed_numbered n hn)
  · intro j j' row row' hj hj' heq
    rcases OrderedMap.get_set_eq_some.mp hj with ⟨hjid, rfl⟩ | ⟨_, hjold⟩
    · rcases OrderedMap.get_set_eq_some.mp hj' with ⟨hjid', rfl⟩ | ⟨_, hjold'⟩
      · rw [hjid, hjid']
      · exact absurd heq.symm (hfresh j' row' hjold')
    · rcases OrderedMap.get_set_eq_some.mp hj' with ⟨_, rfl⟩ | ⟨_, hjold'⟩
      · exact absurd heq (hfresh j row hjold)
      · exact h.table.distinct j j' row row' hjold hjold' heq
  · intro n hn
    rcases mem_cons.mp hn with rfl | hn
    · left
      exact ⟨id, _, OrderedMap.get_set_eq_some.mpr (.inl ⟨rfl, rfl⟩), rfl, rfl⟩
    · rcases h.table.kept n hn with ⟨j, row, hj, hrest⟩ | hdone | ⟨j, row, r, hj, hrest⟩
      · exact .inl ⟨j, row, hold j row hj, hrest⟩
      · exact .inr (.inl hdone)
      · exact .inr (.inr ⟨j, row, r, hold j row hj, hrest⟩)
  · refine fun r => (h.relay r).mono ?_ (fun _ hn => hn)
    rintro m hlock ⟨row, hrow, hrest⟩
    exact ⟨hlock, row, hold m.id row hrow, hrest⟩

/-- The rows that a batch has marked, before its commit. -/
structure Marked (options : ι → RelayOptions) (s : OutboxState ι) (r : ι)
    (done : List (OutboxMessage × Mark)) : Prop where
  claimed : ∀ p ∈ done, s.locks p.1.id = none ∧ Unchanged s.rows p.1
  nodup : (done.map (fun p => p.1.id)).Nodup
  truthful : ∀ p ∈ done, Truthful (options r) s.history.succeeded p

variable {r : ι} {done : List (OutboxMessage × Mark)}

lemma get_mark {row m} (mark) (hrow : s.rows.get m.id = some row) (now j) :
    (s.applyBatch r now [(m, mark)]).rows.get j =
      if j = m.id then mark.effect now row else s.rows.get j := by
  show (mark.apply now s.rows m.id).get j = _
  rw [Mark.get_apply]
  split_ifs with hj
  · rw [hj, hrow, Option.bind_some]
  · rfl

lemma failed_mark (m mark now) :
    (s.applyBatch r now [(m, mark)]).history.failed =
      if mark.isRemove then s.history.failed else m.seq :: s.history.failed := by cases mark <;> rfl

/-- A message that one mark names stays accounted for. -/
lemma kept_mark {m mark} (hm : Unchanged s.rows m)
    (htr : Truthful (options r) s.history.succeeded (m, mark)) (now) {seq}
    (hseq : s.Kept options seq) : (s.applyBatch r now [(m, mark)]).Kept options seq := by
  obtain ⟨row, hrow, hrows, hatts, hpend⟩ := hm
  have hget := get_mark (s := s) (r := r) mark hrow now
  rcases hseq with ⟨j, old, hj, hold, hstat⟩ | hdone | ⟨j, old, r', hj, hold, hdead, hby, hmax⟩
  · by_cases hid : j = m.id
    · obtain rfl : row = old := Option.some.inj (hrow.symm.trans (hid ▸ hj))
      have heff := (hget j).trans (if_pos hid)
      cases mark with
      | remove => exact .inr (.inl (hold ▸ hrows ▸ htr.1 rfl))
      | reschedule delayMs reason => exact .inl ⟨j, _, heff, hold, hstat⟩
      | deadLetter reason =>
        refine .inr (.inr ⟨j, _, r, heff, hold, rfl, ?_, hatts ▸ htr.2 rfl⟩)
        rw [← hold, hrows]
        exact mem_cons_self
    · exact .inl ⟨j, old, ((hget j).trans (if_neg hid)).trans hj, hold, hstat⟩
  · exact .inr (.inl hdone)
  · have hid : j ≠ m.id := by
      rintro rfl
      rw [Option.some.inj (hj.symm.trans hrow), hpend] at hdead
      cases hdead
    exact .inr (.inr ⟨j, old, r', ((hget j).trans (if_neg hid)).trans hj, hold, hdead,
      mem_append_right _ hby, hmax⟩)

/-- One mark: the row it names counts one attempt more, if it is still there. -/
lemma tableInv_mark {m mark} (h : TableInv options s) (hm : Unchanged s.rows m)
    (htr : Truthful (options r) s.history.succeeded (m, mark)) (now) :
    TableInv options (s.applyBatch r now [(m, mark)]) := by
  have hkept := fun n hn => kept_mark hm htr now (h.kept n hn)
  obtain ⟨row, hrow, hseq, -, -⟩ := hm
  obtain ⟨-, hnum, hcnt⟩ := h.row m.id row hrow
  have hold : ∀ j new, (s.applyBatch r now [(m, mark)]).rows.get j = some new →
      ∃ old, s.rows.get j = some old ∧ new.id = old.id ∧ new.seq = old.seq ∧
        new.attempts = (s.applyBatch r now [(m, mark)]).history.failed.count new.seq := by
    intro j new hj
    rw [get_mark _ hrow] at hj
    rw [failed_mark]
    split_ifs at hj with hid
    · obtain ⟨hrem, hnewid, hnew, hatts, _⟩ := Mark.effect_eq_some hj
      refine ⟨row, hid ▸ hrow, hnewid, hnew, ?_⟩
      rw [hatts, hcnt, hrem, if_neg (by decide), hnew, hseq, count_cons_self]
    · refine ⟨new, hj, rfl, rfl, ?_⟩
      -- another row has another number
      have hne : m.seq ≠ new.seq :=
        fun heq => hid (h.distinct j m.id new row hj hrow (heq.symm.trans hseq.symm))
      rw [(h.row j new hj).2.2]
      split_ifs
      · rfl
      · rw [count_cons_of_ne hne]
  refine ⟨?_, ?_, ?_, hkept⟩
  · intro j new hj
    obtain ⟨old, hj', hid, hnew, hatts⟩ := hold j new hj
    obtain ⟨hkey, hnum', _⟩ := h.row j old hj'
    exact ⟨hid.trans hkey, hnew ▸ hnum', hatts⟩
  · intro n hn
    rw [failed_mark] at hn
    split_ifs at hn
    · exact h.failed_numbered n hn
    · rcases mem_cons.mp hn with rfl | hn
      · exact hseq ▸ hnum
      · exact h.failed_numbered n hn
  · intro j j' new new' hj hj' heq
    obtain ⟨old, hold', _, hnew, _⟩ := hold j new hj
    obtain ⟨old', hold'', _, hnew', _⟩ := hold j' new' hj'
    exact h.distinct j j' old old' hold' hold'' (by rw [← hnew, ← hnew', heq])

/-- The order in which failures and dead letters are listed does not matter. -/
lemma relayInv_perm {failed deadLetters} (h : RelayInv options s)
    (hfail : failed.Perm s.history.failed) (hdead : deadLetters.Perm s.history.deadLetters) :
    RelayInv options { s with
      history := { s.history with failed := failed, deadLetters := deadLetters } } := by
  refine ⟨⟨?_, ?_, h.table.distinct, ?_⟩, h.relay⟩
  · intro id row hrow
    rw [hfail.count_eq]
    exact h.table.row id row hrow
  · exact fun seq hseq => h.table.failed_numbered seq (hfail.subset hseq)
  · intro seq hseq
    unfold Kept
    simp only [hdead.mem_iff]
    exact h.table.kept seq hseq

/-- The marks of a batch take effect, one after the other, on rows that nobody has locked. -/
lemma relayInv_applyBatch (h : RelayInv options s) (hdone : Marked options s r done) (now) :
    RelayInv options (s.applyBatch r now done) := by
  induction done generalizing s with
  | nil => exact h
  | cons p rest ih =>
    obtain ⟨⟨hlock, hrow⟩, hclaim⟩ := forall_mem_cons.mp hdone.claimed
    obtain ⟨hp, hrest⟩ := nodup_cons.mp hdone.nodup
    obtain ⟨htr, htrut⟩ := forall_mem_cons.mp hdone.truthful
    have hoth : ∀ m, m.id ≠ p.1.id → Unchanged s.rows m →
        Unchanged (s.applyBatch r now [p]).rows m := by
      rintro m hne ⟨row, hget, hm⟩
      obtain ⟨old, hold, _⟩ := hrow
      exact ⟨row, ((get_mark _ hold now m.id).trans (if_neg hne)).trans hget, hm⟩
    have hmar : RelayInv options (s.applyBatch r now [p]) := by
      refine ⟨tableInv_mark h.table hrow htr now,
        fun r' => (h.relay r').mono ?_ (fun _ hn => hn)⟩
      intro m hm hunc
      refine ⟨hm, hoth m ?_ hunc⟩
      intro heq
      rw [heq, hlock] at hm
      cases hm
    have hall := ih hmar ⟨fun q hq => ⟨(hclaim q hq).1, hoth q.1 ?_ (hclaim q hq).2⟩,
      hrest, htrut⟩
    · have hperm : ∀ {β : Type} (keep : OutboxMessage × Mark → Bool) (name : _ → β)
          (tail : List β), (((p :: rest).filter keep).map name ++ tail).Perm
            ((rest.filter keep).map name ++ (([p].filter keep).map name ++ tail)) := by
        intro β keep name tail
        rw [← singleton_append, filter_append, map_append, append_assoc]
        exact perm_append_comm_assoc _ _ _
      exact relayInv_perm hall (hperm _ _ _) (hperm _ _ _)
    · exact fun heq => hp (mem_map.mpr ⟨q, hq, heq⟩)

variable [DecidableEq ι] {x : Relay}

/-- One relay moves on, and the locks of the others stay. -/
lemma relayInv_move (h : RelayInv options s) {locks}
    (hoth : ∀ r', r' ≠ r → ∀ id, s.locks id = some r' → locks id = some r')
    (hx : RelayFacts (options r) s.rows locks s.history.succeeded r x) :
    RelayInv options (setRelay { s with locks := locks } r x) := by
  refine ⟨{ h.table with }, fun r' => ?_⟩
  simp only [setRelay, Function.update_apply]
  split_ifs with heq
  · exact heq ▸ hx
  · exact (h.relay r').mono (fun m hlock hrow => ⟨hoth r' heq m.id hlock, hrow⟩) (fun _ hn => hn)

/-- A step of one relay that keeps its rows locked and records nothing untrue. -/
lemma relayInv_setRelay (h : RelayInv options s)
    (hheld : x.live → x.held = [] ∨ (s.relays r).live ∧ x.held = (s.relays r).held)
    (hfresh : x.phase = .claiming → x.done = [])
    (htr : ∀ p ∈ x.outcomes, Truthful (options r) s.history.succeeded p) :
    RelayInv options (s.setRelay r x) := by
  refine relayInv_move h (fun _ _ _ hid => hid) ?_
  by_cases hkeeps : (s.relays r).live ∧ x.held = (s.relays r).held
  · obtain ⟨hlive, hsame⟩ := hkeeps
    exact ⟨fun _ m hm => (h.relay r).claims hlive m (hsame ▸ hm),
      fun _ => hsame ▸ (h.relay r).nodup hlive, htr, hfresh⟩
  · exact relayFacts_of_held_nil (fun hlive => (hheld hlive).resolve_right hkeeps) hfresh htr

/-- A transaction ends without effect; what its relay still remembers of it stays true. -/
lemma relayInv_release (h : RelayInv options s) (hlive : x.live → x.held = [])
    (hfresh : x.phase = .claiming → x.done = [])
    (hout : ∀ p ∈ x.outcomes, p ∈ (s.relays r).outcomes) :
    RelayInv options ((s.unlock r).setRelay r x) := by
  refine relayInv_move h ?_ ?_
  · intro r' hne id hid
    rw [hid, if_neg]
    exact fun heq => hne (Option.some.inj heq)
  · exact relayFacts_of_held_nil hlive hfresh (fun p hp => (h.relay r).truthful p (hout p hp))

/-- A claim locks rows that nobody had locked, as they are. -/
lemma relayInv_claim (h : RelayInv options s) {rows : List OutboxRow}
    (hrows : ∀ row ∈ rows, (∃ id, s.rows.get id = some row) ∧ row.status = .pending ∧
      s.locks row.id = none) (hnd : (rows.map OutboxRow.id).Nodup)
    (hheld : x.held = rows.map toMessage) (hfresh : x.phase = .claiming → x.done = [])
    (hout : x.outcomes = []) :
    RelayInv options ((s.lock r (rows.map OutboxRow.id)).setRelay r x) := by
  refine relayInv_move h ?_ ⟨?_, ?_, ?_, hfresh⟩
  · -- a row that another relay has locked is not among them
    intro r' _ id hid
    rw [if_neg, hid]
    intro hmem
    obtain ⟨row, hrow, rfl⟩ := mem_map.mp hmem
    rw [(hrows row hrow).2.2] at hid
    cases hid
  · intro _ m hm
    rw [hheld] at hm
    obtain ⟨row, hrow, rfl⟩ := mem_map.mp hm
    obtain ⟨⟨id, hid⟩, hpend, _⟩ := hrows row hrow
    have hget : s.rows.get row.id = some row := (h.table.row id row hid).1 ▸ hid
    exact ⟨if_pos (mem_map_of_mem hrow), row, hget, rfl, rfl, hpend⟩
  · intro _
    rw [hheld, map_map]
    exact hnd
  · rw [hout]
    exact nofun

lemma relayInv_commit (h : RelayInv options s) (hph : (s.relays r).phase = .looping [])
    (hlive : (s.relays r).live) (hheld : x.held = []) (hout : x.outcomes = []) :
    RelayInv options (((s.commitMarks r).unlock r).setRelay r x) := by
  have hrel : RelayInv options ((s.unlock r).setRelay r x) := by
    refine relayInv_release h (fun _ => hheld) ?_ ?_
    · intro _
      exact (append_eq_nil_iff.mp hout).1
    · rw [hout]
      exact nofun
  have hmar : Marked options ((s.unlock r).setRelay r x) r (s.relays r).done := by
    refine ⟨?_, ?_, fun p hp => (h.relay r).truthful p (mem_append_left _ hp)⟩
    · intro p hp
      obtain ⟨hlock, hrow⟩ := (h.relay r).claims hlive p.1 (mem_append_left _ (mem_map_of_mem hp))
      exact ⟨if_pos hlock, hrow⟩
    · have hall := (h.relay r).nodup hlive
      unfold Relay.held at hall
      rw [hph, RelayPhase.remaining, append_nil, map_map] at hall
      exact hall
  exact relayInv_applyBatch hrel hmar (s.relays r).startedAt

/-- A failed dispatch is dead-lettered only as the last attempt, and only a success removes. -/
lemma truthful_markOf {succeeded} (options message random result)
    (hsuc : result = .delivered → message.seq ∈ succeeded) :
    Truthful options succeeded (message, markOf options message random result) := by
  have hfail : ∀ reason, Truthful options succeeded
      (message, markOf.failure options message random reason) := by
    intro reason
    unfold markOf.failure
    split_ifs with hmax
    · exact ⟨nofun, fun _ => hmax⟩
    · exact ⟨nofun, nofun⟩
  cases result with
  | delivered => exact ⟨fun _ => hsuc rfl, nofun⟩
  | failed reason => exact hfail reason
  | timedOut reason => exact hfail reason

lemma relayInv_settle {m rest} (h : RelayInv options s)
    (hph : (s.relays r).phase = .dispatching m rest) (result random) :
    RelayInv options ((s.settled r m.seq result).setRelay r { s.relays r with
      phase := .marking m (markOf (options r) m random result) rest }) := by
  have hinv := relayInv_settled h r m.seq result
  have hrel : (s.settled r m.seq result).relays = s.relays := by cases result <;> rfl
  refine relayInv_setRelay hinv ?_ nofun ?_
  · intro hlive
    rw [hrel]
    refine .inr ⟨hlive, ?_⟩
    simp [Relay.held, hph, RelayPhase.remaining]
  · intro p hp
    rcases mem_append.mp hp with hold | hnew
    · refine (hinv.relay r).truthful p ?_
      rw [hrel]
      exact mem_append_left _ hold
    · rw [mem_singleton.mp hnew]
      refine truthful_markOf (options r) m random result ?_
      rintro rfl
      exact mem_cons_self

lemma relayInv_mark {m mark rest} (h : RelayInv options s)
    (hph : (s.relays r).phase = .marking m mark rest) :
    RelayInv options (s.setRelay r { s.relays r with
      phase := .looping rest
      done := (s.relays r).done ++ [(m, mark)] }) := by
  refine relayInv_setRelay h ?_ nofun ?_
  · intro hlive
    refine .inr ⟨hlive, ?_⟩
    simp [Relay.held, hph, RelayPhase.remaining]
  · intro p hp
    refine (h.relay r).truthful p ?_
    rw [Relay.outcomes, hph, RelayPhase.unrecorded]
    simpa [Relay.outcomes, RelayPhase.unrecorded] using hp

lemma relayInv_claimDue {claimed} (h : RelayInv options s) (hfresh : (s.relays r).done = [])
    (now limit) :
    RelayInv options ((s.lock r ((claimDue s.rows (fun id => (s.locks id).isSome) now limit).map
      OutboxRow.id)).setRelay r { s.relays r with
        phase := .looping ((claimDue s.rows (fun id => (s.locks id).isSome) now limit).map toMessage)
        claimed := claimed }) := by
  refine relayInv_claim h ?_ (claimDue_nodup (fun id row hrow => (h.table.row id row hrow).1) _ now limit) ?_ nofun ?_
  · intro row hrow
    obtain ⟨hget, hpend, hloc⟩ := mem_claimDue hrow
    exact ⟨hget, hpend, Option.not_isSome_iff_eq_none.mp (Bool.eq_false_iff.mp hloc)⟩
  · simp [Relay.held, hfresh, RelayPhase.remaining]
  · simp [Relay.outcomes, hfresh, RelayPhase.unrecorded]

lemma relayInv_step {action t} (h : RelayInv options s) (hstep : s.step options action = some t) :
    RelayInv options t := by
  -- a relay that forgets its batch
  have hreset : ∀ r, RelayInv options ((s.unlock r).setRelay r {}) :=
    fun r => relayInv_release h (fun _ => rfl) (fun _ => rfl) nofun
  cases action <;> simp only [step] at hstep
  case elapse ms =>
    cases hstep
    exact relayInv_env h _ s.abandoned
  case enqueue id seq startedAt =>
    split_ifs at hstep with hguard
    cases hstep
    exact relayInv_enqueue h startedAt hguard.1 hguard.2.1
  case tick r =>
    split at hstep
    · cases hstep
      exact relayInv_setRelay h (fun _ => .inl rfl) (fun _ => rfl) nofun
    · cases hstep
  case claimDue r =>
    split at hstep
    · next hph =>
        split_ifs at hstep
        cases hstep
        exact relayInv_claimDue h ((h.relay r).fresh hph) _ _
    · cases hstep
  case dispatch r =>
    split at hstep
    · next m rest hph =>
        cases hstep
        refine relayInv_setRelay h ?_ nofun ?_
        · intro hlive
          exact .inr ⟨hlive, by simp [Relay.held, hph, RelayPhase.remaining]⟩
        · intro p hp
          refine (h.relay r).truthful p ?_
          simpa [Relay.outcomes, RelayPhase.unrecorded, hph] using hp
    · cases hstep
  case settle r result random =>
    split at hstep
    · next m rest hph =>
        cases hstep
        exact relayInv_settle h hph result random
    · cases hstep
  case settleLate r seq delivered =>
    split_ifs at hstep
    · cases hstep
      exact relayInv_env (relayInv_settled h r seq .delivered) s.now _
    · cases hstep
      exact relayInv_env h s.now _
  case mark r =>
    split at hstep
    · next m mark rest hph =>
        split_ifs at hstep
        cases hstep
        exact relayInv_mark h hph
    · cases hstep
  case commit r =>
    split at hstep
    · next hph =>
        split_ifs at hstep with hlive
        cases hstep
        refine relayInv_commit h hph hlive ?_ ?_
        · unfold Relay.afterCommit
          split_ifs <;> rfl
        · unfold Relay.afterCommit
          split_ifs <;> rfl
    · cases hstep
  case fail r =>
    split at hstep
    · cases hstep
      exact hreset r
    · cases hstep
      exact hreset r
    · cases hstep
      exact hreset r
    · cases hstep
  case connectionLost r =>
    cases hstep
    exact relayInv_release h nofun (h.relay r).fresh (fun p hp => hp)
  case crash r =>
    cases hstep
    exact relayInv_env (hreset r) s.now _

end OutboxState

open OutboxState in
/-- In every run of any number of relays, with any outcomes and crashes, delivery is at least
once, attempts are counted exactly, and relays with open transactions never wait for
dispatches of one message at the same time. -/
theorem outbox_at_least_once {ι : Type} [DecidableEq ι] (options : ι → RelayOptions)
    (run : List (OutboxAction ι)) (s : OutboxState ι)
    (hexec : Machine.exec (step options) init run = some s) : AtLeastOnce options s := by
  have hinv : RelayInv options s :=
    Machine.exec_invariant (RelayInv options) (fun _ _ _ hs hstep => relayInv_step hs hstep)
      relayInv_init hexec
  exact atLeastOnce_of_inv hinv

/-- The options of a relay that leaves everything to its defaults. -/
def defaultRelayOptions : RelayOptions where
  batchSize := Nat.toPNat' 20
  maxBatchesPerTick := Nat.toPNat' 5
  maxAttempts := Nat.toPNat' 8
  baseDelayMs := 500
  maxDelayMs := 60000

/-- One relay gives up on a dispatch and reschedules its message without a delay; the other
one claims the message and dispatches it. -/
def timeoutRun : List (OutboxAction Bool) :=
  [.enqueue ['m'] 1 0, .tick false, .claimDue false, .dispatch false,
    .settle false (.timedOut []) Draw.zero, .mark false, .commit false,
    .tick true, .claimDue true, .dispatch true]

open OutboxState in
theorem outbox_at_least_once_after_timeout :
    ∃ s, Machine.exec (step fun _ => defaultRelayOptions) init timeoutRun = some s ∧
      s.history.failed = [1] ∧ (s.relays true).phase.awaits = some 1 ∧
      AtLeastOnce (fun _ => defaultRelayOptions) s := by
  refine Machine.exists_of_seen (fun s => (s.history.failed, (s.relays true).phase.awaits))
    ([1], some 1) (by decide +kernel) ?_
  intro s hexec hseen
  obtain ⟨hfailed, hawaits⟩ := Prod.mk.inj hseen
  exact ⟨hfailed, hawaits, outbox_at_least_once _ timeoutRun s hexec⟩

open OutboxState in
/-- The dispatch that was given up on is still running, so two relays dispatch one message. -/
theorem message_dispatched_twice :
    resolveRelayOptions {} = .ok defaultRelayOptions ∧
      ∃ s, Machine.exec (step fun _ => defaultRelayOptions) init timeoutRun = some s ∧
        s.Dispatching false 1 ∧ s.Dispatching true 1 := by
  refine ⟨rfl, ?_⟩
  refine Machine.exists_of_seen (fun s => (s.abandoned, (s.relays true).phase.awaits))
    ([(false, 1)], some 1) (by decide +kernel) ?_
  intro s _ hseen
  obtain ⟨haban, hawaits⟩ := Prod.mk.inj hseen
  refine ⟨.inr ?_, .inl hawaits⟩
  rw [haban]
  exact mem_singleton_self _

end BoilerplateExpress.Outbox

import BoilerplateExpress.Ingest.CsvIngest

/-!
# Runs of an ingest

What every run keeps: the stages before the sink have read the records of a first part of
the document, the batches pushed so far are never taken back, and the statements executed
are a first part of the statements of those batches.
-/
namespace BoilerplateExpress.Ingest

open Streams
open List

section Stages

variable {T : Type}

/-- The verdicts on the data records of a document. -/
def verdicts (settings : Settings T) : List CsvRecord → List (Verdict T)
  | [] => []
  | header :: data =>
    match bindHeader settings.toLowerCase header settings.columns with
    | .error _ => []
    | .ok binding => data.map (verdict settings binding header.fields.length)

/-- The rows that validate, in the order of the document. -/
def acceptedRows (settings : Settings T) (records : List CsvRecord) : List T :=
  (verdicts settings records).filterMap Verdict.row

/-- The rows in the batcher: those in pushed batches and those in the open one. -/
def Rows.all (rows : Rows T) : List T := rows.pushed.flatten ++ rows.batch

/-- The rows after some verdicts. -/
structure Rows.Counted (rows rows' : Rows T) (vs : List (Verdict T)) : Prop where
  header : rows'.header = rows.header
  recordsRead : rows'.recordsRead = rows.recordsRead + vs.length
  sink : rows'.sink = (vs.flatMap Verdict.errors).foldl RowErrorSink.record rows.sink
  all : rows'.all = rows.all ++ vs.filterMap Verdict.row
  pushed : rows.pushed <+: rows'.pushed

lemma Rows.pushData_spec (size) (rows : Rows T) (data) :
    (rows.pushData size data).header = rows.header ∧ (rows.pushData size data).sink = rows.sink ∧
      (rows.pushData size data).recordsRead = rows.recordsRead ∧
      (rows.pushData size data).all = rows.all ++ data.toList ∧
      rows.pushed <+: (rows.pushData size data).pushed := by
  cases data with
  | none => simp [Rows.pushData]
  | some row =>
    simp only [Rows.pushData, Rows.pushRow]
    split_ifs <;> simp [Rows.all]

lemma Rows.readRecord_counted (settings binding width) (rows : Rows T) (record) :
    rows.Counted (rows.readRecord settings binding width record)
      [verdict settings binding width record] := by
  obtain ⟨hhdr, hsink, hread, hall, hpush⟩ := Rows.pushData_spec settings.batchSize
    { rows with
      recordsRead := rows.recordsRead + 1
      sink := (verdict settings binding width record).errors.foldl RowErrorSink.record rows.sink }
    (verdict settings binding width record).row
  refine ⟨hhdr, hread, ?_, hall.trans ?_, hpush⟩
  · rw [flatMap_singleton]
    exact hsink
  · cases hrow : (verdict settings binding width record).row <;> simp [Rows.all, hrow]

lemma Rows.flush_pushed (rows : Rows T) : rows.pushed <+: rows.flush.pushed := by
  unfold Rows.flush
  split_ifs
  · exact prefix_rfl
  · exact prefix_append _ _

variable {rows : Rows T}

lemma Rows.transform_pushed {settings} {rows'} {record}
    (h : rows.transform settings record = .ok rows') : rows.pushed <+: rows'.pushed := by
  unfold Rows.transform at h
  cases hhdr : rows.header with
  | none =>
    simp only [hhdr] at h
    obtain ⟨binding, -, hrows⟩ := bind_eq_ok h
    exact Except.ok.inj hrows ▸ prefix_rfl
  | some header =>
    simp only [hhdr] at h
    exact Except.ok.inj h ▸ (rows.readRecord_counted settings header.1 header.2 record).pushed

variable {records : List CsvRecord}

lemma Rows.transformAll_pushed {settings rows'}
    (h : records.foldlM (Rows.transform settings) rows = .ok rows') :
    rows.pushed <+: rows'.pushed := by
  induction records generalizing rows with
  | nil => exact Except.ok.inj h ▸ prefix_rfl
  | cons record records ih =>
    obtain ⟨next, hnext, hrest⟩ := bind_eq_ok h
    exact (Rows.transform_pushed hnext).trans (ih hrest)

lemma mapError_eq_ok {ε ε' α : Type} {x : Except ε α} {f : ε → ε'} {a} (h : x.mapError f = .ok a) :
    x = .ok a := by
  cases x with
  | error e => cases h
  | ok b => exact congrArg Except.ok (Except.ok.inj h)

/-- The rows before the first record. -/
def Rows.start (settings : Settings T) : Rows T := { sink := ⟨settings.maxReported, [], 0⟩ }

/-- The stages after the parser was given these texts. -/
structure Reader.After {d : StringDecoder} (settings : Settings T) (texts : List JsString)
    (r : Reader T d) : Prop where
  parser : texts.foldlM (Parser.consume settings.dialect) {} = .ok r.parser
  rows : r.parser.pushed.foldlM (Rows.transform settings) (Rows.start settings) = .ok r.rows

variable {d : StringDecoder} {settings : Settings T}

lemma Reader.start_after : (Reader.start settings : Reader T d).After settings [] := ⟨rfl, rfl⟩

variable {r : Reader T d} {texts : List JsString}

/-- The mapper has seen the records pushed before, and sees the new ones. -/
lemma Reader.After.passOn_eq_ok {pushed} (hr : r.After settings texts)
    (hpush : r.parser.pushed <+: pushed) (h : r.passOn settings pushed = .ok rows) :
    pushed.foldlM (Rows.transform settings) (Rows.start settings) = .ok rows ∧
      r.rows.pushed <+: rows.pushed := by
  obtain ⟨new, rfl⟩ := hpush
  have hnew := mapError_eq_ok h
  rw [drop_left] at hnew
  refine ⟨?_, Rows.transformAll_pushed hnew⟩
  rw [foldlM_append, hr.rows]
  exact hnew

variable {r' : Reader T d}

lemma Reader.After.consume_after {text} (hr : r.After settings texts)
    (h : r.consume settings text = .ok r') :
    r'.After settings (texts ++ [text]) ∧ r'.held = r.held ∧ r.rows.pushed <+: r'.rows.pushed := by
  obtain ⟨p, hp, hrest⟩ := bind_eq_ok h
  obtain ⟨rows, hrows, hr'⟩ := bind_eq_ok hrest
  have hcon := mapError_eq_ok hp
  obtain ⟨hall, hpush⟩ := hr.passOn_eq_ok (Parser.consume_pushed hcon) hrows
  rw [← Except.ok.inj hr']
  refine ⟨⟨?_, hall⟩, rfl, hpush⟩
  rw [foldlM_append, hr.parser, ok_bind, foldlM_cons, hcon]
  rfl

lemma Reader.After.chunk_after {bytes} (hr : r.After settings texts)
    (h : r.chunk settings bytes = .ok r') :
    r'.After settings (texts ++ [(d.write r.held bytes).1]) ∧ r'.held = (d.write r.held bytes).2 ∧
      r.rows.pushed <+: r'.rows.pushed := by
  simp only [Reader.chunk] at h
  split_ifs at h
  have hr' : Reader.After settings texts
      { r with seen := r.seen + bytes.length, held := (d.write r.held bytes).2 } :=
    ⟨hr.parser, hr.rows⟩
  exact hr'.consume_after h

/-- At the end of the input the mapper has seen the records of the whole document. -/
lemma Reader.After.finish_after (hr : r.After settings texts) (h : r.finish settings = .ok r') :
    ∃ records rows, settings.dialect.parseTexts (texts ++ [d.finish r.held]) = .ok records ∧
      records.foldlM (Rows.transform settings) (Rows.start settings) = .ok rows ∧
      r'.rows = rows.flush ∧ r.rows.pushed <+: r'.rows.pushed := by
  obtain ⟨q, hq, hrest⟩ := bind_eq_ok h
  obtain ⟨records, hrecs, hrest⟩ := bind_eq_ok hrest
  obtain ⟨rows, hrows, hr'⟩ := bind_eq_ok hrest
  obtain ⟨haft, -, hpush⟩ := hr.consume_after hq
  have hflush := mapError_eq_ok hrecs
  obtain ⟨hall, hgrows⟩ := haft.passOn_eq_ok (Parser.flush_pushed hflush) hrows
  rw [← Except.ok.inj hr']
  refine ⟨records, rows, ?_, hall, rfl, (hpush.trans hgrows).trans rows.flush_pushed⟩
  rw [CsvDialect.parseTexts, haft.parser]
  exact hflush

lemma Reader.After.pushed_prefix {rest} (hr : r.After settings texts)
    (h : settings.dialect.parseTexts (texts ++ rest) = .ok records) :
    r.parser.pushed <+: records := by
  obtain ⟨p, hp, hflush⟩ := bind_eq_ok h
  rw [foldlM_append, hr.parser, ok_bind, Parser.foldlM_consume] at hp
  exact (Parser.consume_pushed hp).trans (Parser.flush_pushed hflush)

/-- Data records are never refused by the mapper itself. -/
lemma Rows.transform_data {binding width} (data : List CsvRecord)
    (hhdr : rows.header = some (binding, width)) :
    ∃ rows', data.foldlM (Rows.transform settings) rows = .ok rows' ∧
      rows.Counted rows' (data.map (verdict settings binding width)) := by
  induction data generalizing rows with
  | nil => exact ⟨rows, rfl, rfl, rfl, rfl, by simp, prefix_rfl⟩
  | cons record data ih =>
    have hfst := rows.readRecord_counted settings binding width record
    obtain ⟨rows', hrows', hrest⟩ := ih (hfst.header.trans hhdr)
    refine ⟨rows', ?_, hrest.header.trans hfst.header, ?_, ?_, ?_,
      hfst.pushed.trans hrest.pushed⟩
    · have htran : rows.transform settings record =
          .ok (rows.readRecord settings binding width record) := by simp [Rows.transform, hhdr]
      rw [foldlM_cons, htran]
      exact hrows'
    · rw [hrest.recordsRead, hfst.recordsRead]
      simp only [length_cons, map_cons, length_nil]
      omega
    · rw [hrest.sink, hfst.sink]
      simp
    · rw [hrest.all, hfst.all, append_assoc, ← filterMap_append]
      rfl

/-- The mapper after a whole document: every data record was counted once. -/
lemma Rows.transform_document
    (h : records.foldlM (Rows.transform settings) (Rows.start settings) = .ok rows) :
    (Rows.start settings).recordsRead + (verdicts settings records).length = rows.recordsRead ∧
      rows.sink = ((verdicts settings records).flatMap Verdict.errors).foldl RowErrorSink.record
        ⟨settings.maxReported, [], 0⟩ ∧ rows.all = acceptedRows settings records := by
  cases records with
  | nil =>
    rw [← Except.ok.inj h]
    exact ⟨rfl, rfl, rfl⟩
  | cons header data =>
    obtain ⟨bound, hbound, hdata⟩ := bind_eq_ok h
    obtain ⟨binding, hbin, hrows⟩ := bind_eq_ok hbound
    rw [← Except.ok.inj hrows] at hdata
    have hbegin : ({ Rows.start settings with
        header := some (binding, header.fields.length) } : Rows T).header =
        some (binding, header.fields.length) := rfl
    obtain ⟨rows', hrows', hcoun⟩ := Rows.transform_data data hbegin
    have heq : rows' = rows := Except.ok.inj (hrows'.symm.trans hdata)
    have hver : verdicts settings (header :: data) =
        data.map (verdict settings binding header.fields.length) := by simp [verdicts, hbin]
    rw [acceptedRows, hver, ← heq]
    exact ⟨hcoun.recordsRead.symm, hcoun.sink, hcoun.all⟩

lemma Rows.flush_all (rows : Rows T) : rows.flush.pushed.flatten = rows.all := by
  unfold Rows.flush
  split_ifs with hbatch
  · simp [Rows.all, length_eq_zero_iff.mp hbatch]
  · simp [Rows.all]

lemma Rows.flush_counts (rows : Rows T) :
    rows.flush.sink = rows.sink ∧ rows.flush.recordsRead = rows.recordsRead := by
  unfold Rows.flush
  split_ifs <;> exact ⟨rfl, rfl⟩

end Stages

/-- The statements executed one after another on a database, with the rows they wrote. -/
def Writer.replay {T S σ : Type} (writer : Writer T S σ) (database : σ) (statements : List S) :
    Option (ℕ × σ) :=
  statements.foldlM
    (fun before statement =>
      (writer.run before.2 statement).map (fun after => (before.1 + after.1, after.2)))
    (0, database)

namespace Run

variable {T S σ : Type} {d : StringDecoder} {settings : Settings T} {writer : Writer T S σ}
  {chunks : List Bytes} {database : σ}

/-- The statements the write in progress has left. -/
def left (s : Run T S σ d) : List S := (s.writing.map Prod.snd).getD []

/-- The rows of the write in progress. -/
def writtenNow (s : Run T S σ d) : ℕ := (s.writing.map Prod.fst).getD 0

/-- The batches the sink has taken. -/
def batches (s : Run T S σ d) : List (List T) := s.reader.rows.pushed.take s.taken

/-- What the sink has sent, as long as it began with `database`: the statements of the batches
it has taken, or a first part of them once the run was rejected. -/
structure Sent (writer : Writer T S σ) (database : σ) (s : Run T S σ d) : Prop where
  taken : s.taken ≤ s.reader.rows.pushed.length
  accepted : s.accepted = (s.batches.map List.length).sum
  executed : s.executed ++ s.left <+: s.batches.flatMap writer.statements
  complete : s.status ≠ .rejected → s.executed ++ s.left = s.batches.flatMap writer.statements
  replay : ∃ count, writer.replay database s.executed = some (count, s.database) ∧
    (s.status ≠ .rejected → s.written + s.writtenNow = count)

/-- A resolved run has read everything and written every batch. -/
structure Done (s : Run T S σ d) : Prop where
  ended : s.ended = true
  writing : s.writing = none
  taken : s.taken = s.reader.rows.pushed.length

/-- What holds in every state of a run on `chunks` that began with `database`. -/
structure Inv (settings : Settings T) (writer : Writer T S σ) (chunks : List Bytes) (database : σ)
    (s : Run T S σ d) : Prop where
  reading : s.ended = false → ∃ texts, s.reader.After settings texts ∧
    d.texts chunks = texts ++ d.textsFrom s.reader.held s.unread
  ended : s.ended = true → ∃ records rows, settings.dialect.parse d chunks = .ok records ∧
    records.foldlM (Rows.transform settings) (Rows.start settings) = .ok rows ∧
    s.reader.rows = rows.flush
  sent : s.Sent writer database
  done : s.status = .resolved → s.Done

lemma start_inv : (start settings chunks database : Run T S σ d).Inv settings writer chunks database where
  reading := fun _ => ⟨[], Reader.start_after, rfl⟩
  ended := fun h => by cases h
  sent := ⟨Nat.zero_le _, rfl, prefix_rfl, fun _ => rfl, 0, rfl, fun _ => rfl⟩
  done := fun h => by cases h

variable {s : Run T S σ d}

/-- Batches that are pushed later do not change those the sink has taken. -/
lemma Sent.grow (hs : s.Sent writer database) {reader : Reader T d}
    (hpush : s.reader.rows.pushed <+: reader.rows.pushed) (unread ended) :
    Sent writer database { s with reader := reader, unread := unread, ended := ended } := by
  have hbat : ({ s with reader := reader, unread := unread, ended := ended } : Run T S σ d).batches =
      s.batches := by
    obtain ⟨later, hlater⟩ := hpush
    show reader.rows.pushed.take s.taken = s.reader.rows.pushed.take s.taken
    rw [← hlater, take_append_of_le_length hs.taken]
  refine ⟨hs.taken.trans hpush.length_le, ?_, ?_, ?_, hs.replay⟩
  · rw [hbat]
    exact hs.accepted
  · rw [hbat]
    exact hs.executed
  · rw [hbat]
    exact hs.complete

/-- With its run the write in progress goes on or ends. -/
lemma Sent.reject (hs : s.Sent writer database) {writing}
    (hwr : writing = s.writing ∨ writing = none) :
    Sent writer database { s.reject with writing := writing } := by
  obtain ⟨count, hcnt, -⟩ := hs.replay
  refine ⟨hs.taken, hs.accepted, ?_, fun h => absurd rfl h, count, hcnt, fun h => absurd rfl h⟩
  rcases hwr with rfl | rfl
  · exact hs.executed
  · refine List.IsPrefix.trans ?_ hs.executed
    exact (prefix_append_right_inj s.executed).mpr nil_prefix

lemma not_resolved (h : s.status = .running) : s.status ≠ .resolved := by simp [h]

lemma Inv.advance {t} (hs : s.Inv settings writer chunks database) (hstat : s.status = .running)
    (hended : s.ended = false) (h : s.advance settings = .ok t) :
    t.Inv settings writer chunks database := by
  obtain ⟨texts, haft, htexts⟩ := hs.reading hended
  unfold Run.advance at h
  cases hunr : s.unread with
  | cons bytes rest =>
    simp only [hunr] at h
    obtain ⟨reader, hrdr, ht⟩ := bind_eq_ok h
    obtain ⟨hnext, hheld, hpush⟩ := haft.chunk_after hrdr
    rw [← Except.ok.inj ht]
    refine ⟨fun _ => ⟨_, hnext, ?_⟩, fun h => ?_, hs.sent.grow hpush rest s.ended,
      fun h => absurd h (not_resolved hstat)⟩
    · rw [htexts, hunr, StringDecoder.textsFrom, ← hheld, append_assoc]
      rfl
    · exact absurd (hended.symm.trans h) Bool.false_ne_true
  | nil =>
    simp only [hunr] at h
    obtain ⟨reader, hrdr, ht⟩ := bind_eq_ok h
    obtain ⟨records, rows, hpar, hrows, hflush, hpush⟩ := haft.finish_after hrdr
    rw [← Except.ok.inj ht]
    refine ⟨fun h => (by cases h), fun _ => ⟨records, rows, ?_, hrows, hflush⟩,
      hs.sent.grow hpush [] true, fun h => absurd h (not_resolved hstat)⟩
    rw [CsvDialect.parse, htexts, hunr]
    exact hpar

lemma Sent.take {batch} (hs : s.Sent writer database) (hwr : s.writing = none)
    (hstat : s.status = .running) (hbatch : s.reader.rows.pushed[s.taken]? = some batch) :
    Sent writer database
      { s with
        taken := s.taken + 1
        accepted := s.accepted + batch.length
        writing := some (0, writer.statements batch) } := by
  have hbat : s.reader.rows.pushed.take (s.taken + 1) = s.batches ++ [batch] := by
    rw [take_add_one, hbatch]
    rfl
  have hlt : s.taken < s.reader.rows.pushed.length := (List.getElem?_eq_some_iff.mp hbatch).1
  have hexe : s.executed = s.batches.flatMap writer.statements := by
    have hcomp := hs.complete (by simp [hstat])
    simpa [left, hwr] using hcomp
  have hsent : s.executed ++ writer.statements batch =
      (s.batches ++ [batch]).flatMap writer.statements := by
    rw [flatMap_append, ← hexe]
    simp
  refine ⟨hlt, ?_, ?_, ?_, ?_⟩
  · show s.accepted + batch.length = _
    rw [batches, hbat, hs.accepted]
    simp
  · rw [batches, hbat, ← hsent]
    exact prefix_rfl
  · intro _
    rw [batches, hbat, ← hsent]
    rfl
  · obtain ⟨count, hcnt, hwrit⟩ := hs.replay
    refine ⟨count, hcnt, fun h => ?_⟩
    have hcnt' := hwrit (by simp [hstat])
    simpa [writtenNow, hwr] using hcnt'

lemma Sent.execute {statement rest rows} (hs : s.Sent writer database) {count after}
    (hwr : s.writing = some (count, statement :: rest))
    (hrun : writer.run s.database statement = some (rows, after)) :
    Sent writer database
      { s with
        database := after
        executed := s.executed ++ [statement]
        writing := some (count + rows, rest) } := by
  have hmoved : s.executed ++ s.left = s.executed ++ [statement] ++ rest := by simp [left, hwr]
  refine ⟨hs.taken, hs.accepted, ?_, ?_, ?_⟩
  · have hexe := hs.executed
    rw [hmoved] at hexe
    exact hexe
  · intro h
    have hcomp := hs.complete h
    rw [hmoved] at hcomp
    exact hcomp
  · obtain ⟨total, htotal, hwrit⟩ := hs.replay
    refine ⟨total + rows, ?_, fun h => ?_⟩
    · rw [Writer.replay] at htotal ⊢
      rw [foldlM_append, htotal]
      simp [hrun]
    · have hcnt := hwrit h
      simp only [writtenNow, hwr, Option.map_some, Option.getD_some] at hcnt ⊢
      omega

lemma Sent.settle (hs : s.Sent writer database) {count} (hwr : s.writing = some (count, [])) :
    Sent writer database { s with written := s.written + count, writing := none } := by
  obtain ⟨total, htotal, hwrit⟩ := hs.replay
  have hleft : s.left = [] := by simp [left, hwr]
  have hexe := hs.executed
  have hcomp := hs.complete
  rw [hleft] at hexe hcomp
  refine ⟨hs.taken, hs.accepted, hexe, hcomp, total, htotal, fun hrun => ?_⟩
  have hcnt := hwrit hrun
  simpa [writtenNow, hwr] using hcnt

lemma step_inv {a t} (hs : s.Inv settings writer chunks database)
    (h : s.step settings writer a = some t) : t.Inv settings writer chunks database := by
  cases a <;> simp only [step] at h
  case read =>
    split_ifs at h with hrunn
    cases hadv : s.advance settings with
    | error e =>
      rw [hadv] at h
      exact Option.some.inj h ▸ ⟨hs.reading, hs.ended, hs.sent.reject (.inl rfl), fun h => (by cases h)⟩
    | ok u =>
      rw [hadv] at h
      exact Option.some.inj h ▸ hs.advance hrunn.1 hrunn.2 hadv
  case take =>
    split at h
    · rename_i batch hwr hbatch
      split_ifs at h with hstat
      exact Option.some.inj h ▸ ⟨hs.reading, hs.ended, hs.sent.take hwr hstat hbatch,
        fun h => absurd h (not_resolved hstat)⟩
    · cases h
  case execute =>
    split at h
    · rename_i count statement rest hwr
      cases hrun : writer.run s.database statement with
      | none =>
        rw [hrun] at h
        exact Option.some.inj h ▸ ⟨hs.reading, hs.ended, hs.sent.reject (.inr rfl), fun h => (by cases h)⟩
      | some after =>
        rw [hrun] at h
        exact Option.some.inj h ▸ ⟨hs.reading, hs.ended, hs.sent.execute hwr hrun,
          fun h => absurd (hs.done h).writing (by simp [hwr])⟩
    · cases h
  case refuse =>
    split at h
    · exact Option.some.inj h ▸ ⟨hs.reading, hs.ended, hs.sent.reject (.inr rfl), fun h => (by cases h)⟩
    · cases h
  case settle =>
    split at h
    · rename_i count hwr
      split_ifs at h with hstat
      exact Option.some.inj h ▸ ⟨hs.reading, hs.ended, hs.sent.settle hwr,
        fun h => absurd h (not_resolved hstat)⟩
    · cases h
  case abort =>
    split_ifs at h
    exact Option.some.inj h ▸ ⟨hs.reading, hs.ended, hs.sent.reject (.inl rfl), fun h => (by cases h)⟩
  case resolve =>
    split_ifs at h with hdone
    have hstat : s.status ≠ .rejected := by simp [hdone.1]
    obtain ⟨total, htotal, hwrit⟩ := hs.sent.replay
    rw [← Option.some.inj h]
    exact ⟨hs.reading, hs.ended,
      ⟨hs.sent.taken, hs.sent.accepted, hs.sent.executed, fun _ => hs.sent.complete hstat, total,
        htotal, fun _ => hwrit hstat⟩, fun _ => ⟨hdone.2.1, hdone.2.2.1, hdone.2.2.2⟩⟩

lemma exec_inv {actions}
    (h : Machine.exec (step settings writer) (start settings chunks database) actions = some s) :
    s.Inv settings writer chunks database :=
  Machine.exec_invariant (Inv settings writer chunks database) (fun _ _ _ hs hstep => step_inv hs hstep)
    start_inv h

lemma Inv.pushed_prefix {records rows} (hs : s.Inv settings writer chunks database)
    (hpar : settings.dialect.parse d chunks = .ok records)
    (hrows : records.foldlM (Rows.transform settings) (Rows.start settings) = .ok rows) :
    s.reader.rows.pushed <+: rows.flush.pushed := by
  cases hended : s.ended with
  | true =>
    obtain ⟨records', rows', hpar', hrows', hflush⟩ := hs.ended hended
    have hrecs : records' = records := Except.ok.inj (hpar'.symm.trans hpar)
    rw [hrecs, hrows] at hrows'
    rw [hflush, Except.ok.inj hrows']
  | false =>
    obtain ⟨texts, haft, htexts⟩ := hs.reading hended
    rw [CsvDialect.parse, htexts] at hpar
    obtain ⟨later, hlater⟩ := haft.pushed_prefix hpar
    rw [← hlater, foldlM_append, haft.rows, ok_bind] at hrows
    exact (Rows.transformAll_pushed hrows).trans rows.flush_pushed

/-- The statements of every run on a document are first statements of the whole document. -/
theorem Inv.executed_prefix {records rows} (hs : s.Inv settings writer chunks database)
    (hpar : settings.dialect.parse d chunks = .ok records)
    (hrows : records.foldlM (Rows.transform settings) (Rows.start settings) = .ok rows) :
    s.executed <+: rows.flush.pushed.flatMap writer.statements := by
  obtain ⟨later, hlater⟩ := hs.pushed_prefix hpar hrows
  obtain ⟨untaken, hunt⟩ := take_prefix s.taken s.reader.rows.pushed
  have hbat : s.batches.flatMap writer.statements <+:
      rows.flush.pushed.flatMap writer.statements := by
    rw [← hlater, ← hunt, append_assoc, flatMap_append]
    exact prefix_append _ _
  exact ((prefix_append s.executed s.left).trans hs.sent.executed).trans hbat

/-- A resolved run: the records of the document, the rows that went through the stages and the
batches they were sent in. -/
theorem resolved_document {actions}
    (h : Machine.exec (step settings writer) (start settings chunks database) actions = some s)
    (hres : s.status = .resolved) :
    ∃ records rows, settings.dialect.parse d chunks = .ok records ∧
      records.foldlM (Rows.transform settings) (Rows.start settings) = .ok rows ∧
      s.reader.rows = rows.flush ∧ s.batches = s.reader.rows.pushed ∧
      s.executed = s.reader.rows.pushed.flatMap writer.statements ∧
      writer.replay database s.executed = some (s.written, s.database) := by
  have hinv := exec_inv h
  have hdone := hinv.done hres
  have hstat : s.status ≠ .rejected := by simp [hres]
  obtain ⟨records, rows, hpar, hrows, hflush⟩ := hinv.ended hdone.ended
  have hbat : s.batches = s.reader.rows.pushed := by rw [batches, hdone.taken, take_length]
  have hexe := hinv.sent.complete hstat
  obtain ⟨count, hrep, hcnt⟩ := hinv.sent.replay
  have hwr := hcnt hstat
  rw [left, hdone.writing, hbat] at hexe
  rw [writtenNow, hdone.writing] at hwr
  refine ⟨records, rows, hpar, hrows, hflush, hbat, by simpa using hexe, ?_⟩
  rw [hrep, ← hwr]
  rfl

end Run

end BoilerplateExpress.Ingest

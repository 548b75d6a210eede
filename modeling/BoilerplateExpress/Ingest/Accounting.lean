import BoilerplateExpress.Users.UserImport

/-!
# The counts of an ingest

`rejected` counts what `RowErrorSink` was given, which is one error for each issue of a row
and not one for each row. The counts of a resolved ingest therefore add up just if no row
has more than one issue. A second condition is on the schema alone: a row whose data is
`null` or `undefined` validates and is passed on to nobody.
-/
namespace BoilerplateExpress.Ingest

open Streams
open List

variable {T : Type}

def Verdict.isRefused : Verdict T → Bool
  | .refused _ => true
  | .accepted _ => false

lemma RowErrorSink.foldl_record (errors : List RowError) (sink) :
    (errors.foldl RowErrorSink.record sink).count = sink.count + errors.length ∧
      (errors.foldl RowErrorSink.record sink).maxReported = sink.maxReported := by
  induction errors generalizing sink with
  | nil => exact ⟨rfl, rfl⟩
  | cons error errors ih =>
    obtain ⟨hcnt, hmax⟩ := ih (sink.record error)
    rw [foldl_cons, hcnt, hmax]
    refine ⟨?_, rfl⟩
    show sink.count + 1 + errors.length = sink.count + (errors.length + 1)
    omega

lemma RowErrorSink.collected_foldl (errors : List RowError) (maxReported) :
    (errors.foldl RowErrorSink.record ⟨maxReported, [], 0⟩).collected = errors.take maxReported := by
  induction errors using reverseRecOn with
  | nil => simp
  | append_singleton errors error ih =>
    have hmax := (RowErrorSink.foldl_record errors ⟨maxReported, [], 0⟩).2
    rw [foldl_append, foldl_cons, foldl_nil, RowErrorSink.record]
    simp only [ih, hmax]
    by_cases hfull : errors.length < maxReported
    · rw [take_of_length_le (by omega), if_pos hfull, take_of_length_le (by simp; omega)]
    · rw [if_neg (by rw [length_take]; omega), take_append_of_le_length (by omega)]

/-- The refused records report at least one error each. -/
lemma verdict_errors_ne_nil {binding width record errors} {settings : Settings T}
    (h : verdict settings binding width record = .refused errors) : errors ≠ [] := by
  unfold verdict at h
  split_ifs at h
  · simp [← Verdict.refused.inj h]
  · cases hsch : settings.schema (rawFields binding record) with
    | ok data =>
      rw [hsch] at h
      cases h
    | error issues =>
      rw [hsch] at h
      rw [← Verdict.refused.inj h]
      simpa using issues.property

lemma verdicts_errors_ne_nil {records} {settings : Settings T} :
    ∀ errors, .refused errors ∈ verdicts settings records → errors ≠ [] := by
  intro errors hmem
  cases records with
  | nil => cases hmem
  | cons header data =>
    cases hbin : bindHeader settings.toLowerCase header settings.columns with
    | error e => simp [verdicts, hbin] at hmem
    | ok binding =>
      simp only [verdicts, hbin, mem_map] at hmem
      obtain ⟨record, -, hverd⟩ := hmem
      exact verdict_errors_ne_nil hverd

/-- Refused records are at most as many as the errors they report, and exactly as many if
each reports one. -/
lemma refused_le_errors {vs : List (Verdict T)} (hne : ∀ errors, .refused errors ∈ vs → errors ≠ []) :
    (vs.filter Verdict.isRefused).length ≤ (vs.flatMap Verdict.errors).length ∧
      ((vs.flatMap Verdict.errors).length = (vs.filter Verdict.isRefused).length ↔
        ∀ errors, .refused errors ∈ vs → errors.length = 1) := by
  induction vs with
  | nil => simp
  | cons v vs ih =>
    obtain ⟨hle, hiff⟩ := ih (fun errors h => hne errors (mem_cons_of_mem v h))
    cases v with
    | accepted data =>
      simp only [mem_cons, reduceCtorEq, false_or]
      exact ⟨hle, hiff⟩
    | refused errors =>
      have hpos : 0 < errors.length := length_pos_of_ne_nil (hne errors mem_cons_self)
      simp only [filter_cons, Verdict.isRefused, if_true, length_cons,
        flatMap_cons, Verdict.errors, length_append, mem_cons, Verdict.refused.injEq]
      refine ⟨by omega, ?_⟩
      constructor
      · intro heq
        have hrest := hiff.mp (by omega)
        rintro errors' (rfl | hmem)
        · omega
        · exact hrest errors' hmem
      · intro hone
        have hfst := hone errors (.inl rfl)
        have hrest := hiff.mpr (fun errors' hmem => hone errors' (.inr hmem))
        omega

/-- A record is refused, passed on or validated without data. -/
lemma passed_add_refused (vs : List (Verdict T)) :
    (vs.filterMap Verdict.row).length + (vs.filter Verdict.isRefused).length ≤ vs.length ∧
      (vs.length = (vs.filterMap Verdict.row).length + (vs.filter Verdict.isRefused).length ↔
        .accepted none ∉ vs) := by
  induction vs with
  | nil => simp
  | cons v vs ih =>
    obtain ⟨hle, hiff⟩ := ih
    cases v with
    | refused errors =>
      simp only [filterMap_cons, Verdict.row, filter_cons, Verdict.isRefused, if_true,
        length_cons, mem_cons, reduceCtorEq, false_or]
      exact ⟨by omega, by rw [← hiff]; omega⟩
    | accepted data =>
      cases data with
      | none =>
        simp only [filterMap_cons, Verdict.row, filter_cons, Verdict.isRefused]
        exact ⟨by simp; omega, by simp; omega⟩
      | some row =>
        simp only [filterMap_cons, Verdict.row, filter_cons, Verdict.isRefused,
          mem_cons, Verdict.accepted.injEq, reduceCtorEq, false_or]
        exact ⟨by simp; omega, by rw [← hiff]; simp; omega⟩

/-- The counts of a summary against the verdicts on the data records. -/
structure AddsUp (vs : List (Verdict T)) (summary : IngestSummary) : Prop where
  total : summary.recordsRead = summary.accepted + summary.rejected
  rejected : summary.rejected = (vs.filter Verdict.isRefused).length
  truncated : summary.errorsTruncated = true ↔ ¬ (vs.flatMap Verdict.errors).Subperm summary.errors

variable {S σ : Type} {d : StringDecoder} {settings : Settings T} {writer : Writer T S σ}
  {chunks : List Bytes} {database : σ}

/-- The numbers of a summary, in terms of the verdicts. -/
structure IngestSummary.Counts (vs : List (Verdict T)) (maxReported : ℕ)
    (summary : IngestSummary) : Prop where
  recordsRead : summary.recordsRead = vs.length
  accepted : summary.accepted = (vs.filterMap Verdict.row).length
  rejected : summary.rejected = (vs.flatMap Verdict.errors).length
  errors : summary.errors = (vs.flatMap Verdict.errors).take maxReported
  errorsTruncated : summary.errorsTruncated = true ↔ summary.errors.length < summary.rejected

lemma Run.resolved_counts {actions} {s : Run T S σ d}
    (h : Machine.exec (Run.step settings writer) (Run.start settings chunks database) actions = some s)
    (hresolved : s.status = .resolved) :
    ∃ records, settings.dialect.parse d chunks = .ok records ∧
      s.summary.Counts (verdicts settings records) settings.maxReported := by
  obtain ⟨records, rows, hparse, hrows, hflush, hbatches, -, -⟩ := Run.resolved_document h hresolved
  obtain ⟨hread, hsink, hall⟩ := Rows.transform_document hrows
  obtain ⟨hflushSink, hflushRead⟩ := rows.flush_counts
  have haccepted := (Run.exec_inv h).sent.accepted
  have hcount := RowErrorSink.foldl_record ((verdicts settings records).flatMap Verdict.errors)
    ⟨settings.maxReported, [], 0⟩
  refine ⟨records, hparse, ?_, ?_, ?_, ?_, ?_⟩
  · show s.reader.rows.recordsRead = _
    rw [hflush, hflushRead, ← hread]
    exact Nat.zero_add _
  · show s.accepted = _
    rw [haccepted, hbatches, hflush, ← length_flatten, rows.flush_all, hall]
    rfl
  · show s.reader.rows.sink.count = _
    rw [hflush, hflushSink, hsink, hcount.1]
    exact Nat.zero_add _
  · show s.reader.rows.sink.collected = _
    rw [hflush, hflushSink, hsink, RowErrorSink.collected_foldl]
  · simp [Run.summary, RowErrorSink.truncated, RowErrorSink.errors, RowErrorSink.rejected]

/-- The errors reported are the first ones, so none is missing just if there are no more. -/
lemma IngestSummary.Counts.truncated_iff {maxReported} {vs : List (Verdict T)}
    {summary : IngestSummary} (h : summary.Counts vs maxReported) :
    summary.errorsTruncated ↔ ¬ (vs.flatMap Verdict.errors).Subperm summary.errors := by
  rw [h.errorsTruncated, h.errors, h.rejected, length_take]
  constructor
  · intro hlt hsub
    have hle := hsub.length_le
    rw [length_take] at hle
    omega
  · intro hmis
    by_contra hlt
    rw [take_of_length_le (by omega)] at hmis
    exact hmis (List.Subperm.refl _)

/-- The counts of a resolved ingest add up just if every refused record reported one error and
every other record was passed on. -/
theorem ingest_adds_up_iff {s : Run T S σ d} {actions : List Action}
    (h : Machine.exec (Run.step settings writer) (Run.start settings chunks database) actions = some s)
    (hresolved : s.status = .resolved) :
    ∃ records, settings.dialect.parse d chunks = .ok records ∧
      (AddsUp (verdicts settings records) s.summary ↔
        (∀ errors, .refused errors ∈ verdicts settings records → errors.length = 1) ∧
          .accepted none ∉ verdicts settings records) := by
  obtain ⟨records, hpar, hcnts⟩ := Run.resolved_counts h hresolved
  obtain ⟨-, href⟩ := refused_le_errors (verdicts_errors_ne_nil)
  obtain ⟨-, hpas⟩ := passed_add_refused (verdicts settings records)
  refine ⟨records, hpar, ?_⟩
  constructor
  · intro hadds
    have hrej := hcnts.rejected.symm.trans hadds.rejected
    refine ⟨href.mp hrej, hpas.mp ?_⟩
    have htotal := hadds.total
    rw [hcnts.recordsRead, hcnts.accepted, hadds.rejected] at htotal
    exact htotal
  · rintro ⟨hone, hdata⟩
    have hrej := hcnts.rejected.trans (href.mpr hone)
    refine ⟨?_, hrej, hcnts.truncated_iff⟩
    rw [hcnts.recordsRead, hcnts.accepted, hrej]
    exact hpas.mpr hdata

/-- The user import, with an address test that looks for an at sign. -/
def importOfAts : Settings UserImport.UserImportRow :=
  UserImport.importUsers (fun value => value.contains 64) (fun value => value) 1024 100

/-- A run of that import on a document in one chunk, on an empty table. -/
def importText (text : JsString) (actions : List Action) :
    Option (Run UserImport.UserImportRow (List UserImport.UserInsert) UserImport.UsersTable
      (bufferingDecoder decodeUtf8)) :=
  Machine.exec (Run.step importOfAts UserImport.userImportWriter)
    (Run.start importOfAts [text.utf8] OrderedMap.empty) actions

def isRefusedOnce : Verdict T → Bool
  | .refused errors => errors.length == 1
  | .accepted data => data.isSome

lemma refused_once {vs : List (Verdict T)} (h : vs.all isRefusedOnce) :
    (∀ errors, .refused errors ∈ vs → errors.length = 1) ∧ .accepted none ∉ vs := by
  rw [all_eq_true] at h
  refine ⟨fun errors hmem => ?_, fun hmem => ?_⟩
  · simpa [isRefusedOnce] using h _ hmem
  · simpa [isRefusedOnce] using h _ hmem

/-- A row that validates and a row that is too short. -/
theorem ingest_adds_up_ragged :
    ∃ s records, importText (EventStream.units "email,roles\na@b,\nc@d\n")
        [.read, .read, .take, .execute, .settle, .resolve] = some s ∧ s.status = .resolved ∧
      importOfAts.dialect.parse (bufferingDecoder decodeUtf8)
        [(EventStream.units "email,roles\na@b,\nc@d\n").utf8] = .ok records ∧
      s.summary.recordsRead = 2 ∧ AddsUp (verdicts importOfAts records) s.summary := by
  have hsome : ((importText (EventStream.units "email,roles\na@b,\nc@d\n")
      [.read, .read, .take, .execute, .settle, .resolve]).map
        (fun s => (s.status, s.summary.recordsRead))) = some (.resolved, 2) := by decide +kernel
  obtain ⟨s, hs, hstat⟩ := Option.map_eq_some_iff.mp hsome
  obtain ⟨records, hpar, hiff⟩ := ingest_adds_up_iff hs (congrArg Prod.fst hstat)
  refine ⟨s, records, hs, congrArg Prod.fst hstat, hpar, congrArg Prod.snd hstat, hiff.mpr ?_⟩
  have hrecs : ((importOfAts.dialect.parse (bufferingDecoder decodeUtf8)
      [(EventStream.units "email,roles\na@b,\nc@d\n").utf8]).map
        (fun records => (verdicts importOfAts records).all isRefusedOnce)) = .ok true := by
    decide +kernel
  rw [hpar] at hrecs
  exact refused_once (Except.ok.inj hrecs)

/-- A blank email is reported twice, as missing and as no address. -/
theorem ingest_counts_issues :
    ∃ s records, importText (EventStream.units "email,roles\n,admin\n") [.read, .read, .resolve] =
        some s ∧ s.status = .resolved ∧
      importOfAts.dialect.parse (bufferingDecoder decodeUtf8)
        [(EventStream.units "email,roles\n,admin\n").utf8] = .ok records ∧
      s.summary.recordsRead = 1 ∧ s.summary.accepted = 0 ∧ s.summary.rejected = 2 ∧
      ((verdicts importOfAts records).filter Verdict.isRefused).length = 1 ∧
      ¬ AddsUp (verdicts importOfAts records) s.summary := by
  have hsome : ((importText (EventStream.units "email,roles\n,admin\n") [.read, .read, .resolve]).map
      (fun s => (s.status, s.summary.recordsRead, s.summary.accepted, s.summary.rejected))) =
        some (.resolved, 1, 0, 2) := by decide +kernel
  have hrecs : ((importOfAts.dialect.parse (bufferingDecoder decodeUtf8)
      [(EventStream.units "email,roles\n,admin\n").utf8]).map
        (fun records => ((verdicts importOfAts records).filter Verdict.isRefused).length)) = .ok 1 := by
    decide +kernel
  obtain ⟨s, hs, hsum⟩ := Option.map_eq_some_iff.mp hsome
  obtain ⟨hstat, hread, hacc, hrej⟩ := by simpa using hsum
  cases hpar : importOfAts.dialect.parse (bufferingDecoder decodeUtf8)
      [(EventStream.units "email,roles\n,admin\n").utf8] with
  | error e =>
    rw [hpar] at hrecs
    cases hrecs
  | ok records =>
    rw [hpar] at hrecs
    have href := Except.ok.inj hrecs
    refine ⟨s, records, hs, hstat, rfl, hread, hacc, hrej, href, fun hadds => ?_⟩
    have htotal := hadds.total
    omega

end BoilerplateExpress.Ingest

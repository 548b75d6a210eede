import BoilerplateExpress.Users.UserImport
import Mathlib.Logic.Relation

/-!
# A failed user import is repeated

A statement inserts the emails the table does not have, so what any number of
statements leave for an email is what was there before or the roles of the first row with
that email. The statements of an attempt are a first part of those of the whole document, so
whatever earlier attempts did is what a complete run does anyway.
-/
namespace BoilerplateExpress.UserImport

open Streams Ingest
open List

section Insert

/-- The email of a row and the roles that it gives. -/
def UserInsert.grant (row : UserInsert) : JsString × List JsString :=
  (row.email, row.roles.getD defaultRoles)

def UserImportRow.grant (row : UserImportRow) : JsString × List JsString :=
  (row.email, row.roles.getD defaultRoles)

lemma lookup_grant (grant : JsString × List JsString) (rest : List (JsString × List JsString))
    (email : JsString) : (grant :: rest).lookup email =
      if grant.1 = email then some grant.2 else rest.lookup email := by
  rw [lookup_cons]
  by_cases hemail : grant.1 = email
  · rw [if_pos hemail, hemail, beq_self_eq_true]
  · rw [if_neg hemail, beq_false_of_ne (Ne.symm hemail)]

/-- The roles a document gives to an email: those of its first accepted row. -/
def firstRoles (rows : List UserImportRow) (email : JsString) : Option (List JsString) :=
  (rows.map UserImportRow.grant).lookup email

/-- A table after rows with these grants were inserted, `count` of which were new. -/
structure Inserted (table : UsersTable) (grants : List (JsString × List JsString)) (count : ℕ)
    (after : UsersTable) : Prop where
  entries : ∃ created, after.entries = table.entries ++ created ∧ created.length = count
  get : ∀ email, after.get email = (table.get email).or (grants.lookup email)

lemma Inserted.refl (table : UsersTable) : Inserted table [] 0 table where
  entries := ⟨[], by simp⟩
  get email := by simp

variable {table after : UsersTable} {n : ℕ}

lemma Inserted.trans {middle} {xs ys} {m}
    (hxs : Inserted table xs m middle) (hys : Inserted middle ys n after) :
    Inserted table (xs ++ ys) (m + n) after where
  entries := by
    obtain ⟨first, hfst, hm⟩ := hxs.entries
    obtain ⟨second, hsnd, hn⟩ := hys.entries
    refine ⟨first ++ second, ?_, ?_⟩
    · rw [hsnd, hfst, append_assoc]
    · rw [length_append]
      omega
  get email := by rw [hys.get, hxs.get, lookup_append, Option.or_assoc]

lemma insertRow_inserted (count : ℕ) (table : UsersTable) (row : UserInsert) :
    ∃ n after, insertRow (count, table) row = (count + n, after) ∧
      Inserted table [row.grant] n after := by
  cases hget : table.get row.email with
  | some roles =>
    refine ⟨0, table, by simp [insertRow, OrderedMap.has, hget], ⟨[], by simp⟩, fun email => ?_⟩
    rw [lookup_grant, lookup_nil, UserInsert.grant]
    split_ifs with hemail
    · rw [← hemail, hget]
      rfl
    · simp
  | none =>
    refine ⟨1, table.set row.email (row.roles.getD defaultRoles),
      by simp [insertRow, OrderedMap.has, hget],
      ⟨_, OrderedMap.entries_set_of_none hget _, rfl⟩, fun email => ?_⟩
    rw [lookup_grant, lookup_nil, UserInsert.grant]
    split_ifs with hemail
    · subst hemail
      simp [hget]
    · simp [Ne.symm hemail]

lemma insertRows_inserted (rows : List UserInsert) (count : ℕ) (table : UsersTable) :
    ∃ n after, rows.foldl insertRow (count, table) = (count + n, after) ∧
      Inserted table (rows.map UserInsert.grant) n after := by
  induction rows generalizing count table with
  | nil => exact ⟨0, table, rfl, Inserted.refl table⟩
  | cons row rows ih =>
    obtain ⟨m, middle, hrow, hfst⟩ := insertRow_inserted count table row
    obtain ⟨n, after, hrows, hrest⟩ := ih (count + m) middle
    refine ⟨m + n, after, ?_, hfst.trans hrest⟩
    rw [foldl_cons, hrow, hrows, Nat.add_assoc]

lemma createMany_inserted {rows} (h : createMany table rows = some (n, after)) :
    Inserted table (rows.map UserInsert.grant) n after := by
  cases rows with
  | nil =>
    obtain ⟨rfl, rfl⟩ := by simpa using h
    exact Inserted.refl table
  | cons first rest =>
    simp only [createMany] at h
    split_ifs at h
    obtain ⟨m, after', hrows, hins⟩ := insertRows_inserted (first :: rest) 0 table
    rw [hrows, Nat.zero_add] at h
    obtain ⟨rfl, rfl⟩ := by simpa using h
    exact hins

lemma replay_inserted {statements}
    (h : userImportWriter.replay table statements = some (n, after)) :
    Inserted table (statements.flatten.map UserInsert.grant) n after := by
  induction statements using reverseRecOn generalizing n after with
  | nil =>
    obtain ⟨rfl, rfl⟩ := by simpa using h
    exact Inserted.refl table
  | append_singleton statements statement ih =>
    rw [Writer.replay, foldlM_append] at h
    obtain ⟨middle, hmid, hlast⟩ := Option.bind_eq_some_iff.mp h
    simp only [foldlM_cons, foldlM_nil, bind_pure] at hlast
    obtain ⟨last, hrun, hsum⟩ := Option.map_eq_some_iff.mp hlast
    obtain ⟨rfl, rfl⟩ := Prod.mk.inj hsum
    rw [flatten_append, flatten_singleton, map_append]
    exact (ih hmid).trans (createMany_inserted hrun)

end Insert

section Batch

lemma uniqueRows_emails (batch seen) :
    ((uniqueRows seen batch).map UserInsert.email).Nodup ∧
      ∀ row ∈ uniqueRows seen batch, row.email ∉ seen := by
  induction batch generalizing seen with
  | nil => simp [uniqueRows]
  | cons row batch ih =>
    unfold uniqueRows
    split_ifs with hseen
    · exact ih seen
    · obtain ⟨hnd, hfresh⟩ := ih (row.email :: seen)
      refine ⟨?_, ?_⟩
      · rw [map_cons, nodup_cons]
        refine ⟨fun hmem => ?_, hnd⟩
        obtain ⟨later, hlater, hemail⟩ := mem_map.mp hmem
        exact hfresh later hlater (hemail ▸ mem_cons_self)
      · intro later hlater
        rcases mem_cons.mp hlater with rfl | hlater
        · exact hseen
        · exact fun hmem => hfresh later hlater (mem_cons_of_mem row.email hmem)

lemma lookup_uniqueRows (batch : List UserImportRow) {seen} {email}
    (hemail : email ∉ seen) :
    ((uniqueRows seen batch).map UserInsert.grant).lookup email = firstRoles batch email := by
  induction batch generalizing seen with
  | nil => rfl
  | cons row batch ih =>
    rw [firstRoles, map_cons, lookup_grant, ← firstRoles, UserImportRow.grant]
    unfold uniqueRows
    by_cases hrow : row.email = email
    · rw [if_neg (hrow ▸ hemail), map_cons, lookup_grant, if_pos hrow]
      exact if_pos hrow
    · rw [if_neg hrow]
      split_ifs with hseen
      · exact ih hemail
      · rw [map_cons, lookup_grant, UserInsert.grant, if_neg hrow]
        exact ih (by simp [hemail, Ne.symm hrow])

lemma addToGroup_perm (groups row) :
    ((addToGroup groups row).entries.map Prod.snd).flatten.Perm
      ((groups.entries.map Prod.snd).flatten ++ [row]) := by
  unfold addToGroup
  cases hget : groups.get row.shape with
  | none => simp [OrderedMap.entries_set_of_none hget]
  | some group =>
    obtain ⟨before, after, hsplit, hset⟩ := OrderedMap.entries_set_of_some hget (group ++ [row])
    simp only [hset, hsplit, map_append, map_cons, flatten_append, flatten_cons, append_assoc]
    refine List.Perm.append_left _ (List.Perm.append_left _ ?_)
    exact perm_append_comm

lemma groupByShape_perm (rows) : ((groupByShape rows).entries.map Prod.snd).flatten.Perm rows := by
  induction rows using reverseRecOn with
  | nil => simp [groupByShape, OrderedMap.empty]
  | append_singleton rows row ih =>
    rw [groupByShape, foldl_append]
    exact (addToGroup_perm (groupByShape rows) row).trans (ih.append_right [row])

/-- Of grants for different emails, the order does not matter. -/
lemma lookup_perm {xs ys : List (JsString × List JsString)} (hperm : xs.Perm ys)
    (hnd : (xs.map Prod.fst).Nodup) (email : JsString) : xs.lookup email = ys.lookup email := by
  induction hperm with
  | nil => rfl
  | cons row _ ih =>
    rw [map_cons, nodup_cons] at hnd
    rw [lookup_grant, lookup_grant, ih hnd.2]
  | swap x y rest =>
    simp only [map_cons, nodup_cons, mem_cons, not_or] at hnd
    have hne := hnd.1.1
    simp only [lookup_grant]
    split_ifs with hy hx
    · exact absurd (hy.trans hx.symm) hne
    · rfl
    · rfl
    · rfl
  | trans hxy _ ihxy ihyz =>
    exact (ihxy hnd).trans (ihyz ((hxy.map Prod.fst).nodup_iff.mp hnd))

lemma lookup_batch (batch : List UserImportRow) (email : JsString) :
    ((writeUserImportBatch batch).flatten.map UserInsert.grant).lookup email =
      firstRoles batch email := by
  have hperm := groupByShape_perm (uniqueRows [] batch)
  have hnd : (((writeUserImportBatch batch).flatten.map UserInsert.grant).map Prod.fst).Nodup := by
    rw [map_map]
    exact (hperm.map UserInsert.email).nodup_iff.mpr (uniqueRows_emails batch []).1
  rw [writeUserImportBatch] at hnd ⊢
  rw [lookup_perm (hperm.map UserInsert.grant) hnd, lookup_uniqueRows batch (by simp)]

lemma lookup_batches (batches : List (List UserImportRow)) (email : JsString) :
    ((batches.flatMap writeUserImportBatch).flatten.map UserInsert.grant).lookup email =
      firstRoles batches.flatten email := by
  induction batches with
  | nil => rfl
  | cons batch batches ih =>
    rw [flatMap_cons, flatten_append, map_append, lookup_append, lookup_batch, ih, flatten_cons,
      firstRoles, firstRoles, firstRoles, map_append, lookup_append]

end Batch

section Attempts

variable {d : StringDecoder} {settings : Settings UserImportRow} {document : Bytes}

/-- An import of the document, in any chunks, that began with the table `before` and left
`after`, at whatever point it stopped. -/
def Attempt (settings : Settings UserImportRow) (d : StringDecoder) (document : Bytes)
    (before after : UsersTable) : Prop :=
  ∃ (chunks : List Bytes) (actions : List Action)
      (s : Run UserImportRow (List UserInsert) UsersTable d),
    chunks.flatten = document ∧
      Machine.exec (Run.step settings userImportWriter) (Run.start settings chunks before) actions =
        some s ∧
      s.database = after

variable {decode : Bytes → JsString} {chunks : List Bytes} {before : UsersTable}

/-- Attempts change nothing that a complete run would leave otherwise. -/
lemma attempts_get_or {records rows prior} (hd : d.Reassembles decode)
    (hchun : chunks.flatten = document)
    (hpar : settings.dialect.parse d chunks = .ok records)
    (hrows : records.foldlM (Rows.transform settings) (Rows.start settings) = .ok rows)
    (h : Relation.ReflTransGen (Attempt settings d document) prior before) (email) :
    (before.get email).or (firstRoles (acceptedRows settings records) email) =
      (prior.get email).or (firstRoles (acceptedRows settings records) email) := by
  induction h with
  | refl => rfl
  | tail _ hlast ih =>
    obtain ⟨chunks', actions, s, hchun', hexec, rfl⟩ := hlast
    have hinv := Run.exec_inv hexec
    have hpar' : settings.dialect.parse d chunks' = .ok records := by
      rw [settings.dialect.parse_eq hd, hchun', ← hchun, ← settings.dialect.parse_eq hd, hpar]
    -- What the attempt has executed is a first part of what a complete run executes.
    obtain ⟨rest, hrest⟩ := hinv.executed_prefix hpar' hrows
    have hfst : firstRoles (acceptedRows settings records) email =
        ((s.executed.flatten.map UserInsert.grant).lookup email).or
          ((rest.flatten.map UserInsert.grant).lookup email) := by
      rw [← (Rows.transform_document hrows).2.2, ← rows.flush_all, ← lookup_batches,
        ← lookup_append, ← map_append, ← flatten_append, hrest]
      rfl
    obtain ⟨count, hrep, -⟩ := hinv.sent.replay
    rw [← ih, (replay_inserted hrep).get, hfst]
    cases (s.executed.flatten.map UserInsert.grant).lookup email <;> simp

/-- The users of a table that another one does not have. -/
def createdUsers (before after : UsersTable) : List (JsString × List JsString) :=
  after.entries.filter (fun user => !before.has user.1)

lemma Inserted.created_length {table rows} {after count} (h : Inserted table rows count after) :
    (createdUsers table after).length = count := by
  obtain ⟨created, hentries, hlength⟩ := h.entries
  have hnodup := after.nodup
  rw [hentries, map_append, nodup_append] at hnodup
  have hheld : ∀ user ∈ table.entries, table.has user.1 := by
    intro user huser
    rw [OrderedMap.has, (table.get_eq_some user.1 user.2).mpr huser]
    rfl
  have hnew : ∀ user ∈ created, table.has user.1 = false := by
    intro user huser
    cases hget : table.get user.1 with
    | none => simp [OrderedMap.has, hget]
    | some roles =>
      have hmem := mem_map_of_mem (f := Prod.fst) ((table.get_eq_some user.1 roles).mp hget)
      exact absurd rfl (hnodup.2.2 user.1 hmem user.1 (mem_map_of_mem huser))
  rw [createdUsers, hentries, filter_append, filter_eq_nil_iff.mpr (by simpa using hheld),
    filter_eq_self.mpr (by simpa using hnew), nil_append, hlength]

/-- What a complete run leaves, after any attempts. -/
lemma resolved_table {prior actions} (hd : d.Reassembles decode)
    (hatts : Relation.ReflTransGen (Attempt settings d document) prior before)
    (hchun : chunks.flatten = document) {s : Run UserImportRow (List UserInsert) UsersTable d}
    (h : Machine.exec (Run.step settings userImportWriter) (Run.start settings chunks before) actions =
      some s) (hres : s.status = .resolved) :
    ∃ records, settings.dialect.parse d chunks = .ok records ∧ (∀ email, s.database.get email =
        (prior.get email).or (firstRoles (acceptedRows settings records) email)) ∧
      s.summary.written = (createdUsers before s.database).length := by
  obtain ⟨records, rows, hpar, hrows, hflush, -, hexe, hrep⟩ :=
    Run.resolved_document h hres
  have hins := replay_inserted hrep
  refine ⟨records, hpar, fun email => ?_, hins.created_length.symm⟩
  rw [← attempts_get_or hd hchun hpar hrows hatts, hins.get, hexe, hflush]
  show (before.get email).or
    (((rows.flush.pushed.flatMap writeUserImportBatch).flatten.map UserInsert.grant).lookup email) = _
  rw [lookup_batches, rows.flush_all, (Rows.transform_document hrows).2.2]

/-- An import that resolves after any number of attempts, each stopped at any point, leaves
what one run would have left: every user there was, and for every other email the roles of its
first accepted row. It reports the number of users it created itself. -/
theorem user_import_converges {decode : Bytes → JsString} (hd : d.Reassembles decode)
    {prior before : UsersTable}
    (hattempts : Relation.ReflTransGen (Attempt settings d document) prior before)
    {chunks : List Bytes} (hchunks : chunks.flatten = document) {actions : List Action}
    {s : Run UserImportRow (List UserInsert) UsersTable d}
    (h : Machine.exec (Run.step settings userImportWriter) (Run.start settings chunks before) actions =
      some s)
    (hresolved : s.status = .resolved) :
    (∃ records, settings.dialect.parse d chunks = .ok records ∧
      ∀ email, s.database.get email =
        (prior.get email).or (firstRoles (acceptedRows settings records) email)) ∧
    s.summary.written = (createdUsers before s.database).length ∧
    ∀ (chunks' : List Bytes) (actions' : List Action)
        (t : Run UserImportRow (List UserInsert) UsersTable d),
      chunks'.flatten = document →
      Machine.exec (Run.step settings userImportWriter) (Run.start settings chunks' prior) actions' =
        some t →
      t.status = .resolved → ∀ email, s.database.get email = t.database.get email := by
  obtain ⟨records, hpar, hget, hwr⟩ := resolved_table hd hattempts hchunks h hresolved
  refine ⟨⟨records, hpar, hget⟩, hwr, ?_⟩
  intro chunks' actions' t hchun' ht htres email
  obtain ⟨records', hpar', hget', -⟩ :=
    resolved_table hd Relation.ReflTransGen.refl hchun' ht htres
  have hrecs : records' = records := by
    rw [settings.dialect.parse_eq hd, hchun', ← hchunks, ← settings.dialect.parse_eq hd, hpar]
      at hpar'
    exact (Except.ok.inj hpar').symm
  rw [hget, hget', hrecs]

/-- An import in batches of two rows, with an address test that looks for an at sign. -/
def importInTwos : Settings UserImportRow :=
  { importUsers (fun value => value.contains 64) (fun value => value) 1024 100 with
    batchSize := 2
    batchSize_pos := Nat.two_pos }

/-- Four rows, the third with the email of the first. -/
def twoBatches : Bytes := (EventStream.units "email,roles\na@b,\nc@d,admin\na@b,admin\ne@f,\n").utf8

def runInTwos (table : UsersTable) (actions : List Action) :
    Option (Run UserImportRow (List UserInsert) UsersTable (bufferingDecoder decodeUtf8)) :=
  Machine.exec (Run.step importInTwos userImportWriter) (Run.start importInTwos [twoBatches] table)
    actions

/-- The first attempt is stopped after one of the two statements of its first batch. -/
theorem user_import_converges_after_abort :
    ∃ first s, runInTwos OrderedMap.empty [.read, .read, .take, .execute, .abort] = some first ∧
      first.database.entries = [(EventStream.units "a@b", defaultRoles)] ∧
      runInTwos first.database [.read, .read, .take, .execute, .execute, .settle, .take, .execute,
        .execute, .settle, .resolve] = some s ∧
      s.summary.written = 2 ∧ (createdUsers first.database s.database).length = 2 ∧
      s.database.get (EventStream.units "a@b") = some defaultRoles := by
  have hfst : ((runInTwos OrderedMap.empty [.read, .read, .take, .execute, .abort]).map
      (fun first => first.database.entries)) = some [(EventStream.units "a@b", defaultRoles)] := by
    decide +kernel
  have hsnd : (((runInTwos OrderedMap.empty [.read, .read, .take, .execute, .abort]).bind
      (fun first => runInTwos first.database [.read, .read, .take, .execute, .execute, .settle,
        .take, .execute, .execute, .settle, .resolve])).map
      (fun s => (s.status, s.summary.written))) = some (.resolved, 2) := by decide +kernel
  have hroles : ((importInTwos.dialect.parse (bufferingDecoder decodeUtf8) [twoBatches]).map
      (fun records => firstRoles (acceptedRows importInTwos records) (EventStream.units "a@b"))) =
        .ok (some defaultRoles) := by decide +kernel
  obtain ⟨first, hrun, hents⟩ := Option.map_eq_some_iff.mp hfst
  rw [hrun, Option.bind_some] at hsnd
  obtain ⟨s, hs, hsum⟩ := Option.map_eq_some_iff.mp hsnd
  have hatt : Attempt importInTwos (bufferingDecoder decodeUtf8) twoBatches OrderedMap.empty
      first.database := ⟨[twoBatches], _, first, append_nil _, hrun, rfl⟩
  obtain ⟨⟨records, hpar, hget⟩, hwr, -⟩ := user_import_converges bufferingDecoder_reassembles
    (Relation.ReflTransGen.single hatt) (append_nil _) hs (congrArg Prod.fst hsum)
  rw [hpar] at hroles
  refine ⟨first, s, hrun, hents, hs, congrArg Prod.snd hsum, ?_, ?_⟩
  · rw [← hwr]
    exact congrArg Prod.snd hsum
  · rw [hget, OrderedMap.get_empty, Option.none_or]
    exact Except.ok.inj hroles

end Attempts

end BoilerplateExpress.UserImport

import BoilerplateExpress.Users.PiiRotation

/-!
# A rotation without a limit on its pages

A pass of `rotateUserPiiKeys` (`users/user-pii.rotation.ts`) that may read as many pages as it
takes, on a table that nobody else writes. It makes the steps of a pass that is allowed one page
more than there are rows, since every page but the last one is full. What is added here is what the
pass counts.
-/
namespace BoilerplateExpress.Users

open Crypto
open List

/-- The ring holds the key that the envelope names: its data key opens, for this place. -/
def KeyHeld (cipher : FieldCipher) (context : FieldContext) (stored : Bytes) : Prop :=
  ∃ aad envelope dataKey, encodeFieldContext context = .ok aad ∧
    decodeEnvelope stored = .ok envelope ∧ cipher.unwrapDataKey envelope aad = .ok dataKey

/-- So it is with everything written under a key of the ring. -/
theorem keyHeld_of_wrapped {context aad dataKey wrapIv payload stored} {writer cipher : FieldCipher}
    (haad : encodeFieldContext context = .ok aad)
    (h : encodeEnvelope (writer.wrapDataKey dataKey aad wrapIv payload) = .ok stored)
    (haead : cipher.aead = writer.aead)
    (hfind : cipher.keyring.find writer.keyring.activeKeyId = some writer.keyring.activeKey) :
    KeyHeld cipher context stored :=
  ⟨aad, _, dataKey, haad, writer.decodeEnvelope_wrapDataKey h,
    FieldCipher.unwrapDataKey_wrapDataKey writer cipher haead hfind _ _ _ _⟩

/-- The row names a retired key in some column. -/
def StaleRow (cipher : FieldCipher) (row : UserPiiRow) : Prop :=
  ∃ column, staleField cipher (row column) = true

instance (cipher : FieldCipher) (row : UserPiiRow) : Decidable (StaleRow cipher row) :=
  inferInstanceAs (Decidable (∃ column, staleField cipher (row column) = true))

def PiiState.page (s : PiiState) : List (Text × UserPiiRow) :=
  match s.phase with
  | .updating page _ => page
  | _ => []

/-- What a pass has counted: the rows of the pages it is through with, and the stale ones among
the rows it is through with. -/
structure Counted (cipher : FieldCipher) (table : PiiTable) (visited : List Text) (s : PiiState) :
    Prop where
  scanned : s.phase ≠ .failed →
    s.progress.scanned + s.page.length = visited.length + s.todo.length
  rewrapped : s.progress.rewrapped =
    visited.countP (fun userId => (table.get userId).any (fun row => decide (StaleRow cipher row)))

/-- The pass has read every row once, counted the stale ones, changed no value and left no field
on a retired key. -/
structure Exhausted (cipher : FieldCipher) (table : PiiTable) (visited : List Text)
    (s : PiiState) : Prop where
  complete : s.phase = .finished true
  once : visited.Nodup
  every : ∀ userId, userId ∈ visited ↔ (table.get userId).isSome
  scanned : s.progress.scanned = table.entries.length
  rewrapped : s.progress.rewrapped =
    table.entries.countP (fun e => decide (StaleRow cipher e.2))
  plaintexts : ∀ userId column,
    readField cipher s.table userId column = readField cipher table userId column
  active : AllActive cipher s.table

section

variable {cipher : FieldCipher} {table : PiiTable} {userId : Text} {row update : UserPiiRow}
  {wrapIv : PiiColumn → Iv}

lemma rewrappable_of_keyHeld (wrapIv : PiiColumn → Iv)
    (h : ∀ column stored, row column = some stored →
      KeyHeld cipher (piiContext userId column) stored) : Rewrappable cipher userId row := by
  have hfield : ∀ column, ∃ update,
      FieldRewrapped cipher userId column (wrapIv column) (row column) update := by
    intro column
    cases hstored : row column with
    | none => exact ⟨none, .absent⟩
    | some stored =>
      obtain ⟨aad, envelope, dataKey, haad, hdecode, hunwrap⟩ := h column stored hstored
      by_cases hid : envelope.keyId = cipher.keyring.activeKeyId
      · exact ⟨none, .current (by simp [FieldCipher.needsRewrap, hdecode, hid])⟩
      · have hbytes :=
          cipher.encodeEnvelope_wrapDataKey dataKey aad (wrapIv column) envelope.payload
        refine ⟨some ?_, .stale (by simp [FieldCipher.needsRewrap, hdecode, hid]) ?_⟩
        rotate_left
        simp only [FieldCipher.rewrap, haad, hdecode, hunwrap, ok_bind]
        exact hbytes
  choose update hupdate using hfield
  exact ⟨wrapIv, update, rewrapRow_eq_ok.mpr hupdate⟩

lemma staleRow_iff (h : rewrapRow cipher userId row wrapIv = .ok update) :
    StaleRow cipher row ↔ ∃ column, update column ≠ none := by
  refine exists_congr fun column => ?_
  have hfield := rewrapRow_eq_ok.mp h column
  generalize row column = stored at hfield ⊢
  generalize update column = written at hfield ⊢
  cases hfield with
  | absent => simp [staleField]
  | current hstale => simp [staleField, hstale]
  | stale hstale => simp [staleField, hstale]

variable {b p : ℕ} {visited : List Text} {s t : PiiState}

lemma counted_step (hinv : RotationInv cipher table b p visited s)
    (h : Counted cipher table visited s) (hstep : rotateStep cipher ⟨b, some p⟩ s wrapIv = some t) :
    Counted cipher table (visited ++ visits s t) t := by
  obtain ⟨hscan, hrew⟩ := h
  have hpos := hinv.position
  cases rotates_of_rotateStep hstep with
  | selects hph =>
    refine ⟨fun _ => ?_, by simpa [visits, hph] using hrew⟩
    simpa [visits, hph, PiiState.page, PiiState.todo] using hscan
  | stops hph =>
    refine ⟨fun _ => ?_, by simpa [visits] using hrew⟩
    simpa [visits, hph, PiiState.page, PiiState.todo] using hscan
  | @passes page todo userId row update hph hrewr hnot =>
    rw [hph] at hpos
    have hfresh : ¬ StaleRow cipher row := by simp [staleRow_iff hrewr, hnot]
    refine ⟨fun _ => ?_, by simp [visits, hph, hrew, (row_of_position hpos).2.2, hfresh]⟩
    simpa [hph, visits, PiiState.page, PiiState.todo, add_assoc, add_comm 1] using hscan
  | writes hph hrewr hsome =>
    rw [hph] at hpos
    have hstale := (staleRow_iff hrewr).mpr hsome
    refine ⟨fun _ => ?_, by simp [visits, hph, hrew, (row_of_position hpos).2.2, hstale]⟩
    simpa [hph, visits, PiiState.page, PiiState.todo, add_assoc, add_comm 1] using hscan
  | @turns page hph =>
    refine ⟨fun _ => ?_, by simpa [visits, hph] using hrew⟩
    by_cases hcurs : nextCursor b page = none <;>
      simpa [visits, hph, PiiState.page, PiiState.todo, hcurs] using hscan
  | _ => exact ⟨fun hne => absurd rfl hne, by simpa [visits] using hrew⟩

lemma counted_run (hb : 1 ≤ b) (hrun : RotationRun cipher ⟨b, some p⟩ table visited s) :
    Counted cipher table visited s := by
  induction hrun with
  | start => exact ⟨fun _ => rfl, rfl⟩
  | step hrun wrapIv hstep ih => exact counted_step (rotationInv_run hb hrun) ih hstep

lemma plaintexts_run {options} (hrun : RotationRun cipher options table visited s) :
    PiiInv cipher s ∧ s.expected = readField cipher table := by
  induction hrun with
  | start => exact ⟨⟨fun _ _ => rfl, pageFresh_nil⟩, rfl⟩
  | step hrun wrapIv hstep ih =>
    refine ⟨piiInv_rotate ih.1 hstep, ?_⟩
    rw [← ih.2]
    cases rotates_of_rotateStep hstep <;> rfl

/-! ## Without a limit -/

/-- The limit decides nothing as long as it is not reached. -/
theorem rotateStep_of_lt (h : s.phase = .selecting → s.progress.pages < p) :
    rotateStep cipher ⟨b, some p⟩ s wrapIv = rotateStep cipher ⟨b, none⟩ s wrapIv := by
  unfold rotateStep
  cases hph : s.phase with
  | selecting => simp [h hph]
  | updating page todo =>
    cases todo with
    | nil => rfl
    | cons e todo => rfl
  | finished complete => rfl
  | failed => rfl

lemma pages_lt (hb : 1 ≤ b)
    (hrun : RotationRun cipher ⟨b, some ((idsInOrder table).length + 1)⟩ table visited s)
    (hph : s.phase = .selecting) : s.progress.pages < (idsInOrder table).length + 1 := by
  have hpos := (rotationInv_run hb hrun).position
  rw [hph] at hpos
  have hle : s.progress.pages * 1 ≤ s.progress.pages * b := Nat.mul_le_mul_left _ hb
  have := hpos.2.1
  omega

lemma limited_of_unlimited (hb : 1 ≤ b) (hrun : RotationRun cipher ⟨b, none⟩ table visited s) :
    RotationRun cipher ⟨b, some ((idsInOrder table).length + 1)⟩ table visited s := by
  induction hrun with
  | start => exact .start
  | step hrun wrapIv hstep ih =>
    exact ih.step wrapIv ((rotateStep_of_lt (pages_lt hb ih)).trans hstep)

/-- No pass goes on for ever. -/
theorem no_endless_pass (hb : 1 ≤ b) {states : ℕ → PiiState}
    (hstart : states 0 = PiiState.start cipher table) :
    ¬ ∀ n, ∃ wrapIv, rotateStep cipher ⟨b, none⟩ (states n) wrapIv = some (states (n + 1)) := by
  intro hsteps
  have hrun : ∀ n, ∃ visited, RotationRun cipher ⟨b, none⟩ table visited (states n) := by
    intro n
    induction n with
    | zero => exact ⟨[], hstart ▸ .start⟩
    | succ n ih =>
      obtain ⟨visited, hrun⟩ := ih
      obtain ⟨wrapIv, hstep⟩ := hsteps n
      exact ⟨_, hrun.step wrapIv hstep⟩
  have hrank : ∀ n, rotationRank b ((idsInOrder table).length + 1) (states n) + n ≤
      rotationRank b ((idsInOrder table).length + 1) (states 0) := by
    intro n
    induction n with
    | zero => exact le_rfl
    | succ n ih =>
      obtain ⟨visited, hrun⟩ := hrun n
      obtain ⟨wrapIv, hstep⟩ := hsteps n
      have hlt := rotationRank_lt
        ((rotateStep_of_lt (pages_lt hb (limited_of_unlimited hb hrun))).trans hstep)
      omega
  have := hrank (rotationRank b ((idsInOrder table).length + 1) (states 0) + 1)
  omega

lemma complete_of_unlimited {complete} (hrun : RotationRun cipher ⟨b, none⟩ table visited s)
    (hph : s.phase = .finished complete) : complete := by
  cases hrun with
  | start => cases hph
  | step hrun wrapIv hstep =>
    cases rotates_of_rotateStep hstep with
    | stops _ hlimit => cases hlimit
    | turns =>
      split_ifs at hph
      · cases hph
        rfl
    | _ => cases hph

lemma perm_idsInOrder (table) :
    (idsInOrder table).Perm (table.entries.map Prod.fst) := Keyset.perm_sort _

lemma countP_idsInOrder (table q) :
    (idsInOrder table).countP (fun userId => (table.get userId).any q) =
      table.entries.countP (fun e => q e.2) := by
  rw [(perm_idsInOrder table).countP_eq, countP_map]
  refine countP_congr ?_
  intro e he
  simp [(table.get_eq_some e.1 e.2).mpr he]

end

/-- For every table, batch size and ring that holds the keys which the rows name: no pass without
a limit goes on for ever, and a pass that does not go on has reported that it is complete, after
one visit to every row. -/
theorem unlimited_rotation_exhaustive (cipher : FieldCipher) (table : PiiTable) (b : ℕ)
    (hb : 1 ≤ b)
    (hheld : ∀ userId row, table.get userId = some row → ∀ column stored,
      row column = some stored → KeyHeld cipher (piiContext userId column) stored) :
    (∀ states : ℕ → PiiState, states 0 = PiiState.start cipher table →
      ¬ ∀ n, ∃ wrapIv,
        rotateStep cipher ⟨b, none⟩ (states n) wrapIv = some (states (n + 1))) ∧
    ∀ visited s, RotationRun cipher ⟨b, none⟩ table visited s →
      (∀ wrapIv, rotateStep cipher ⟨b, none⟩ s wrapIv = none) →
      Exhausted cipher table visited s := by
  refine ⟨fun states => no_endless_pass hb, ?_⟩
  intro visited s hrun hlast
  have hlim := limited_of_unlimited hb hrun
  have hinv := rotationInv_run hb hlim
  have hcoun := counted_run hb hlim
  have hpos := hinv.position
  let wrapIv : PiiColumn → Iv := fun _ => ⟨replicate ivBytes 0, length_replicate⟩
  rcases ended_or_step ⟨b, none⟩ s wrapIv with hended | ⟨t, hstep⟩
  swap
  · cases (hlast wrapIv).symm.trans hstep
  rcases hended with ⟨complete, hph⟩ | hph
  · obtain rfl := complete_of_unlimited hrun hph
    rw [hph] at hpos
    have hvis : visited = idsInOrder table := (hpos.2 rfl).resolve_left (by omega)
    subst hvis
    have hscan := hcoun.scanned (by simp [hph])
    refine ⟨hph, nodup_idsInOrder table, mem_idsInOrder table, ?_, ?_, ?_, ?_⟩
    · simpa [PiiState.page, PiiState.todo, hph, (perm_idsInOrder table).length_eq] using hscan
    · rw [hcoun.rewrapped, countP_idsInOrder]
    · intro userId column
      rw [(plaintexts_run hrun).1.values, (plaintexts_run hrun).2]
    · intro userId row hrow
      refine hinv.active userId ?_ row hrow
      rw [mem_idsInOrder, ← hinv.same_ids, hrow]
      rfl
  · -- a row that cannot be rewrapped is the only thing that stops a pass
    rw [hph] at hpos
    obtain ⟨userId, row, -, -, hrow, hnot⟩ := hpos
    exact absurd (rewrappable_of_keyHeld wrapIv (hheld userId row hrow)) hnot

/-- A pass over two users, in pages of one row. -/
theorem unlimited_rotation_of_two_users :
    (∀ userId row, twoUsers.get userId = some row → ∀ column stored, row column = some stored →
      KeyHeld (phoneCipher checksumAead true) (piiContext userId column) stored) ∧
    ∀ visited s, RotationRun (phoneCipher checksumAead true) ⟨1, none⟩ twoUsers visited s →
      (∀ wrapIv, rotateStep (phoneCipher checksumAead true) ⟨1, none⟩ s wrapIv = none) →
      Exhausted (phoneCipher checksumAead true) twoUsers visited s := by
  have hheld : ∀ userId row, twoUsers.get userId = some row → ∀ column stored,
      row column = some stored →
        KeyHeld (phoneCipher checksumAead true) (piiContext userId column) stored := by
    intro userId row hrow column stored hst
    obtain ⟨aad, haad, rfl⟩ : ∃ aad, encodeFieldContext (piiContext userId .phone) = .ok aad ∧
        row = phoneRow checksumAead userId := by
      rw [OrderedMap.get_eq_some] at hrow
      simp only [twoUsers, mem_cons, not_mem_nil, or_false, Prod.mk.injEq] at hrow
      rcases hrow with ⟨rfl, rfl⟩ | ⟨rfl, rfl⟩
      · exact ⟨_, rfl, rfl⟩
      · exact ⟨_, rfl, rfl⟩
    cases column with
    | phone =>
      obtain ⟨bytes, -, hbytes, -⟩ := rewrapField_samplePhone checksumAead haad
      obtain ⟨aad', haad', henc⟩ := bind_eq_ok hbytes
      obtain rfl : bytes = stored := by simpa [phoneRow, hbytes, Except.toOption] using hst
      exact keyHeld_of_wrapped haad' henc rfl rfl
    | address => cases hst
  exact ⟨hheld, (unlimited_rotation_exhaustive (phoneCipher checksumAead true) twoUsers 1 le_rfl
    hheld).2⟩

end BoilerplateExpress.Users

import BoilerplateExpress.Keyset
import BoilerplateExpress.Users.UserPii

/-!
# Repeated key rotations

A pass of `rotateUserPiiKeys` (`users/user-pii.rotation.ts`) with a limit on its pages, on a table
that nobody else writes, and the same pass over and over. Every pass begins at the first row: the
cursor of the pass before is printed and not taken up. So the rows beyond the first
`maxPages * batchSize` are never visited, and a pass of no pages calls itself complete.
-/
namespace BoilerplateExpress.Users

open Crypto
open List

/-- The ids of a table in order. -/
def idsInOrder (table : PiiTable) : List Text :=
  Keyset.sort (· < ·) id (table.entries.map Prod.fst)

lemma inOrder_idsInOrder (table) : Keyset.InOrder (· < ·) id (idsInOrder table) :=
  Keyset.inOrder_sort (by simpa using table.nodup)

lemma mem_idsInOrder (table userId) : userId ∈ idsInOrder table ↔ (table.get userId).isSome := by
  rw [idsInOrder, (Keyset.perm_sort _).mem_iff, Option.isSome_iff_exists]
  simp [OrderedMap.get_eq_some]

lemma nodup_idsInOrder (table) : (idsInOrder table).Nodup :=
  (inOrder_idsInOrder table).imp fun h => ne_of_lt h

lemma idsInOrder_congr {table' table}
    (h : ∀ userId, (table'.get userId).isSome = (table.get userId).isSome) :
    idsInOrder table' = idsInOrder table := by
  refine (inOrder_idsInOrder table').eq_of_perm (inOrder_idsInOrder table) ?_
  refine (perm_ext_iff_of_nodup (nodup_idsInOrder _) (nodup_idsInOrder _)).mpr ?_
  intro userId
  rw [mem_idsInOrder, mem_idsInOrder, h]

lemma sorted_ids {rows : List (Text × UserPiiRow)} (h : (rows.map Prod.fst).Nodup) :
    (rows.insertionSort (fun e f => e.1 ≤ f.1)).map Prod.fst =
      Keyset.sort (· < ·) id (rows.map Prod.fst) := by
  have hsort : rows.insertionSort (fun e f => e.1 ≤ f.1) = Keyset.sort (· < ·) Prod.fst rows := by
    simp [Keyset.sort]
  have hrows : Keyset.InOrder (· < ·) id ((Keyset.sort (· < ·) Prod.fst rows).map Prod.fst) :=
    pairwise_map.mpr (Keyset.inOrder_sort h)
  have hids : Keyset.InOrder (· < ·) id (Keyset.sort (· < ·) id (rows.map Prod.fst)) :=
    Keyset.inOrder_sort (by simpa using h)
  rw [hsort]
  refine Keyset.InOrder.eq_of_perm hrows hids ?_
  exact ((Keyset.perm_sort rows).map Prod.fst).trans (Keyset.perm_sort _).symm

lemma selectPage_ids (table cursor limit) :
    (selectPage table cursor limit).map Prod.fst =
      ((idsInOrder table).filter (fun userId => cursor.all (fun c => decide (c < userId)))).take
        limit := by
  have hnd : ((table.entries.filter
      (fun e => cursor.all (fun c => decide (c < e.1)))).map Prod.fst).Nodup :=
    table.nodup.sublist (filter_sublist.map _)
  have hfilt : (table.entries.filter (fun e => cursor.all (fun c => decide (c < e.1)))).map
      Prod.fst = (table.entries.map Prod.fst).filter
        (fun userId => cursor.all (fun c => decide (c < userId))) := by
    rw [filter_map]
    rfl
  rw [selectPage, map_take, sorted_ids hnd, hfilt, idsInOrder,
    Keyset.sort_filter (by simpa using table.nodup)]

/-- Every field of the row is wrapped with the active key. -/
def OnActiveKey (cipher : FieldCipher) (row : UserPiiRow) : Prop :=
  ∀ column stored, row column = some stored → cipher.needsRewrap stored = .ok false

/-- The rotation of the row does not throw: its envelopes can be read, and the stale ones open
under the ring. -/
def Rewrappable (cipher : FieldCipher) (userId : Text) (row : UserPiiRow) : Prop :=
  ∃ wrapIv update, rewrapRow cipher userId row wrapIv = .ok update

section

variable {cipher : FieldCipher} {userId : Text}

/-- Whether an envelope can be rewrapped does not depend on the random bytes. -/
theorem rewrap_isOk_congr {stored context wrapIv bytes}
    (h : cipher.rewrap stored context wrapIv = .ok bytes) (wrapIv') :
    ∃ bytes', cipher.rewrap stored context wrapIv' = .ok bytes' := by
  obtain ⟨aad, haad, h⟩ := bind_eq_ok h
  obtain ⟨envelope, hdec, h⟩ := bind_eq_ok h
  obtain ⟨dataKey, hunw, -⟩ := bind_eq_ok h
  simp only [FieldCipher.rewrap, haad, hdec, hunw, ok_bind]
  exact ⟨_, cipher.encodeEnvelope_wrapDataKey dataKey aad wrapIv' envelope.payload⟩

lemma needsRewrap_rewrap {stored context wrapIv bytes}
    (h : cipher.rewrap stored context wrapIv = .ok bytes) :
    cipher.needsRewrap bytes = .ok false := by
  obtain ⟨aad, -, h⟩ := bind_eq_ok h
  obtain ⟨envelope, -, h⟩ := bind_eq_ok h
  obtain ⟨dataKey, -, henc⟩ := bind_eq_ok h
  have hdec := cipher.decodeEnvelope_wrapDataKey henc
  simp [FieldCipher.needsRewrap, hdec, FieldCipher.wrapDataKey]

section

variable {column : PiiColumn} {wrapIv : Iv} {stored update : Option Bytes}

/-- What stands in a column after the rotation has written it back is on the active key. -/
theorem needsRewrap_of_rewrapped {bytes}
    (h : FieldRewrapped cipher userId column wrapIv stored update)
    (hbytes : update.or stored = some bytes) : cipher.needsRewrap bytes = .ok false := by
  cases h with
  | absent => cases hbytes
  | current hstale =>
    cases hbytes
    exact hstale
  | stale hstale hrew =>
    cases hbytes
    exact needsRewrap_rewrap hrew

lemma rewrapped_congr (h : FieldRewrapped cipher userId column wrapIv stored update) (wrapIv') :
    ∃ update', FieldRewrapped cipher userId column wrapIv' stored update' := by
  cases h with
  | absent => exact ⟨none, .absent⟩
  | current hstale => exact ⟨none, .current hstale⟩
  | stale hstale hrew =>
    obtain ⟨bytes, hbytes⟩ := rewrap_isOk_congr hrew wrapIv'
    exact ⟨some bytes, .stale hstale hbytes⟩

end

variable {row : UserPiiRow}

lemma onActiveKey_of_rewrapRow {wrapIv update}
    (h : rewrapRow cipher userId row wrapIv = .ok update) :
    OnActiveKey cipher (fun column => (update column).or (row column)) :=
  fun column _ => needsRewrap_of_rewrapped (rewrapRow_eq_ok.mp h column)

lemma rewrapRow_of_rewrappable (h : Rewrappable cipher userId row) (wrapIv) :
    ∃ update, rewrapRow cipher userId row wrapIv = .ok update := by
  obtain ⟨wrapIv', update, h⟩ := h
  choose update' hupd' using fun column =>
    rewrapped_congr (rewrapRow_eq_ok.mp h column) (wrapIv column)
  exact ⟨update', rewrapRow_eq_ok.mpr hupd'⟩

lemma rewrappable_of_onActiveKey (h : OnActiveKey cipher row) (wrapIv : PiiColumn → Iv) :
    Rewrappable cipher userId row := by
  refine ⟨wrapIv, fun _ => none, rewrapRow_eq_ok.mpr ?_⟩
  intro column
  cases hst : row column with
  | none => exact .absent
  | some stored => exact .current (h column stored hst)

end

/-! ## One pass -/

/-- The row that the pass is through with after this step. -/
def visits (s t : PiiState) : List Text :=
  match s.phase, t.phase with
  | .updating _ ((userId, _) :: _), .updating _ _ => [userId]
  | _, _ => []

/-- A pass on a table that nobody else writes, with the rows that it is through with. -/
inductive RotationRun (cipher : FieldCipher) (options : RotationOptions) (table : PiiTable) :
    List Text → PiiState → Prop where
  | start : RotationRun cipher options table [] (PiiState.start cipher table)
  | step {visited : List Text} {s t : PiiState} (hrun : RotationRun cipher options table visited s)
      (wrapIv : PiiColumn → Iv) (hstep : rotateStep cipher options s wrapIv = some t) :
      RotationRun cipher options table (visited ++ visits s t) t

def PiiState.Ended (s : PiiState) : Prop :=
  (∃ complete, s.phase = .finished complete) ∨ s.phase = .failed

/-- Where a pass of at most `p` pages of `b` rows is. -/
def Position (cipher : FieldCipher) (table : PiiTable) (b p : ℕ) (visited : List Text)
    (progress : RotationProgress) : RotationPhase → Prop
  | .selecting => visited = (idsInOrder table).take (progress.pages * b) ∧
      progress.pages * b ≤ (idsInOrder table).length ∧ progress.pages ≤ p ∧
      progress.cursor = visited.getLast?
  | .updating page todo => progress.pages < p ∧
      progress.pages * b ≤ (idsInOrder table).length ∧
      page.map Prod.fst = ((idsInOrder table).drop (progress.pages * b)).take b ∧
      (∃ done, page = done ++ todo ∧
        visited = (idsInOrder table).take (progress.pages * b) ++ done.map Prod.fst) ∧
      ∀ e ∈ todo, table.get e.1 = some e.2
  | .finished complete => visited = (idsInOrder table).take (p * b) ∧
      (complete = true → p = 0 ∨ visited = idsInOrder table)
  | .failed => ∃ userId row, userId ∈ (idsInOrder table).take (p * b) ∧ userId ∉ visited ∧
      table.get userId = some row ∧ ¬ Rewrappable cipher userId row

structure RotationInv (cipher : FieldCipher) (table : PiiTable) (b p : ℕ) (visited : List Text)
    (s : PiiState) : Prop where
  same_ids : ∀ userId, (s.table.get userId).isSome = (table.get userId).isSome
  unvisited : ∀ userId, userId ∉ visited → s.table.get userId = table.get userId
  active : ∀ userId ∈ visited, ∀ row, s.table.get userId = some row → OnActiveKey cipher row
  rewrappable : ∀ userId ∈ visited, ∀ row, table.get userId = some row →
    Rewrappable cipher userId row
  bounded : ∀ userId ∈ visited, userId ∈ (idsInOrder table).take (p * b)
  position : Position cipher table b p visited s.progress s.phase

section

variable {cipher : FieldCipher} {table : PiiTable} {b p : ℕ} {visited : List Text} {s : PiiState}

lemma rotationInv_start : RotationInv cipher table b p [] (PiiState.start cipher table) := by
  refine ⟨fun _ => rfl, fun _ _ => rfl, ?_, ?_, ?_, ?_⟩
  · simp
  · simp
  · simp
  · simp [Position, PiiState.start]

/-- The ids beyond the last one of a part are the ones that follow it. -/
theorem filter_beyond_take (n) :
    (idsInOrder table).filter
        (fun userId => ((idsInOrder table).take n).getLast?.all (fun c => decide (c < userId))) =
      (idsInOrder table).drop n := by
  have horder := inOrder_idsInOrder table
  rcases eq_nil_or_concat ((idsInOrder table).take n) with hnil | ⟨before, last, hlast⟩
  · rcases take_eq_nil_iff.mp hnil with rfl | hemp
    · simp
    · simp [hemp]
  · have hsplit : idsInOrder table = before ++ last :: (idsInOrder table).drop n := by
      conv_lhs => rw [← take_append_drop n (idsInOrder table), hlast]
      simp
    have hbeyond : (idsInOrder table).filter (fun userId => decide (last < userId)) =
        (idsInOrder table).drop n := by
      rw [hsplit] at horder
      have := horder.filter_beyond
      rw [← hsplit] at this
      exact this
    rw [hlast]
    simpa using hbeyond

lemma take_next_page (pages) :
    (idsInOrder table).take ((pages + 1) * b) =
      (idsInOrder table).take (pages * b) ++ ((idsInOrder table).drop (pages * b)).take b := by
  rw [Nat.add_mul, Nat.one_mul, take_add]

variable {page todo : List (Text × UserPiiRow)} {userId : Text} {row : UserPiiRow}

/-- A row that is still to be written back is among the first rows and has not been visited. -/
theorem row_of_position {progress}
    (h : Position cipher table b p visited progress (.updating page ((userId, row) :: todo))) :
    userId ∈ (idsInOrder table).take (p * b) ∧ userId ∉ visited ∧ table.get userId = some row := by
  obtain ⟨hpages, -, hpage, ⟨done, rfl, rfl⟩, htodo⟩ := h
  have hnd : ((idsInOrder table).take ((progress.pages + 1) * b)).Nodup :=
    (nodup_idsInOrder table).sublist (take_sublist _ _)
  rw [take_next_page, ← hpage, map_append, ← append_assoc, map_cons] at hnd
  refine ⟨?_, ?_, htodo (userId, row) mem_cons_self⟩
  · have hle : (progress.pages + 1) * b ≤ p * b := Nat.mul_le_mul_right b hpages
    refine (take_sublist_take_left hle).subset ?_
    rw [take_next_page, ← hpage]
    simp
  · intro hvis
    exact absurd rfl ((nodup_append.mp hnd).2.2 userId hvis userId mem_cons_self)

lemma rotationInv_select (h : RotationInv cipher table b p visited s)
    (hph : s.phase = .selecting) (hpages : s.progress.pages < p) :
    RotationInv cipher table b p visited
      { s with
        phase := .updating (selectPage s.table s.progress.cursor b)
          (selectPage s.table s.progress.cursor b) } := by
  have hpos := h.position
  rw [hph] at hpos
  obtain ⟨hvis, hlen, -, hcurs⟩ := hpos
  have hids : (selectPage s.table s.progress.cursor b).map Prod.fst =
      ((idsInOrder table).drop (s.progress.pages * b)).take b := by
    rw [selectPage_ids, idsInOrder_congr h.same_ids, hcurs, hvis, filter_beyond_take]
  refine ⟨h.same_ids, h.unvisited, h.active, h.rewrappable, h.bounded, hpages, hlen, hids,
    ⟨[], rfl, by simp [hvis]⟩, ?_⟩
  intro e he
  rw [← get_of_mem_selectPage he]
  refine (h.unvisited e.1 ?_).symm
  -- a row of the page comes after the visited ones
  intro hmem
  have hlater : e.1 ∈ (idsInOrder table).drop (s.progress.pages * b) := by
    refine mem_of_mem_take (i := b) ?_
    rw [← hids]
    exact mem_map_of_mem he
  have hnd := nodup_idsInOrder table
  rw [← take_append_drop (s.progress.pages * b) (idsInOrder table)] at hnd
  rw [hvis] at hmem
  exact absurd rfl ((nodup_append.mp hnd).2.2 e.1 hmem e.1 hlater)

lemma rotationInv_limit (hb : 1 ≤ b) (h : RotationInv cipher table b p visited s)
    (hph : s.phase = .selecting) (hpages : ¬ s.progress.pages < p) :
    RotationInv cipher table b p visited
      { s with phase := .finished s.progress.cursor.isNone } := by
  have hpos := h.position
  rw [hph] at hpos
  obtain ⟨hvis, -, hle, hcurs⟩ := hpos
  have heq : s.progress.pages = p := by omega
  rw [heq] at hvis
  refine ⟨h.same_ids, h.unvisited, h.active, h.rewrappable, h.bounded, hvis, ?_⟩
  intro hcomp
  have hnil : visited = [] := by
    rw [hcurs] at hcomp
    simpa using hcomp
  rw [hnil] at hvis
  rcases take_eq_nil_iff.mp hvis.symm with hzero | hemp
  · left
    rcases Nat.mul_eq_zero.mp hzero with hp | hb0
    · exact hp
    · omega
  · right
    rw [hnil, hemp]

variable {wrapIv : PiiColumn → Iv} {t : PiiState}

lemma stored_of_updating (h : RotationInv cipher table b p visited s)
    (hph : s.phase = .updating page ((userId, row) :: todo)) :
    s.table.get userId = some row := by
  have hpos := h.position
  rw [hph] at hpos
  obtain ⟨-, hunv, hrow⟩ := row_of_position hpos
  rw [h.unvisited userId hunv, hrow]

/-- A row that the pass is through with. -/
theorem rotationInv_row {update} (h : RotationInv cipher table b p visited s)
    (hph : s.phase = .updating page ((userId, row) :: todo))
    (hrew : rewrapRow cipher userId row wrapIv = .ok update)
    (hprog : t.progress.pages = s.progress.pages) (ht : t.phase = .updating page todo)
    (hget : ∀ other, t.table.get other = if other = userId then
      some (fun column => (update column).or (row column)) else s.table.get other) :
    RotationInv cipher table b p (visited ++ [userId]) t := by
  have hpos := h.position
  rw [hph] at hpos
  obtain ⟨htake, -, hrow⟩ := row_of_position hpos
  refine ⟨?_, ?_, ?_, ?_, ?_, ?_⟩
  · intro other
    rw [hget]
    split
    · rename_i heq
      rw [heq, hrow]
      rfl
    · exact h.same_ids other
  · intro other hoth
    simp only [mem_append, mem_singleton, not_or] at hoth
    rw [hget, if_neg hoth.2]
    exact h.unvisited other hoth.1
  · intro other hoth row' hrow'
    rw [hget] at hrow'
    split at hrow'
    · cases hrow'
      exact onActiveKey_of_rewrapRow hrew
    · rename_i hne
      have hold : other ∈ visited := by simpa [hne] using hoth
      exact h.active other hold row' hrow'
  · intro other hoth row' hrow'
    rcases mem_append.mp hoth with hold | hnew
    · exact h.rewrappable other hold row' hrow'
    · obtain rfl := mem_singleton.mp hnew
      obtain rfl : row = row' := Option.some.inj (hrow.symm.trans hrow')
      exact ⟨wrapIv, update, hrew⟩
  · intro other hoth
    rcases mem_append.mp hoth with hold | hnew
    · exact h.bounded other hold
    · rw [mem_singleton.mp hnew]
      exact htake
  · rw [ht]
    obtain ⟨hpages, hlen, hpage, ⟨done, hdone, hvis⟩, htodo⟩ := hpos
    rw [Position, hprog]
    refine ⟨hpages, hlen, hpage, ⟨done ++ [(userId, row)], ?_, ?_⟩, ?_⟩
    · rw [hdone]
      simp
    · rw [hvis]
      simp
    · exact fun e he => htodo e (mem_cons_of_mem _ he)

lemma rotationInv_failed {error} (h : RotationInv cipher table b p visited s)
    (hph : s.phase = .updating page ((userId, row) :: todo))
    (hrewr : rewrapRow cipher userId row wrapIv = .error error) :
    RotationInv cipher table b p visited { s with phase := .failed } := by
  have hpos := h.position
  rw [hph] at hpos
  obtain ⟨htake, hunv, hrow⟩ := row_of_position hpos
  refine ⟨h.same_ids, h.unvisited, h.active, h.rewrappable, h.bounded, userId, row, htake,
    hunv, hrow, ?_⟩
  intro hrew
  obtain ⟨update, hupd⟩ := rewrapRow_of_rewrappable hrew wrapIv
  rw [hrewr] at hupd
  cases hupd

lemma rotationInv_page (hb : 1 ≤ b) (h : RotationInv cipher table b p visited s)
    (hph : s.phase = .updating page []) :
    RotationInv cipher table b p visited { s with
      progress := { s.progress with
        pages := s.progress.pages + 1
        scanned := s.progress.scanned + page.length
        cursor := nextCursor b page }
      phase := if nextCursor b page = none then .finished true else .selecting } := by
  have hposit := h.position
  rw [hph] at hposit
  obtain ⟨hpages, hlen, hpage, ⟨done, hdone, hvis⟩, -⟩ := hposit
  obtain rfl : page = done := by rw [hdone, append_nil]
  have hnext : visited = (idsInOrder table).take ((s.progress.pages + 1) * b) := by
    rw [hvis, hpage, take_next_page]
  have hcnt : page.length = min b ((idsInOrder table).length - s.progress.pages * b) := by
    rw [← length_map Prod.fst, hpage, length_take, length_drop]
  have hle : (s.progress.pages + 1) * b ≤ p * b := Nat.mul_le_mul_right b hpages
  have hpos : Position cipher table b p visited
      { s.progress with
        pages := s.progress.pages + 1
        scanned := s.progress.scanned + page.length
        cursor := nextCursor b page }
      (if nextCursor b page = none then .finished true else .selecting) := by
    rw [Nat.add_mul, Nat.one_mul] at hle
    unfold nextCursor
    by_cases hfull : page.length = b
    · -- a full page, which has a last row
      have hne : page ≠ [] := by
        rintro rfl
        simp at hfull
        omega
      rw [if_pos hfull, getLast?_eq_some_getLast hne]
      refine ⟨hnext, ?_, hpages, ?_⟩
      · rw [Nat.add_mul, Nat.one_mul]
        omega
      · rw [hvis, getLast?_append, getLast?_map, getLast?_eq_some_getLast hne]
        rfl
    · have hall : (idsInOrder table).length ≤ s.progress.pages * b + b := by omega
      rw [if_neg hfull, if_pos rfl]
      have hwhole : visited = idsInOrder table := by
        rw [hnext, Nat.add_mul, Nat.one_mul, take_of_length_le hall]
      refine ⟨?_, fun _ => .inr hwhole⟩
      rw [hwhole, take_of_length_le (hall.trans hle)]
  exact ⟨h.same_ids, h.unvisited, h.active, h.rewrappable, h.bounded, hpos⟩

lemma rotationInv_step (hb : 1 ≤ b) (h : RotationInv cipher table b p visited s)
    (hstep : rotateStep cipher ⟨b, some p⟩ s wrapIv = some t) :
    RotationInv cipher table b p (visited ++ visits s t) t := by
  cases rotates_of_rotateStep hstep with
  | selects hph hpages => simpa [visits, hph] using rotationInv_select h hph (hpages p rfl)
  | refuses hph hbatch => exact absurd hb (not_le.mpr hbatch)
  | stops hph hlimit hpages =>
    cases hlimit
    simpa [visits] using rotationInv_limit hb h hph (not_lt.mpr hpages)
  | fails hph hrew => simpa [visits] using rotationInv_failed h hph hrew
  | @passes page todo userId row update hph hrew hnot =>
    simp only [visits, hph]
    refine rotationInv_row h hph hrew rfl rfl ?_
    intro other
    simp only [hnot, Option.none_or]
    split_ifs with heq
    · rw [heq, stored_of_updating h hph]
    · rfl
  | @writes page todo userId row update hph hrew hsome =>
    simp only [visits, hph]
    refine rotationInv_row h hph hrew rfl rfl ?_
    intro other
    rw [updateRow_get]
    split_ifs with heq
    · rw [heq, stored_of_updating h hph]
      rfl
    · rfl
  | turns hph => simpa [visits, hph] using rotationInv_page hb h hph

lemma rotationInv_run (hb : 1 ≤ b) (hrun : RotationRun cipher ⟨b, some p⟩ table visited s) :
    RotationInv cipher table b p visited s := by
  induction hrun with
  | start => exact rotationInv_start
  | step hrun wrapIv hstep ih => exact rotationInv_step hb ih hstep

/-- What is left of a pass. -/
def rotationRank (b p : ℕ) (s : PiiState) : ℕ :=
  match s.phase with
  | .selecting => (p - s.progress.pages) * (b + 3) + 1
  | .updating _ todo => (p - (s.progress.pages + 1)) * (b + 3) + todo.length + 2
  | .finished _ => 0
  | .failed => 0

lemma rotationRank_lt (hstep : rotateStep cipher ⟨b, some p⟩ s wrapIv = some t) :
    rotationRank b p t < rotationRank b p s := by
  cases rotates_of_rotateStep hstep with
  | selects hphase hpages =>
    have hlt := hpages p rfl
    have hlength : (selectPage s.table s.progress.cursor b).length ≤ b := length_take_le _ _
    obtain ⟨q, hq⟩ : ∃ q, p - s.progress.pages = q + 1 := ⟨p - s.progress.pages - 1, by omega⟩
    have hq' : p - (s.progress.pages + 1) = q := by omega
    simp only [rotationRank, hphase, hq, hq', Nat.add_mul]
    omega
  | refuses hphase => simp [rotationRank, hphase]
  | stops hphase => simp [rotationRank, hphase]
  | fails hphase => simp [rotationRank, hphase]
  | passes hphase => simp [rotationRank, hphase]
  | writes hphase => simp [rotationRank, hphase]
  | @turns page hphase =>
    by_cases hcursor : nextCursor b page = none
    · simp [rotationRank, hphase, hcursor]
    · simp [rotationRank, hphase, hcursor]

lemma ended_or_step (options s wrapIv) :
    s.Ended ∨ ∃ t, rotateStep cipher options s wrapIv = some t := by
  unfold rotateStep
  cases hph : s.phase with
  | selecting =>
    right
    split_ifs <;> exact ⟨_, rfl⟩
  | updating page todo =>
    right
    cases todo with
    | nil => exact ⟨_, rfl⟩
    | cons e todo =>
      dsimp only
      split
      · exact ⟨_, rfl⟩
      · split_ifs <;> exact ⟨_, rfl⟩
  | finished complete => exact .inl (.inl ⟨complete, hph⟩)
  | failed => exact .inl (.inr hph)

/-- Every pass comes to an end, whatever random bytes it draws. -/
theorem rotationRun_ends (draw : PiiState → PiiColumn → Iv)
    (hrun : RotationRun cipher ⟨b, some p⟩ table visited s) :
    ∃ visited' t, RotationRun cipher ⟨b, some p⟩ table visited' t ∧ t.Ended := by
  induction hrank : rotationRank b p s using Nat.strong_induction_on generalizing visited s with
  | _ rank ih =>
    rcases ended_or_step ⟨b, some p⟩ s (draw s) with hended | ⟨t, hstep⟩
    · exact ⟨visited, s, hrun, hended⟩
    · exact ih _ (hrank ▸ rotationRank_lt hstep) (hrun.step (draw s) hstep) rfl

end

/-! ## Pass after pass -/

/-- Every row is on the active key. -/
def AllActive (cipher : FieldCipher) (table : PiiTable) : Prop :=
  ∀ userId row, table.get userId = some row → OnActiveKey cipher row

/-- The first `p * b` rows in the order of the ids can be rewrapped, and the others are on the
active key. -/
def WithinReach (cipher : FieldCipher) (b p : ℕ) (table : PiiTable) : Prop :=
  (∀ userId ∈ (idsInOrder table).take (p * b), ∀ row, table.get userId = some row →
    Rewrappable cipher userId row) ∧
  ∀ userId ∈ (idsInOrder table).drop (p * b), ∀ row, table.get userId = some row →
    OnActiveKey cipher row

section

variable {cipher : FieldCipher} {table : PiiTable} {b p : ℕ} {visited : List Text} {s : PiiState}

lemma withinReach_of_allActive (wrapIv : PiiColumn → Iv) (h : AllActive cipher table) :
    WithinReach cipher b p table :=
  ⟨fun userId _ row hrow => rewrappable_of_onActiveKey (h userId row hrow) wrapIv,
    fun userId _ row hrow => h userId row hrow⟩

lemma not_mem_visited_of_drop {userId} (h : RotationInv cipher table b p visited s)
    (hdrop : userId ∈ (idsInOrder table).drop (p * b)) : userId ∉ visited := by
  intro hvis
  have hnd := nodup_idsInOrder table
  rw [← take_append_drop (p * b) (idsInOrder table)] at hnd
  exact absurd rfl ((nodup_append.mp hnd).2.2 userId (h.bounded userId hvis) userId hdrop)

/-- If all rows are within reach, one pass does. -/
theorem allActive_of_withinReach (h : RotationInv cipher table b p visited s) (hended : s.Ended)
    (hreach : WithinReach cipher b p table) : AllActive cipher s.table := by
  have hpos := h.position
  rcases hended with ⟨complete, hph⟩ | hph
  · rw [hph] at hpos
    intro userId row hrow
    by_cases hvis : userId ∈ visited
    · exact h.active userId hvis row hrow
    · rw [h.unvisited userId hvis] at hrow
      have hmem : userId ∈ idsInOrder table := by
        rw [mem_idsInOrder, hrow]
        rfl
      rw [← take_append_drop (p * b) (idsInOrder table), mem_append, ← hpos.1] at hmem
      exact hreach.2 userId (hmem.resolve_left hvis) row hrow
  · rw [hph] at hpos
    obtain ⟨userId, row, htake, -, hrow, hnot⟩ := hpos
    exact absurd (hreach.1 userId htake row hrow) hnot

/-- If some row is not within reach, no pass brings it there. -/
theorem withinReach_of_pass (h : RotationInv cipher table b p visited s)
    (hreach : WithinReach cipher b p s.table) : WithinReach cipher b p table := by
  rw [WithinReach, idsInOrder_congr h.same_ids] at hreach
  refine ⟨?_, ?_⟩
  · intro userId htake row hrow
    by_cases hvis : userId ∈ visited
    · exact h.rewrappable userId hvis row hrow
    · rw [← h.unvisited userId hvis] at hrow
      exact hreach.1 userId htake row hrow
  · intro userId hdrop row hrow
    rw [← h.unvisited userId (not_mem_visited_of_drop h hdrop)] at hrow
    exact hreach.2 userId hdrop row hrow

end

/-- The tables before each of a sequence of whole passes. -/
def Passes (cipher : FieldCipher) (options : RotationOptions) (tables : ℕ → PiiTable) : Prop :=
  ∀ n, ∃ visited s, RotationRun cipher options (tables n) visited s ∧ s.Ended ∧
    tables (n + 1) = s.table

lemma withinReach_of_passes {b cipher p tables n} (hb : 1 ≤ b)
    (hpasses : Passes cipher ⟨b, some p⟩ tables) (h : WithinReach cipher b p (tables n)) :
    WithinReach cipher b p (tables 0) := by
  induction n with
  | zero => exact h
  | succ n ih =>
    obtain ⟨visited, s, hrun, -, htable⟩ := hpasses n
    rw [htable] at h
    exact ih (withinReach_of_pass (rotationInv_run hb hrun) h)

lemma exists_passes (cipher b p) (wrapIv : PiiColumn → Iv) (table) :
    ∃ tables, tables 0 = table ∧ Passes cipher ⟨b, some p⟩ tables := by
  choose visited result hrun hended using fun table =>
    rotationRun_ends (fun _ => wrapIv)
      (RotationRun.start : RotationRun cipher ⟨b, some p⟩ table [] (PiiState.start cipher table))
  refine ⟨Nat.rec table (fun _ before => (result before).table), rfl, ?_⟩
  intro n
  exact ⟨_, _, hrun _, hended _, rfl⟩

/-- For every table, batch size and limit on the pages. Each pass ends. Passes without writes in
between leave every row on the active key at some point exactly if the first `p * b` rows can be
rewrapped and the others need not be. A pass that reports to be complete has visited every row
exactly if it was allowed a page, or there are no rows. -/
theorem rotation_progress_iff (cipher : FieldCipher) (b p : ℕ) (hb : 1 ≤ b) :
    (∀ table, ∃ visited s, RotationRun cipher ⟨b, some p⟩ table visited s ∧ s.Ended) ∧
    (1 ≤ p → ∀ tables, Passes cipher ⟨b, some p⟩ tables →
      ((∃ n, AllActive cipher (tables n)) ↔ WithinReach cipher b p (tables 0))) ∧
    ∀ table visited s, RotationRun cipher ⟨b, some p⟩ table visited s →
      s.phase = .finished true →
      ((∀ userId, (table.get userId).isSome → userId ∈ visited) ↔
        1 ≤ p ∨ ∀ userId, table.get userId = none) := by
  have hiv : Iv := ⟨replicate 12 0, by simp [ivBytes]⟩
  refine ⟨?_, ?_, ?_⟩
  · intro table
    exact rotationRun_ends (fun _ _ => hiv) .start
  · intro _ tables hpass
    constructor
    · rintro ⟨n, hn⟩
      exact withinReach_of_passes hb hpass (withinReach_of_allActive (fun _ => hiv) hn)
    · intro hreach
      obtain ⟨visited, s, hrun, hended, htable⟩ := hpass 0
      refine ⟨1, ?_⟩
      rw [htable]
      exact allActive_of_withinReach (rotationInv_run hb hrun) hended hreach
  · intro table visited s hrun hph
    have hpos := (rotationInv_run hb hrun).position
    rw [hph] at hpos
    obtain ⟨hvis, hcomp⟩ := hpos
    constructor
    · intro hall
      by_cases hp : 1 ≤ p
      · exact .inl hp
      · right
        intro userId
        obtain rfl : p = 0 := by omega
        have hnil : visited = [] := by simpa using hvis
        cases hget : table.get userId with
        | none => rfl
        | some row =>
          have := hall userId (by rw [hget]; rfl)
          rw [hnil] at this
          cases this
    · intro hor userId hsome
      rcases hor with hp | hemp
      · have hwhole : visited = idsInOrder table := (hcomp rfl).resolve_left (by omega)
        rw [hwhole, mem_idsInOrder]
        exact hsome
      · rw [hemp userId] at hsome
        cases hsome

theorem rotation_progress_one :
    (∀ table, ∃ visited s,
      RotationRun (phoneCipher checksumAead true) ⟨1, some 1⟩ table visited s ∧ s.Ended) ∧
    (1 ≤ 1 → ∀ tables, Passes (phoneCipher checksumAead true) ⟨1, some 1⟩ tables →
      ((∃ n, AllActive (phoneCipher checksumAead true) (tables n)) ↔
        WithinReach (phoneCipher checksumAead true) 1 1 (tables 0))) ∧
    ∀ table visited s, RotationRun (phoneCipher checksumAead true) ⟨1, some 1⟩ table visited s →
      s.phase = .finished true →
      ((∀ userId, (table.get userId).isSome → userId ∈ visited) ↔
        1 ≤ 1 ∨ ∀ userId, table.get userId = none) :=
  rotation_progress_iff (phoneCipher checksumAead true) 1 1 (by decide)

/-- Two users whose phone numbers are wrapped with the retired key. -/
def twoUsers : PiiTable :=
  ⟨[(['u'], phoneRow checksumAead ['u']), (['v'], phoneRow checksumAead ['v'])], by simp⟩

/-- Passes of one page of one row never reach the second user, and a pass of no pages is complete
without a visit. -/
theorem bounded_rotation_stalls :
    (∃ tables, tables 0 = twoUsers ∧ Passes (phoneCipher checksumAead true) ⟨1, some 1⟩ tables ∧
      ∀ n, ¬ AllActive (phoneCipher checksumAead true) (tables n)) ∧
    ∃ s, RotationRun (phoneCipher checksumAead true) ⟨1, some 0⟩ twoUsers [] s ∧
      s.phase = .finished true := by
  refine ⟨?_, ?_⟩
  · obtain ⟨tables, hzero, hpass⟩ := exists_passes (phoneCipher checksumAead true) 1 1
      (fun _ => sampleIv) twoUsers
    refine ⟨tables, hzero, hpass, ?_⟩
    intro n hact
    have hreach := withinReach_of_passes le_rfl hpass
      (withinReach_of_allActive (fun _ => sampleIv) hact)
    rw [hzero] at hreach
    have haad : encodeFieldContext (piiContext ['v'] .phone) = .ok _ := rfl
    obtain ⟨bytes, rewrapped, hbytes, hrew⟩ := rewrapField_samplePhone checksumAead haad
    have hfalse := hreach.2 ['v'] (by decide +kernel) _ rfl .phone bytes
      (by simp [phoneRow, hbytes, Except.toOption])
    cases rewrapField_eq_ok.mp hrew with
    | stale hstale => cases hstale.symm.trans hfalse
  · exact ⟨_, RotationRun.start.step (fun _ => sampleIv) rfl, rfl⟩

end BoilerplateExpress.Users

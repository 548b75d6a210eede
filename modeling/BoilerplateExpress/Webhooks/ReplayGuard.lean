import BoilerplateExpress.OrderedMap
import BoilerplateExpress.Text

/-!
# The in-process replay guard

`MemoryReplayGuard` of `webhooks/replay-guard.ts`: a bounded map from a nonce key
to the instant its record may be forgotten. Instants are milliseconds and exact
rationals, so a fractional tolerance keeps its fraction.
-/
namespace BoilerplateExpress.Webhooks

open List

inductive ReplayDecision where
  | accepted
  | replayed
  | cacheFull
  deriving DecidableEq, Repr

/-- The constructor refuses a ceiling that is not positive. -/
structure MemoryReplayGuard where
  seen : OrderedMap Text ℚ
  maxEntries : ℕ
  maxEntries_pos : 0 < maxEntries

namespace MemoryReplayGuard

def create (maxEntries : ℕ) (h : 0 < maxEntries) : MemoryReplayGuard :=
  ⟨OrderedMap.empty, maxEntries, h⟩

/-- Drops every expired record. -/
def sweep (guard : MemoryReplayGuard) (now : ℚ) : MemoryReplayGuard :=
  { guard with seen := guard.seen.filter (fun _ expiresAt => decide (now < expiresAt)) }

/-- At capacity the expired records are dropped first. -/
def makeRoom (guard : MemoryReplayGuard) (now : ℚ) : MemoryReplayGuard :=
  if guard.maxEntries ≤ guard.seen.size then guard.sweep now else guard

/-- The tail of `remember`, once no unexpired record of the key is held. -/
def record (guard : MemoryReplayGuard) (key : Text) (expiresAtMs now : ℚ) :
    ReplayDecision × MemoryReplayGuard :=
  let room := guard.makeRoom now
  if room.maxEntries ≤ room.seen.size then (.cacheFull, room)
  else (.accepted, { room with seen := room.seen.set key expiresAtMs })

def remember (guard : MemoryReplayGuard) (key : Text) (expiresAtMs now : ℚ) :
    ReplayDecision × MemoryReplayGuard :=
  match guard.seen.get key with
  | some held =>
    if now < held then (.replayed, guard)
    else record { guard with seen := guard.seen.delete key } key expiresAtMs now
  | none => record guard key expiresAtMs now

/-- No record of the key holds at `now`. -/
def Unseen (guard : MemoryReplayGuard) (key : Text) (now : ℚ) : Prop :=
  ∀ held, guard.seen.get key = some held → held ≤ now

/-- The records that hold at `now` leave room for one more. -/
def HasRoom (guard : MemoryReplayGuard) (now : ℚ) : Prop :=
  (guard.sweep now).seen.size < guard.maxEntries

variable (guard : MemoryReplayGuard) (key : Text) (expiresAtMs now : ℚ)

/-- A record that holds answers the call; otherwise an expired one is gone before the rest. -/
lemma remember_cases :
    (∃ held, guard.seen.get key = some held ∧ now < held ∧
      guard.remember key expiresAtMs now = (.replayed, guard)) ∨
    guard.Unseen key now ∧ ∃ cleared : MemoryReplayGuard, cleared.maxEntries = guard.maxEntries ∧
      cleared.seen.entries.Sublist guard.seen.entries ∧ cleared.seen.get key = none ∧
      (∀ other, other ≠ key → cleared.seen.get other = guard.seen.get other) ∧
      guard.remember key expiresAtMs now = cleared.record key expiresAtMs now := by
  unfold remember
  cases hget : guard.seen.get key with
  | none =>
    refine .inr ⟨?_, guard, rfl, List.Sublist.refl _, hget, fun _ _ => rfl, rfl⟩
    intro held hheld
    cases hget.symm.trans hheld
  | some held =>
    dsimp only
    split_ifs with hlive
    · exact .inl ⟨held, rfl, hlive, rfl⟩
    · refine .inr ⟨?_, { guard with seen := guard.seen.delete key }, rfl, filter_sublist,
        by simp, fun other hne => by simp [hne], rfl⟩
      intro held' hheld
      cases hget.symm.trans hheld
      exact not_lt.mp hlive

/-- A record is refused if as many hold as may, and is otherwise added, after a sweep or without. -/
lemma record_cases :
    (¬ guard.HasRoom now ∧ guard.record key expiresAtMs now = (.cacheFull, guard.sweep now)) ∨
    ∃ room : MemoryReplayGuard, (room = guard ∨ room = guard.sweep now) ∧
      room.seen.size < guard.maxEntries ∧ guard.record key expiresAtMs now =
        (.accepted, { room with seen := room.seen.set key expiresAtMs }) := by
  simp only [record, makeRoom]
  split_ifs with hfull hstill
  · exact .inl ⟨not_lt.mpr hstill, rfl⟩
  · exact .inr ⟨_, .inr rfl, not_le.mp hstill, rfl⟩
  · exact .inr ⟨_, .inl rfl, not_le.mp hfull, rfl⟩

variable {guard now}

/-- An unexpired record survives every call, whatever key the call is about. -/
theorem remember_keeps {other held} (hget : guard.seen.get other = some held) (hlive : now < held) :
    (guard.remember key expiresAtMs now).2.seen.get other = some held := by
  rcases guard.remember_cases key expiresAtMs now with
    ⟨-, -, -, heq⟩ | ⟨huns, cleared, -, -, -, hoth, heq⟩
  · rw [heq]
    exact hget
  · have hne : other ≠ key := by
      rintro rfl
      exact absurd hlive (not_lt.mpr (huns held hget))
    rw [← hoth other hne] at hget
    rw [heq]
    rcases cleared.record_cases key expiresAtMs now with ⟨-, heq⟩ | ⟨room, rfl | rfl, -, heq⟩
    · simp [heq, sweep, hget, hlive]
    · simp [heq, hne, hget]
    · simp [heq, sweep, hne, hget, hlive]

variable {key}

lemma remember_accepted (h : (guard.remember key expiresAtMs now).1 = .accepted) :
    (guard.remember key expiresAtMs now).2.seen.get key = some expiresAtMs := by
  rcases guard.remember_cases key expiresAtMs now with
    ⟨-, -, -, heq⟩ | ⟨-, cleared, -, -, -, -, heq⟩
  · rw [heq] at h
    cases h
  · rw [heq] at h ⊢
    rcases cleared.record_cases key expiresAtMs now with ⟨-, heq⟩ | ⟨room, -, -, heq⟩
    · rw [heq] at h
      cases h
    · simp [heq]

lemma remember_replayed {held} (hget : guard.seen.get key = some held) (hlive : now < held) :
    (guard.remember key expiresAtMs now).1 = .replayed := by simp [remember, hget, hlive]

/-- No more records hold after an expired one is gone. -/
lemma sweep_size_le {cleared : MemoryReplayGuard}
    (h : cleared.seen.entries.Sublist guard.seen.entries) :
    (cleared.sweep now).seen.size ≤ (guard.sweep now).seen.size := (h.filter _).length_le

lemma remember_unseen (huns : guard.Unseen key now) (hroom : guard.HasRoom now) :
    (guard.remember key expiresAtMs now).1 = .accepted := by
  rcases guard.remember_cases key expiresAtMs now with
    ⟨held, hget, hlive, -⟩ | ⟨-, cleared, hmax, hsub, -, -, heq⟩
  · exact absurd hlive (not_lt.mpr (huns held hget))
  · rw [heq]
    rcases cleared.record_cases key expiresAtMs now with ⟨hfull, -⟩ | ⟨room, -, -, heq⟩
    · exact absurd ((sweep_size_le hsub).trans_lt (hmax ▸ hroom)) hfull
    · rw [heq]

/-! ## Whole runs -/

/-- One call of `remember`, with the clock reading it makes. -/
structure RememberCall where
  key : Text
  expiresAtMs : ℚ
  now : ℚ

def answer (guard : MemoryReplayGuard) (call : RememberCall) : ReplayDecision × MemoryReplayGuard :=
  guard.remember call.key call.expiresAtMs call.now

def rememberAll (guard : MemoryReplayGuard) (calls : List RememberCall) : MemoryReplayGuard :=
  calls.foldl (fun guard call => (guard.answer call).2) guard

/-- A call keeps the ceiling and the bound. -/
lemma answer_bounded (call) (h : guard.seen.size ≤ guard.maxEntries) :
    (guard.answer call).2.maxEntries = guard.maxEntries ∧
      (guard.answer call).2.seen.size ≤ guard.maxEntries := by
  unfold answer
  rcases guard.remember_cases call.key call.expiresAtMs call.now with
    ⟨-, -, -, heq⟩ | ⟨-, cleared, hmax, hsub, hnone, -, heq⟩
  · rw [heq]
    exact ⟨rfl, h⟩
  · rw [heq]
    have hle : cleared.seen.size ≤ guard.maxEntries := hsub.length_le.trans h
    have hswept : (cleared.sweep call.now).seen.size ≤ cleared.seen.size := filter_sublist.length_le
    rcases cleared.record_cases call.key call.expiresAtMs call.now with
      ⟨-, heq⟩ | ⟨room, hroom, hlt, heq⟩
    · rw [heq]
      exact ⟨hmax, hswept.trans hle⟩
    · have hkey : room.seen.get call.key = none := by
        rcases hroom with rfl | rfl
        · exact hnone
        · simp [sweep, hnone]
      have hsame : room.maxEntries = cleared.maxEntries := by rcases hroom with rfl | rfl <;> rfl
      rw [heq]
      refine ⟨hsame.trans hmax, ?_⟩
      rw [OrderedMap.size, OrderedMap.entries_set_of_none hkey, length_append, ← hmax]
      exact hlt

lemma rememberAll_bounded (guard : MemoryReplayGuard) (calls)
    (h : guard.seen.size ≤ guard.maxEntries) :
    (guard.rememberAll calls).maxEntries = guard.maxEntries ∧
      (guard.rememberAll calls).seen.size ≤ guard.maxEntries := by
  induction calls generalizing guard with
  | nil => exact ⟨rfl, h⟩
  | cons call calls ih =>
    obtain ⟨hmax, hsize⟩ := answer_bounded call h
    have hrest := ih (guard.answer call).2 (hmax ▸ hsize)
    rwa [hmax] at hrest

lemma rememberAll_keeps {held calls} (hget : guard.seen.get key = some held)
    (hlive : ∀ call ∈ calls, call.now < held) :
    (guard.rememberAll calls).seen.get key = some held := by
  induction calls generalizing guard with
  | nil => exact hget
  | cons call calls ih =>
    rw [forall_mem_cons] at hlive
    exact ih (remember_keeps _ _ hget hlive.1) hlive.2

/-- A call that is not accepted adds nothing, and one that finds the cache full finds as many
records that hold as there may be. -/
lemma answer_refused {call} (h : (guard.answer call).1 ≠ .accepted) :
    (guard.answer call).2.seen.entries.Sublist guard.seen.entries ∧
      ((guard.answer call).1 = .cacheFull →
        guard.maxEntries ≤ (guard.sweep call.now).seen.size) := by
  unfold answer at h ⊢
  rcases guard.remember_cases call.key call.expiresAtMs call.now with
    ⟨-, -, -, heq⟩ | ⟨-, cleared, hmax, hsub, -, -, heq⟩
  · rw [heq]
    exact ⟨List.Sublist.refl _, fun hfull => by cases hfull⟩
  · rw [heq] at h ⊢
    rcases cleared.record_cases call.key call.expiresAtMs call.now with
      ⟨hfull, heq⟩ | ⟨room, -, -, heq⟩
    · rw [heq]
      refine ⟨filter_sublist.trans hsub, fun _ => ?_⟩
      rw [← hmax]
      exact (not_lt.mp hfull).trans (sweep_size_le hsub)
    · rw [heq] at h
      exact absurd rfl h

/-- After every sequence of calls whose clock does not run backwards: the records never exceed the
ceiling, a key that was accepted is not accepted before the expiry of its record, the cache is full
only if as many records hold as there may be, and a refused call adds nothing. -/
theorem replay_guard_bounded (maxEntries : ℕ) (hmax : 0 < maxEntries)
    (before : List RememberCall) (call : RememberCall)
    (hclock : (before ++ [call]).Pairwise (fun c d => c.now ≤ d.now)) :
    let guard := (create maxEntries hmax).rememberAll before
    (guard.answer call).2.seen.size ≤ maxEntries ∧
    (∀ past earlier between, before = past ++ earlier :: between → earlier.key = call.key →
      (((create maxEntries hmax).rememberAll past).answer earlier).1 = .accepted →
      call.now < earlier.expiresAtMs → (guard.answer call).1 = .replayed) ∧
    ((guard.answer call).1 = .cacheFull → (guard.sweep call.now).seen.size = maxEntries) ∧
    ((guard.answer call).1 ≠ .accepted →
      (guard.answer call).2.seen.entries.Sublist guard.seen.entries) := by
  intro guard
  obtain ⟨hsame, hsize⟩ : guard.maxEntries = maxEntries ∧ guard.seen.size ≤ maxEntries :=
    rememberAll_bounded (create maxEntries hmax) before (Nat.zero_le _)
  have hcall := (answer_bounded call (hsame.symm ▸ hsize)).2
  refine ⟨hsame ▸ hcall, ?_, ?_, fun href => (answer_refused href).1⟩
  · intro past earlier between hpre hkey hacc hlive
    have hheld := remember_accepted _ hacc
    rw [hpre, append_assoc, pairwise_append] at hclock
    have hbtw : ∀ c ∈ between, c.now < earlier.expiresAtMs := by
      intro c hc
      have hle := (pairwise_append.mp (pairwise_cons.mp hclock.2.1).2).2.2 c hc call
        (mem_singleton_self _)
      exact hle.trans_lt hlive
    have hkept := rememberAll_keeps hheld hbtw
    refine remember_replayed _ (?_ : _ = some earlier.expiresAtMs) hlive
    rw [← hkey]
    simp only [guard, hpre, rememberAll, foldl_append]
    exact hkept
  · intro hfull
    have hleast := (answer_refused (by rw [hfull]; decide)).2 hfull
    have hmost : (guard.sweep call.now).seen.size ≤ guard.seen.size := filter_sublist.length_le
    exact le_antisymm (hmost.trans hsize) (hsame ▸ hleast)

/-- Two calls with one key, the second before the expiry of the first. -/
theorem replay_guard_bounded_twice :
    let guard := (create 1 Nat.one_pos).rememberAll [⟨['a'], 5, 1⟩]
    (guard.answer ⟨['a'], 9, 2⟩).2.seen.size ≤ 1 ∧ (guard.answer ⟨['a'], 9, 2⟩).1 = .replayed := by
  have h := replay_guard_bounded 1 Nat.one_pos [⟨['a'], 5, 1⟩] ⟨['a'], 9, 2⟩ (by simp)
  exact ⟨h.1, h.2.1 [] _ [] rfl rfl (by decide +kernel) (by norm_num)⟩

end MemoryReplayGuard

end BoilerplateExpress.Webhooks

import BoilerplateExpress.Errors
import BoilerplateExpress.OrderedMap

/-!
# The in-process cache

`MemoryCacheStore` (`lib/route-decorators/cache-store.ts`). The map keeps its keys in the
order in which they were last used, so the first one is the one to give up when the store
is full. The clock may read anything.
-/
namespace BoilerplateExpress.RouteDecorators

structure StoredEntry (V : Type) where
  value : V
  expiresAt : ℚ
  deriving DecidableEq, Repr

structure MemoryCacheStore (V : Type) where
  entries : OrderedMap Text (StoredEntry V)
  maxEntries : ℕ+

namespace MemoryCacheStore

variable {V : Type}

def create (maxEntries : Option ℚ) : Except RangeError (MemoryCacheStore V) :=
  let value := maxEntries.getD 500
  if h : value.den = 1 ∧ 0 < value.num then .ok ⟨OrderedMap.empty, ⟨value.num.toNat, by omega⟩⟩
  else .error ⟨"MemoryCacheStore: maxEntries must be an integer >= 1, received ", value⟩

/-- A hit moves its key to the end; an expired entry is dropped. -/
def get (s : MemoryCacheStore V) (now : ℚ) (key : Text) : MemoryCacheStore V × Option V :=
  match s.entries.get key with
  | none => (s, none)
  | some entry =>
    if entry.expiresAt ≤ now then ({ s with entries := s.entries.delete key }, none)
    else ({ s with entries := (s.entries.delete key).set key entry }, some entry.value)

/-- The first loop of `evictIfNeeded`, over the entries as they were when it began. -/
def dropExpired (now : ℚ) (maxEntries : ℕ) :
    List (Text × StoredEntry V) → OrderedMap Text (StoredEntry V) →
      OrderedMap Text (StoredEntry V)
  | [], m => m
  | e :: rest, m =>
    if m.size ≤ maxEntries then m
    else dropExpired now maxEntries rest (if e.2.expiresAt ≤ now then m.delete e.1 else m)

def evictIfNeeded (s : MemoryCacheStore V) (now : ℚ) : MemoryCacheStore V :=
  let live := dropExpired now s.maxEntries s.entries.entries s.entries
  { s with entries := live.dropFirst (live.size - s.maxEntries) }

def set (s : MemoryCacheStore V) (now : ℚ) (key : Text) (value : V) (ttlMs : ℚ) :
    Except RangeError (MemoryCacheStore V) :=
  if ttlMs ≤ 0 then
    .error ⟨"MemoryCacheStore: ttlMs must be a finite positive number, got ", ttlMs⟩
  else
    .ok ({ s with entries := (s.entries.delete key).set key ⟨value, now + ttlMs⟩ }.evictIfNeeded now)

def clear (s : MemoryCacheStore V) : MemoryCacheStore V := { s with entries := OrderedMap.empty }

variable {now : ℚ} {key : Text} {entry : StoredEntry V}

lemma get_dropExpired {list m} {maxEntries}
    (h : (dropExpired now maxEntries list m).get key = some entry) : m.get key = some entry := by
  induction list generalizing m with
  | nil => exact h
  | cons e rest ih =>
    simp only [dropExpired] at h
    split_ifs at h with hfits hexpired
    · exact h
    · exact (OrderedMap.get_delete_eq_some.mp (ih h)).2
    · exact ih h

lemma get_evictIfNeeded {s : MemoryCacheStore V}
    (h : (s.evictIfNeeded now).entries.get key = some entry) : s.entries.get key = some entry :=
  get_dropExpired (OrderedMap.get_of_get_dropFirst h)

lemma get_spec (s : MemoryCacheStore V) (now key) :
    (∀ k entry, (s.get now key).1.entries.get k = some entry → s.entries.get k = some entry) ∧
      ∀ value, (s.get now key).2 = some value →
        ∃ entry, s.entries.get key = some entry ∧ entry.value = value := by
  unfold get
  cases hentry : s.entries.get key with
  | none => exact ⟨fun _ _ h => h, fun _ h => by cases h⟩
  | some entry =>
    dsimp only
    split_ifs
    · exact ⟨fun _ _ h => (OrderedMap.get_delete_eq_some.mp h).2, fun _ h => by cases h⟩
    · constructor
      · intro k e h
        rcases OrderedMap.get_set_eq_some.mp h with ⟨hk, he⟩ | ⟨_, h⟩
        · rw [hk, ← he]
          exact hentry
        · exact (OrderedMap.get_delete_eq_some.mp h).2
      · intro value h
        exact ⟨entry, rfl, Option.some.inj h⟩

lemma set_spec {value ttlMs k} {s t : MemoryCacheStore V} (h : s.set now key value ttlMs = .ok t)
    (hk : t.entries.get k = some entry) : entry.value = value ∨ s.entries.get k = some entry := by
  unfold set at h
  split_ifs at h
  cases h
  rcases OrderedMap.get_set_eq_some.mp (get_evictIfNeeded hk) with ⟨_, rfl⟩ | ⟨_, hold⟩
  · exact .inl rfl
  · exact .inr (OrderedMap.get_delete_eq_some.mp hold).2

end MemoryCacheStore

end BoilerplateExpress.RouteDecorators

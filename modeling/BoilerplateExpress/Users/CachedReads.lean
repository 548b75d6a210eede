import BoilerplateExpress.Machine
import BoilerplateExpress.RouteDecorators.CacheStore

/-!
# Cached reads of users

`withCache` (`lib/route-decorators/with-cache.ts`) around `list` and `getById` of
`users/users.controller.ts`, with `create`, `update` and `remove`, in one process. Requests
interleave at their awaits.

Commits of the database are numbered. What a read answers is a function of its request and of
the number of commits its query has seen, so the number stands for the answer. A read remembers
how many commits had been reported when it started, and the state which commits were followed by
a `clear`. Nothing in the program reads either.
-/
namespace BoilerplateExpress.Users

open RouteDecorators

inductive Route where
  | list
  | getById
  deriving DecidableEq

/-- The methods a read route is matched by; both are cacheable. -/
inductive ReadMethod where
  | get
  | head
  deriving DecidableEq

def ReadMethod.text : ReadMethod → Text
  | .get => "GET".toList
  | .head => "HEAD".toList

structure ReadRequest where
  route : Route
  userId : Option Text
  method : ReadMethod
  originalUrl : Text
  deriving DecidableEq

def defaultCacheKey (req : ReadRequest) : Text :=
  req.userId.getD "anonymous".toList ++ ':' :: (req.method.text ++ ':' :: req.originalUrl)

def ReadRequest.cacheKey (req : ReadRequest) : Text := "users:".toList ++ defaultCacheKey req

/-- How the shared work of a read settles. -/
inductive ReadResult where
  | found (seen : ℕ)
  /-- A 404 is an answer about the database, but a rejection to the cache. -/
  | notFound (seen : ℕ)
  | failed
  deriving DecidableEq

def ReadResult.seen : ReadResult → Option ℕ
  | .found n => some n
  | .notFound n => some n
  | .failed => none

inductive ReadPhase (ρ : Type) where
  | idle
  /-- The lookup has answered; what it found is not used yet. -/
  | lookedUp (hit : Option ℕ)
  /-- The read waits for the work of another one. -/
  | joined (leader : ρ)
  /-- An attempt of `withRetry` is in progress; `seen` is what its query saw. -/
  | querying (attempt : ℕ) (seen : Option ℕ)
  | backingOff (attempt : ℕ)
  /-- The work is about to settle; the `finally` of `withCache` comes next. -/
  | settling (result : ReadResult)
  | answered (result : ReadResult)
  deriving DecidableEq

structure Reader (ρ : Type) where
  request : ReadRequest
  since : ℕ
  phase : ReadPhase ρ

/-- `create`, `update` or `remove`; the number is that of its own commit. -/
inductive WritePhase where
  | idle
  | working
  | committed (n : ℕ)
  /-- The compare-and-swap has lost. -/
  | conflicted
  | cleared (n : Option ℕ)
  | returned
  | failed
  deriving DecidableEq

/-- `late` says that the deadline of the write has passed and its caller has a 504. -/
structure Writer where
  phase : WritePhase := .idle
  late : Bool := false

structure Reads (ρ ω : Type) where
  now : ℚ
  store : MemoryCacheStore ℕ
  inFlight : Route → Text → Option ρ
  commits : ℕ
  readers : ρ → Reader ρ
  writers : ω → Writer
  returned : ℕ
  cleared : ℕ

inductive ReadsAction (ρ ω : Type) where
  | clock (now : ℚ)
  | startRead (r : ρ) (request : ReadRequest)
  | proceed (r : ρ)
  | evaluate (r : ρ)
  | answer (r : ρ) (found : Bool)
  /-- The attempt in progress fails; another one may follow if the error is transient and the
  request has not been aborted. -/
  | attemptFails (r : ρ) (retryable : Bool)
  /-- The delay before the next attempt is over, or is cut short by an abort. -/
  | retry (r : ρ) (aborted : Bool)
  | finish (r : ρ)
  | takeShared (r : ρ)
  | startWrite (w : ω)
  | commit (w : ω)
  | conflict (w : ω)
  | writeFails (w : ω)
  | clear (w : ω)
  | endWrite (w : ω)
  | deadline (w : ω)

/-- `USER_QUERY_ATTEMPTS`. -/
def userQueryAttempts : ℕ := 3

/-- `USERS_CACHE_TTL_MS`. -/
def usersCacheTtlMs : ℚ := 5000

/-- `usersCache`, cold. -/
def usersCache : MemoryCacheStore ℕ := ⟨OrderedMap.empty, 200⟩

namespace Reads

variable {ρ ω : Type} [DecidableEq ρ] [DecidableEq ω]

def setReader (s : Reads ρ ω) (r : ρ) (phase : ReadPhase ρ) : Reads ρ ω :=
  { s with readers := Function.update s.readers r { s.readers r with phase := phase } }

def setWriter (s : Reads ρ ω) (w : ω) (phase : WritePhase) : Reads ρ ω :=
  { s with writers := Function.update s.writers w { s.writers w with phase := phase } }

def setInFlight (s : Reads ρ ω) (req : ReadRequest) (leader : Option ρ) : Reads ρ ω :=
  { s with inFlight := fun route key =>
      if route = req.route ∧ key = req.cacheKey then leader else s.inFlight route key }

/-- The lookup in the store is made at once; its answer is awaited. -/
def startRead (s : Reads ρ ω) (r : ρ) (req : ReadRequest) : Reads ρ ω :=
  let looked := s.store.get s.now req.cacheKey
  { s with
    store := looked.1
    readers := Function.update s.readers r ⟨req, s.returned, .lookedUp looked.2⟩ }

/-- After the lookup: a hit answers, work in flight is joined, and else work is begun. -/
def proceed (s : Reads ρ ω) (r : ρ) (hit : Option ℕ) : Reads ρ ω :=
  let req := (s.readers r).request
  match hit with
  | some n => s.setReader r (.answered (.found n))
  | none =>
    match s.inFlight req.route req.cacheKey with
    | some leader => s.setReader r (.joined leader)
    | none => (s.setInFlight req (some r)).setReader r (.querying 1 none)

/-- The rows have arrived: a result is stored, a missing user is not. -/
def answer (s : Reads ρ ω) (r : ρ) (seen : ℕ) (found : Bool) : Reads ρ ω :=
  if found then
    match s.store.set s.now (s.readers r).request.cacheKey seen usersCacheTtlMs with
    | .ok store => { s with store := store }.setReader r (.settling (.found seen))
    | .error _ => s.setReader r (.settling .failed)
  else s.setReader r (.settling (.notFound seen))

def clear (s : Reads ρ ω) (w : ω) (n : Option ℕ) : Reads ρ ω :=
  { s with store := s.store.clear, cleared := max s.cleared (n.getD 0) }.setWriter w (.cleared n)

def step (s : Reads ρ ω) : ReadsAction ρ ω → Option (Reads ρ ω)
  | .clock now => some { s with now := now }
  | .startRead r req =>
    match (s.readers r).phase with
    | .idle => some (s.startRead r req)
    | _ => none
  | .proceed r =>
    match (s.readers r).phase with
    | .lookedUp hit => some (s.proceed r hit)
    | _ => none
  | .evaluate r =>
    match (s.readers r).phase with
    | .querying attempt none => some (s.setReader r (.querying attempt (some s.commits)))
    | _ => none
  | .answer r found =>
    match (s.readers r).phase with
    | .querying _ (some seen) => some (s.answer r seen found)
    | _ => none
  | .attemptFails r retryable =>
    match (s.readers r).phase with
    | .querying attempt _ =>
      some (s.setReader r (if attempt < userQueryAttempts ∧ retryable then .backingOff attempt
        else .settling .failed))
    | _ => none
  | .retry r aborted =>
    match (s.readers r).phase with
    | .backingOff attempt =>
      some (s.setReader r (if aborted then .settling .failed else .querying (attempt + 1) none))
    | _ => none
  | .finish r =>
    match (s.readers r).phase with
    | .settling result =>
      some ((s.setInFlight (s.readers r).request none).setReader r (.answered result))
    | _ => none
  | .takeShared r =>
    match (s.readers r).phase with
    | .joined leader =>
      match (s.readers leader).phase with
      | .answered result => some (s.setReader r (.answered result))
      | _ => none
    | _ => none
  | .startWrite w =>
    match (s.writers w).phase with
    | .idle => some (s.setWriter w .working)
    | _ => none
  | .commit w =>
    match (s.writers w).phase with
    | .working => some ({ s with commits := s.commits + 1 }.setWriter w (.committed (s.commits + 1)))
    | _ => none
  | .conflict w =>
    match (s.writers w).phase with
    | .working => some (s.setWriter w .conflicted)
    | _ => none
  | .writeFails w =>
    match (s.writers w).phase with
    | .working => some (s.setWriter w .failed)
    | _ => none
  | .clear w =>
    match (s.writers w).phase with
    | .committed n => some (s.clear w (some n))
    | .conflicted => some (s.clear w none)
    | _ => none
  | .endWrite w =>
    match (s.writers w).phase with
    | .cleared (some n) =>
      if (s.writers w).late then some (s.setWriter w .failed)
      else some ({ s with returned := max s.returned n }.setWriter w .returned)
    | .cleared none => some (s.setWriter w .failed)
    | _ => none
  | .deadline w =>
    some { s with writers := Function.update s.writers w { s.writers w with late := true } }

/-- A cold cache over a database with this many commits. -/
def init (commits : ℕ) (req : ReadRequest) : Reads ρ ω where
  now := 0
  store := usersCache
  inFlight := fun _ _ => none
  commits := commits
  readers := fun _ => ⟨req, 0, .idle⟩
  writers := fun _ => {}
  returned := 0
  cleared := 0

end Reads

/-- The commit that a write has made and not yet cleared the cache after. -/
def WritePhase.commitNumber : WritePhase → Option ℕ
  | .committed n => some n
  | _ => none

/-- The commits that a read has seen, as far as it has looked. -/
def ReadPhase.seen {ρ : Type} : ReadPhase ρ → Option ℕ
  | .lookedUp hit => hit
  | .querying _ seen => seen
  | .settling result => result.seen
  | .answered result => result.seen
  | _ => none

/-- The read has work in flight that others may join. -/
def ReadPhase.unsettled {ρ : Type} : ReadPhase ρ → Bool
  | .querying _ _ => true
  | .backingOff _ => true
  | .settling _ => true
  | _ => false

/-- The read does its own work, or has done it. -/
def ReadPhase.isWork {ρ : Type} : ReadPhase ρ → Bool
  | .answered _ => true
  | phase => phase.unsettled

lemma ReadPhase.isWork_of_unsettled {ρ} {phase : ReadPhase ρ} (h : phase.unsettled = true) :
    phase.isWork = true := by
  unfold isWork
  split
  · rfl
  · exact h

namespace Reads

variable {ρ ω : Type}

/-- No read answers with data from before a write that had returned when the read started.
Nothing older than a returned write is in the cache, or in flight to be joined. -/
structure CacheFresh (s : Reads ρ ω) : Prop where
  answers : ∀ r result, (s.readers r).phase = .answered result →
    ∀ n ∈ result.seen, (s.readers r).since ≤ n
  refills : ∀ key entry, s.store.entries.get key = some entry → s.returned ≤ entry.value
  joinable : ∀ route key r, s.inFlight route key = some r →
    ∀ n ∈ (s.readers r).phase.seen, s.returned ≤ n

def clearer : ReadsAction ρ ω → Option ω
  | .clear w => some w
  | _ => none

/-- When a write clears the cache, no read in flight has seen the database from before its
commit. -/
def NoOlderWork (s : Reads ρ ω) (action : ReadsAction ρ ω) : Prop :=
  ∀ w ∈ clearer action, ∀ n ∈ (s.writers w).phase.commitNumber,
    ∀ r, (s.readers r).phase.unsettled = true → ∀ m ∈ (s.readers r).phase.seen, n ≤ m

instance [Fintype ρ] (s : Reads ρ ω) (action) : Decidable (NoOlderWork s action) := by
  unfold NoOlderWork
  infer_instance

/-- What holds of a read by itself. -/
structure ReaderOk (returned cleared : ℕ) (reader : Reader ρ) : Prop where
  since_le : reader.since ≤ returned
  working : reader.phase.unsettled = true → ∀ n ∈ reader.phase.seen, cleared ≤ n
  own : ∀ n ∈ reader.phase.seen, reader.since ≤ n

structure FreshInv (s : Reads ρ ω) : Prop where
  returned_le : s.returned ≤ s.cleared
  cleared_le : s.cleared ≤ s.commits
  committed_le : ∀ w n, (s.writers w).phase = .committed n → n ≤ s.commits
  write_cleared : ∀ w n, (s.writers w).phase = .cleared (some n) → n ≤ s.cleared
  reader : ∀ r, ReaderOk s.returned s.cleared (s.readers r)
  stored : ∀ key entry, s.store.entries.get key = some entry → s.cleared ≤ entry.value
  shared : ∀ r leader, (s.readers r).phase = .joined leader →
    (s.readers leader).phase.isWork = true ∧
      ∀ n ∈ (s.readers leader).phase.seen, (s.readers r).since ≤ n
  leads : ∀ route key r, s.inFlight route key = some r →
    (s.readers r).phase.unsettled = true ∧ (s.readers r).request.route = route ∧
      (s.readers r).request.cacheKey = key

lemma freshInv_init (commits req) : FreshInv (init commits req : Reads ρ ω) := by
  constructor
  case reader => exact fun r => ⟨le_rfl, nofun, nofun⟩
  all_goals simp [init]

variable {s : Reads ρ ω}

lemma cacheFresh_of_inv (h : FreshInv s) : CacheFresh s := by
  refine ⟨?_, ?_, ?_⟩
  · intro r result hph n hn
    refine (h.reader r).own n ?_
    rw [hph]
    exact hn
  · exact fun key entry he => h.returned_le.trans (h.stored key entry he)
  · intro route key r hr n hn
    exact h.returned_le.trans ((h.reader r).working (h.leads route key r hr).1 n hn)

variable {r : ρ}

/-- Nobody has joined a read that does no work, and it leads nothing. -/
lemma alone_of_not_work (h : FreshInv s) (hwork : (s.readers r).phase.isWork = false) :
    (∀ r', (s.readers r').phase ≠ .joined r) ∧ ∀ route key, s.inFlight route key ≠ some r := by
  constructor
  · intro r' hr'
    have hyes := (h.shared r' r hr').1
    rw [hwork] at hyes
    cases hyes
  · intro route key hr
    have hyes := ReadPhase.isWork_of_unsettled (h.leads route key r hr).1
    rw [hwork] at hyes
    cases hyes

variable [DecidableEq ρ]

variable {reader : Reader ρ}

/-- The record of a read is replaced. What the read has seen is no older than what the readers
that depend on it may be answered with. -/
lemma freshInv_update (h : FreshInv s) (hok : ReaderOk s.returned s.cleared reader)
    (hjoins : ∀ leader, reader.phase = .joined leader → leader ≠ r ∧
      (s.readers leader).phase.isWork = true ∧
      ∀ n ∈ (s.readers leader).phase.seen, reader.since ≤ n)
    (hjoin : ∀ r', (s.readers r').phase = .joined r → reader.phase.isWork = true ∧
      ∀ n ∈ reader.phase.seen, (s.readers r').since ≤ n)
    (hleads : ∀ route key, s.inFlight route key = some r → reader.phase.unsettled = true ∧
      reader.request.route = route ∧ reader.request.cacheKey = key) :
    FreshInv { s with readers := Function.update s.readers r reader } := by
  have hself : Function.update s.readers r reader r = reader := Function.update_self ..
  have hoth : ∀ r', r' ≠ r → Function.update s.readers r reader r' = s.readers r' :=
    fun r' hr' => Function.update_of_ne hr' ..
  refine { h with reader := ?_, shared := ?_, leads := ?_ }
  all_goals dsimp only
  · exact (Function.forall_update_iff s.readers fun _ x => ReaderOk s.returned s.cleared x).mpr
      ⟨hok, fun r' _ => h.reader r'⟩
  · intro r' leader hph
    by_cases hr' : r' = r
    · rw [hr', hself] at hph ⊢
      obtain ⟨hne, hlead⟩ := hjoins leader hph
      rwa [hoth leader hne]
    · rw [hoth r' hr'] at hph ⊢
      by_cases hl : leader = r
      · rw [hl, hself]
        exact hjoin r' (hl ▸ hph)
      · rw [hoth leader hl]
        exact h.shared r' leader hph
  · intro route key r' hfl
    by_cases hr' : r' = r
    · rw [hr', hself]
      exact hleads route key (hr' ▸ hfl)
    · rw [hoth r' hr']
      exact h.leads route key r' hfl

variable {phase : ReadPhase ρ}

/-- A read that has not been at work: nobody has joined it. -/
lemma freshInv_of_not_work (h : FreshInv s) (hidle : (s.readers r).phase.isWork = false)
    (hok : ReaderOk s.returned s.cleared reader)
    (hjoins : ∀ leader, reader.phase = .joined leader → leader ≠ r ∧
      (s.readers leader).phase.isWork = true ∧
      ∀ n ∈ (s.readers leader).phase.seen, reader.since ≤ n) :
    FreshInv { s with readers := Function.update s.readers r reader } := by
  obtain ⟨hnob, hleads⟩ := alone_of_not_work h hidle
  refine freshInv_update h hok hjoins ?_ ?_
  · exact fun r' hr' => absurd hr' (hnob r')
  · exact fun route key hr => absurd hr (hleads route key)

/-- A read that goes on with its work, with nothing seen that it had not seen before, unless
that is the newest state. -/
lemma freshInv_work (h : FreshInv s) (hwork : (s.readers r).phase.unsettled = true)
    (hph : phase.unsettled = true)
    (hseen : ∀ n ∈ phase.seen, n ∈ (s.readers r).phase.seen ∨ n = s.commits) :
    FreshInv (s.setReader r phase) := by
  have hsince : ∀ r', (s.readers r').since ≤ s.commits :=
    fun r' => (h.reader r').since_le.trans (h.returned_le.trans h.cleared_le)
  refine freshInv_update h ⟨(h.reader r).since_le, ?_, ?_⟩ ?_ ?_ ?_
  · intro _ n hn
    rcases hseen n hn with hold | rfl
    · exact (h.reader r).working hwork n hold
    · exact h.cleared_le
  · intro n hn
    rcases hseen n hn with hold | rfl
    · exact (h.reader r).own n hold
    · exact hsince r
  · rintro leader rfl
    cases hph
  · intro r' hr'
    refine ⟨ReadPhase.isWork_of_unsettled hph, ?_⟩
    intro n hn
    rcases hseen n hn with hold | rfl
    · exact (h.shared r' r hr').2 n hold
    · exact hsince r'
  · exact fun route key hr => ⟨hph, (h.leads route key r hr).2⟩

lemma freshInv_startRead (h : FreshInv s) (req) (hidle : (s.readers r).phase = .idle) :
    FreshInv (s.startRead r req) := by
  obtain ⟨hstore, hhit⟩ := MemoryCacheStore.get_spec s.store s.now req.cacheKey
  have hlook : FreshInv { s with store := (s.store.get s.now req.cacheKey).1 } :=
    { h with stored := fun key entry he => h.stored key entry (hstore key entry he) }
  refine freshInv_of_not_work hlook ?_ ⟨le_rfl, nofun, ?_⟩ nofun
  · show (s.readers r).phase.isWork = false
    rw [hidle]
    rfl
  · intro n hn
    obtain ⟨entry, hentry, rfl⟩ := hhit n hn
    exact h.returned_le.trans (h.stored _ entry hentry)

lemma freshInv_proceed {hit} (h : FreshInv s) (hph : (s.readers r).phase = .lookedUp hit) :
    FreshInv (s.proceed r hit) := by
  have hidle : (s.readers r).phase.isWork = false := by
    rw [hph]
    rfl
  unfold proceed
  cases hit with
  | some n =>
    refine freshInv_of_not_work h hidle ⟨(h.reader r).since_le, nofun, ?_⟩ nofun
    intro m hm
    refine (h.reader r).own m ?_
    rw [hph]
    exact hm
  | none =>
    dsimp only
    cases hfl : s.inFlight (s.readers r).request.route (s.readers r).request.cacheKey with
    | some leader =>
      obtain ⟨huns, _⟩ := h.leads _ _ leader hfl
      refine freshInv_of_not_work h hidle ⟨(h.reader r).since_le, nofun, nofun⟩ ?_
      rintro l ⟨⟩
      refine ⟨?_, ?_, ?_⟩
      · rintro rfl
        rw [hph] at huns
        cases huns
      · exact ReadPhase.isWork_of_unsettled huns
      · intro n hn
        have hclear := (h.reader leader).working huns n hn
        exact (h.reader r).since_le.trans (h.returned_le.trans hclear)
    | none =>
      -- the read registers its work first; nothing else is known of it yet
      have hreg : ∀ route key, ((s.setInFlight (s.readers r).request (some r)).setReader r
          (.querying 1 none)).inFlight route key =
          if route = (s.readers r).request.route ∧ key = (s.readers r).request.cacheKey
            then some r else s.inFlight route key := fun _ _ => rfl
      have hread : FreshInv (s.setReader r (.querying 1 none)) :=
        freshInv_of_not_work h hidle ⟨(h.reader r).since_le, nofun, nofun⟩ nofun
      refine { hread with leads := ?_ }
      intro route key r' hr'
      rw [hreg] at hr'
      split_ifs at hr' with hmine
      · obtain rfl : r = r' := Option.some.inj hr'
        obtain ⟨hroute, hkey⟩ := hmine
        have hself : ((s.setInFlight (s.readers r).request (some r)).setReader r
            (.querying 1 none)).readers r = { s.readers r with phase := .querying 1 none } :=
          Function.update_self ..
        rw [hself]
        exact ⟨rfl, hroute.symm, hkey.symm⟩
      · exact hread.leads route key r' hr'

/-- The work of a read settles: the read is answered, and nobody can join it any more. -/
lemma freshInv_finish {result} (h : FreshInv s) (hph : (s.readers r).phase = .settling result) :
    FreshInv ((s.setInFlight (s.readers r).request none).setReader r (.answered result)) := by
  have hrem : ∀ route key r', (s.setInFlight (s.readers r).request none).inFlight route key =
      some r' → s.inFlight route key = some r' ∧ r' ≠ r := by
    intro route key r' hr'
    have hr'' : (if route = (s.readers r).request.route ∧ key = (s.readers r).request.cacheKey
        then none else s.inFlight route key) = some r' := hr'
    split_ifs at hr'' with hmine
    refine ⟨hr'', ?_⟩
    rintro rfl
    obtain ⟨_, hroute, hkey⟩ := h.leads route key r' hr''
    exact hmine ⟨hroute.symm, hkey.symm⟩
  have hless : FreshInv (s.setInFlight (s.readers r).request none) :=
    { h with leads := fun route key r' hr' => h.leads route key r' (hrem route key r' hr').1 }
  have hseen : ∀ n ∈ result.seen, n ∈ (s.readers r).phase.seen := by
    intro n hn
    rw [hph]
    exact hn
  refine freshInv_update hless ⟨(h.reader r).since_le, nofun, ?_⟩ nofun ?_ ?_
  · exact fun n hn => (h.reader r).own n (hseen n hn)
  · exact fun r' hr' => ⟨rfl, fun n hn => (h.shared r' r hr').2 n (hseen n hn)⟩
  · exact fun route key hr => absurd rfl (hrem route key r hr).2

lemma freshInv_answer {attempt seen} (h : FreshInv s)
    (hph : (s.readers r).phase = .querying attempt (some seen)) (found) :
    FreshInv (s.answer r seen found) := by
  have hwork : (s.readers r).phase.unsettled = true := by rw [hph]; rfl
  have hseen : ∀ n ∈ some seen, n ∈ (s.readers r).phase.seen := by
    intro n hn
    rw [hph]
    exact hn
  have hclear : s.cleared ≤ seen := (h.reader r).working hwork seen (hseen seen rfl)
  unfold answer
  cases found with
  | false => exact freshInv_work h hwork rfl (fun n hn => .inl (hseen n hn))
  | true =>
    simp only [if_true]
    split
    · next store hset =>
        have hst : FreshInv { s with store := store } := by
          refine { h with stored := ?_ }
          intro key entry he
          rcases MemoryCacheStore.set_spec hset he with hnew | hold
          · rw [hnew]
            exact hclear
          · exact h.stored key entry hold
        exact freshInv_work hst hwork rfl (fun n hn => .inl (hseen n hn))
    · exact freshInv_work h hwork rfl nofun

lemma freshInv_takeShared {leader result} (h : FreshInv s)
    (hph : (s.readers r).phase = .joined leader)
    (hlead : (s.readers leader).phase = .answered result) :
    FreshInv (s.setReader r (.answered result)) := by
  refine freshInv_of_not_work h (by rw [hph]; rfl) ⟨(h.reader r).since_le, nofun, ?_⟩ nofun
  intro n hn
  refine (h.shared r leader hph).2 n ?_
  rw [hlead]
  exact hn

variable [DecidableEq ω]

omit [DecidableEq ρ] in
lemma freshInv_setWriter (h : FreshInv s) {w} {phase}
    (hcom : ∀ n, phase = .committed n → n ≤ s.commits)
    (hclear : ∀ n, phase = .cleared (some n) → n ≤ s.cleared) :
    FreshInv (s.setWriter w phase) := by
  have hwrit : ∀ w', ((s.setWriter w phase).writers w').phase =
      if w' = w then phase else (s.writers w').phase := by
    intro w'
    unfold setWriter
    dsimp only
    rw [Function.update_apply]
    split_ifs <;> rfl
  refine { h with committed_le := ?_, write_cleared := ?_ }
  · intro w' n
    rw [hwrit]
    split_ifs with heq
    · exact hcom n
    · exact h.committed_le w' n
  · intro w' n
    rw [hwrit]
    split_ifs with heq
    · exact hclear n
    · exact h.write_cleared w' n

omit [DecidableEq ρ] in
lemma freshInv_commit (h : FreshInv s) (w : ω) :
    FreshInv ({ s with commits := s.commits + 1 }.setWriter w (.committed (s.commits + 1))) := by
  have hmore : FreshInv { s with commits := s.commits + 1 } := by
    refine { h with cleared_le := ?_, committed_le := ?_ }
    · have := h.cleared_le
      show s.cleared ≤ s.commits + 1
      omega
    · intro w' n hn
      have := h.committed_le w' n hn
      show n ≤ s.commits + 1
      omega
  refine freshInv_setWriter hmore ?_ nofun
  rintro n ⟨⟩
  exact le_rfl

omit [DecidableEq ρ] in
/-- The cache is emptied; the condition says that no work in flight is older than the write. -/
lemma freshInv_clear (h : FreshInv s) (w : ω) {n} (hcom : n.getD 0 ≤ s.commits)
    (hwork : ∀ r, (s.readers r).phase.unsettled = true →
      ∀ m ∈ (s.readers r).phase.seen, n.getD 0 ≤ m) : FreshInv (s.clear w n) := by
  have hemp : FreshInv { s with store := s.store.clear, cleared := max s.cleared (n.getD 0) } := by
    refine { h with returned_le := ?_, cleared_le := ?_, write_cleared := ?_, stored := nofun,
                    reader := ?_ }
    · exact h.returned_le.trans (le_max_left _ _)
    · exact max_le h.cleared_le hcom
    · exact fun w' m hm => (h.write_cleared w' m hm).trans (le_max_left _ _)
    · exact fun r => { h.reader r with
        working := fun hr m hm => max_le ((h.reader r).working hr m hm) (hwork r hr m hm) }
  refine freshInv_setWriter hemp nofun ?_
  rintro m ⟨⟩
  exact le_max_right s.cleared m

lemma freshInv_step {action t} (h : FreshInv s) (hok : NoOlderWork s action)
    (hstep : s.step action = some t) : FreshInv t := by
  cases action with
  | clock now =>
    cases hstep
    exact { h with }
  | startRead r req =>
    simp only [step] at hstep
    split at hstep <;> cases hstep
    next hph => exact freshInv_startRead h req hph
  | proceed r =>
    simp only [step] at hstep
    split at hstep <;> cases hstep
    next hit hph => exact freshInv_proceed h hph
  | evaluate r =>
    simp only [step] at hstep
    split at hstep <;> cases hstep
    next attempt hph =>
      refine freshInv_work h (by rw [hph]; rfl) rfl ?_
      rintro n ⟨⟩
      exact .inr rfl
  | answer r found =>
    simp only [step] at hstep
    split at hstep <;> cases hstep
    next attempt seen hph => exact freshInv_answer h hph found
  | attemptFails r retryable =>
    simp only [step] at hstep
    split at hstep <;> cases hstep
    next attempt seen hph =>
      split_ifs <;> exact freshInv_work h (by rw [hph]; rfl) rfl nofun
  | retry r aborted =>
    simp only [step] at hstep
    split at hstep <;> cases hstep
    next attempt hph =>
      split_ifs <;> exact freshInv_work h (by rw [hph]; rfl) rfl nofun
  | finish r =>
    simp only [step] at hstep
    split at hstep <;> cases hstep
    next result hph => exact freshInv_finish h hph
  | takeShared r =>
    simp only [step] at hstep
    split at hstep
    · next leader hph =>
        split at hstep <;> cases hstep
        next result hlead => exact freshInv_takeShared h hph hlead
    · cases hstep
  | commit w =>
    simp only [step] at hstep
    split at hstep <;> cases hstep
    exact freshInv_commit h w
  | clear w =>
    simp only [step] at hstep
    split at hstep <;> cases hstep
    · next n hph =>
        refine freshInv_clear h w (h.committed_le w n hph) ?_
        exact hok w rfl n (by rw [hph]; rfl)
    · exact freshInv_clear h w (Nat.zero_le _) (fun _ _ m _ => Nat.zero_le m)
  | endWrite w =>
    simp only [step] at hstep
    split at hstep
    · next n hph =>
        split_ifs at hstep <;> cases hstep
        · exact freshInv_setWriter h nofun nofun
        · have hrep : FreshInv { s with returned := max s.returned n } :=
            { h with
              returned_le := max_le h.returned_le (h.write_cleared w n hph)
              reader := fun r => { h.reader r with
                since_le := (h.reader r).since_le.trans (le_max_left _ _) } }
          exact freshInv_setWriter hrep nofun nofun
    · cases hstep
      exact freshInv_setWriter h nofun nofun
    · cases hstep
  | deadline w =>
    cases hstep
    have hph : ∀ w', (Function.update s.writers w { s.writers w with late := true } w').phase =
        (s.writers w').phase := by
      intro w'
      rw [Function.update_apply]
      split_ifs with heq
      · rw [heq]
      · rfl
    exact
      { h with
        committed_le := fun w' n hn => h.committed_le w' n ((hph w').symm.trans hn)
        write_cleared := fun w' n hn => h.write_cleared w' n ((hph w').symm.trans hn) }
  | _ =>
    simp only [step] at hstep
    split at hstep <;> cases hstep
    exact freshInv_setWriter h nofun nofun

end Reads

open Reads in
/-- In every run in which no write clears the cache while a read in flight has seen the
database from before its commit, the cache never outlives a write. -/
theorem cache_fresh_when_no_older_work {ρ ω : Type} [DecidableEq ρ] [DecidableEq ω] (commits : ℕ)
    (req : ReadRequest) (run : List (ReadsAction ρ ω)) (s : Reads ρ ω)
    (hok : Machine.Guarded step NoOlderWork (init commits req) run)
    (hexec : Machine.exec step (init commits req) run = some s) : s.CacheFresh := by
  have hinv : FreshInv s :=
    Machine.exec_invariant_of_guarded FreshInv
      (fun _ _ _ hs hguard hstep => freshInv_step hs hguard hstep) (freshInv_init commits req)
      hok hexec
  exact cacheFresh_of_inv hinv

/-- `GET /v1/users` by an administrator. -/
def listRequest : ReadRequest := ⟨.list, some "admin".toList, .get, "/v1/users".toList⟩

/-- A read has asked the database for the list. -/
def readInFlight : List (ReadsAction Bool Unit) :=
  [.startRead false listRequest, .proceed false, .evaluate false]

/-- A user is created, and the caller is told. -/
def createUserRun : List (ReadsAction Bool Unit) :=
  [.startWrite (), .commit (), .clear (), .endWrite ()]

/-- The read that was in flight is answered and fills the cache. -/
def refillRun : List (ReadsAction Bool Unit) := [.answer false true, .finish false]

def laterRead : List (ReadsAction Bool Unit) := [.startRead true listRequest, .proceed true]

open Reads in
/-- A read that was answered before the write leaves nothing behind. -/
theorem cache_fresh_after_sequential_write :
    ∃ s, Machine.exec step (init 0 listRequest)
        (readInFlight ++ refillRun ++ createUserRun ++ laterRead ++
          [.evaluate true, .answer true true, .finish true]) = some s ∧
      (s.readers true).phase = .answered (.found 1) ∧ s.CacheFresh := by
  refine Machine.exists_of_seen (fun s => (s.readers true).phase) (.answered (.found 1))
    (by decide +kernel) ?_
  intro s hexec hph
  refine ⟨hph, ?_⟩
  exact cache_fresh_when_no_older_work 0 listRequest _ s (by decide +kernel) hexec

open Reads in
/-- The read in flight refills the cache that the write has cleared, and a later read is
answered from it; or the later read comes first and joins it. -/
theorem cache_outlives_write :
    (∃ s, Machine.exec step (init 0 listRequest)
        (readInFlight ++ createUserRun ++ refillRun ++ laterRead) = some s ∧
      (s.readers true).phase = .answered (.found 0) ∧ (s.readers true).since = 1 ∧
        ¬ s.CacheFresh) ∧
    ∃ s, Machine.exec step (init 0 listRequest)
        (readInFlight ++ createUserRun ++ laterRead ++ refillRun ++ [.takeShared true]) = some s ∧
      (s.readers true).phase = .answered (.found 0) ∧ (s.readers true).since = 1 ∧
        ¬ s.CacheFresh := by
  have hstale : ∀ s : Reads Bool Unit,
      ((s.readers true).phase, (s.readers true).since) = (.answered (.found 0), 1) →
      (s.readers true).phase = .answered (.found 0) ∧ (s.readers true).since = 1 ∧
        ¬ s.CacheFresh := by
    intro s hs
    obtain ⟨hph, hsince⟩ := Prod.mk.inj hs
    refine ⟨hph, hsince, ?_⟩
    intro hfresh
    have hle := hfresh.answers true (.found 0) hph 0 rfl
    omega
  constructor
  · exact Machine.exists_of_seen _ _ (by decide +kernel) (fun s _ => hstale s)
  · exact Machine.exists_of_seen _ _ (by decide +kernel) (fun s _ => hstale s)

end BoilerplateExpress.Users

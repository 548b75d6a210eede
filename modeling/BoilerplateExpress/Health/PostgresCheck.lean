import BoilerplateExpress.Machine

/-!
# The probe of the database

`createPostgresCheck` (`health/checks/postgres.check.ts`) with `withAbort` (`health/with-abort.ts`):
one run of the check. The deadline is a timer, so it never fires between the settling of a promise
and the continuations of that promise, and an action here is an event with all of them. The
continuation that the check registers first releases a client that comes too late; the other one
goes on with the query.
-/
namespace BoilerplateExpress.Health.PostgresCheck

inductive Connect where
  | pending
  | handedOut
  | failed
  deriving DecidableEq

/-- Where `run` stands. -/
inductive Phase where
  /-- In `withAbort`. -/
  | connecting
  /-- Rejected by `withAbort`. -/
  | rejected
  | querying
  | done
  deriving DecidableEq

/-- A call of `client.release`, with what was the case: a failed query, an abort. -/
structure Release where
  destroys : Bool
  queryFailed : Bool
  aborted : Bool

structure Run where
  aborted : Bool
  connect : Connect
  phase : Phase
  releases : List Release

inductive Event where
  | abort
  | connected
  | connectFailed
  | queried
  | queryFailed

/-- `run` up to its first await: `withAbort` rejects at once if the signal is aborted. -/
def Run.start (aborted : Bool) : Run :=
  ⟨aborted, .pending, if aborted then .rejected else .connecting, []⟩

def Run.step (s : Run) : Event → Option Run
  | .abort =>
    if s.aborted then none
    else some { s with
      aborted := true
      phase := if s.phase = .connecting then .rejected else s.phase }
  | .connected =>
    if s.connect ≠ .pending then none
    else some { s with
      connect := .handedOut
      releases := if s.aborted then s.releases ++ [⟨true, false, true⟩] else s.releases
      phase := if s.phase = .connecting then .querying else s.phase }
  | .connectFailed =>
    if s.connect ≠ .pending then none
    else some { s with
      connect := .failed
      phase := if s.phase = .connecting then .rejected else s.phase }
  | .queried =>
    if s.phase ≠ .querying then none
    else some { s with
      phase := .done
      releases := s.releases ++ [⟨s.aborted, false, s.aborted⟩] }
  | .queryFailed =>
    if s.phase ≠ .querying then none
    else some { s with
      phase := .done
      releases := s.releases ++ [⟨true, true, s.aborted⟩] }

/-- The states a run goes through, with what has been released. -/
inductive Sound : Run → Prop
  | connecting : Sound ⟨false, .pending, .connecting, []⟩
  | abandoned : Sound ⟨true, .pending, .rejected, []⟩
  | late : Sound ⟨true, .handedOut, .rejected, [⟨true, false, true⟩]⟩
  | failed (aborted : Bool) : Sound ⟨aborted, .failed, .rejected, []⟩
  | querying (aborted : Bool) : Sound ⟨aborted, .handedOut, .querying, []⟩
  | done (aborted : Bool) {r : Release} (h : r.queryFailed ∨ r.aborted → r.destroys) :
      Sound ⟨aborted, .handedOut, .done, [r]⟩

lemma sound_step {s t e} (h : Sound s) (hstep : s.step e = some t) : Sound t := by
  cases h with
  | connecting =>
    cases e <;> cases hstep
    · exact .abandoned
    · exact .querying false
    · exact .failed false
  | abandoned =>
    cases e <;> cases hstep
    · exact .late
    · exact .failed true
  | late => cases e <;> cases hstep
  | failed aborted =>
    cases aborted <;> cases e <;> cases hstep
    exact .failed true
  | querying aborted =>
    cases aborted <;> cases e <;> cases hstep
    · exact .querying true
    all_goals exact .done _ (by simp)
  | done aborted hr =>
    cases aborted <;> cases e <;> cases hstep
    exact .done true hr

/-- However the events come, a client that was handed out is released once when its query has
settled or nobody waits for it, never before and never again; and it is destroyed if the query
failed or the signal was aborted. -/
theorem client_released_once (aborted : Bool) (events : List Event) (t : Run)
    (h : Machine.exec Run.step (.start aborted) events = some t) :
    (t.releases.length = if t.connect = .handedOut ∧ t.phase ≠ .querying then 1 else 0) ∧
      ∀ r ∈ t.releases, r.queryFailed ∨ r.aborted → r.destroys := by
  have hstart : Sound (.start aborted) := by
    cases aborted
    · exact .connecting
    · exact .abandoned
  cases Machine.exec_invariant Sound (fun _ _ _ => sound_step) hstart h with
  | done aborted hr => simpa using hr
  | _ => simp

theorem late_client_destroyed :
    ∃ t, Machine.exec Run.step (.start false) [.abort, .connected] = some t ∧
      t.releases.length = 1 := ⟨_, rfl, (client_released_once false [.abort, .connected] _ rfl).1⟩

end BoilerplateExpress.Health.PostgresCheck

import BoilerplateExpress.Db.Transaction

/-!
# Advisory locks held by a session

`db/advisory-lock.ts`: the key of a lock, and `withAdvisorySessionLock`, which takes the lock
inside a short transaction, runs the callback while the session holds it, and gives it back.

The flag `held` is assigned inside the `try` and read in the `finally`, so the parts of the
call pass it on beside their outcome.
-/
namespace BoilerplateExpress.Db.Pooled

open Async (request requestAll)

structure AdvisoryLockKey where
  space : String
  name : String
  classId : ℤ
  objId : ℤ

def AdvisoryLockKey.lockName (key : AdvisoryLockKey) : LockName := (key.classId, key.objId)

def assertNonEmpty (label value : String) : Except String Unit :=
  if value.isEmpty then .error ("advisoryLockKey: " ++ label ++ " must be a non-empty string")
  else .ok ()

/-- `hash32` reads the first four bytes of the SHA-256 digest. -/
def advisoryLockKey (hash32 : String → ℤ) (space name : String) :
    Except String AdvisoryLockKey := do
  assertNonEmpty "namespace" space
  assertNonEmpty "name" name
  return ⟨space, name, hash32 space, hash32 name⟩

def formatAdvisoryLockKey (key : AdvisoryLockKey) : String :=
  key.space ++ "/" ++ key.name ++ " (" ++ toString key.classId ++ ", " ++ toString key.objId ++ ")"

inductive LockWait where
  | wait
  | nowait
  deriving DecidableEq, Repr

structure AdvisorySessionLockOptions where
  wait : LockWait := .nowait
  lockTimeoutMs : Option ℚ := none

inductive AdvisoryLockResult (T : Type) where
  | acquired (value : T)
  | notAcquired

variable {Row X T : Type}

/-- A row whose only column is `true`. -/
def Rows.isTrue : Rows Row → Bool
  | .flag value => value
  | .data _ => false

def lockStatement (mode : LockWait) (name : LockName) : Statement :=
  match mode with
  | .wait => .advisoryLock name
  | .nowait => .tryAdvisoryLock name

/-- Under `wait` returning at all is the acquisition. -/
def acquired (mode : LockWait) (rows : Rows Row) : Bool :=
  match mode with
  | .wait => true
  | .nowait => rows.isTrue

/-- What stands inside the inner `try`: the flag, and how it ended. -/
def takeLock (key : AdvisoryLockKey) (mode : LockWait) (settings : List Statement) :
    Script Request (Answer Row X) (Bool × Except (Failure X) Unit) :=
  (requestAll (settings.map (.query .wrapper))).bind fun
    | .error error => .done (false, .error error)
    | .ok _ =>
      (send (lockStatement mode key.lockName)).bind fun
        | .error error => .done (false, .error error)
        | .ok rows =>
          (send .commit).bind fun answer =>
            .done (acquired mode rows, answer.map (fun _ => ()))

/-- The failure of the ROLLBACK itself is suppressed. -/
def rollbackQuietly (held : Bool) (error : Failure X) :
    Script Request (Answer Row X) (Bool × Except (Failure X) Unit) :=
  .ask (.query .wrapper .rollback) (fun _ => .done (held, .error error))

/-- The BEGIN stands outside the inner `try`. -/
def acquire (key : AdvisoryLockKey) (mode : LockWait) (settings : List Statement) :
    Script Request (Answer Row X) (Bool × Except (Failure X) Unit) :=
  (send (.begin none)).bind fun
    | .error error => .done (false, .error error)
    | .ok _ =>
      (takeLock key mode settings).bind fun
        | (held, .ok _) => .done (held, .ok ())
        | (held, .error error) => rollbackQuietly held error

/-- The rest of the `try`. -/
def runHolding (fn : Callback Row X T) (held : Bool) :
    Except (Failure X) Unit → Call Row X (AdvisoryLockResult T)
  | .error error => .done (.error error)
  | .ok _ =>
    if held then
      .ask .enter fun _ => (callback fn).bind fun result =>
        .ask .leave fun _ => .done (result.map .acquired)
    else .done (.ok .notAcquired)

/-- True when the lock is demonstrably released. -/
def unlockQuietly (key : AdvisoryLockKey) : Script Request (Answer Row X) Bool :=
  (send (.advisoryUnlock key.lockName)).bind fun
    | .ok rows => .done rows.isTrue
    | .error _ => .done false

def stillHeld (key : AdvisoryLockKey) (held : Bool) : Script Request (Answer Row X) Bool :=
  if held then (unlockQuietly key).bind fun released => .done (!released) else .done false

/-- Releasing with an error destroys the connection. -/
def releaseError (key : AdvisoryLockKey) (held : Bool) : Option String :=
  if held then some ("advisory lock " ++ formatAdvisoryLockKey key ++ " was not released") else none

/-- The `finally`. -/
def releaseLock (key : AdvisoryLockKey) (held : Bool) (outcome : Except (Failure X) T) :
    Call Row X T :=
  (stillHeld key held).bind fun held =>
    .ask (.release (releaseError key held)) (fun _ => .done outcome)

def withAdvisorySessionLock (key : AdvisoryLockKey) (fn : Callback Row X T)
    (options : AdvisorySessionLockOptions) : Call Row X (AdvisoryLockResult T) :=
  match localSettingStatements { lockTimeoutMs := options.lockTimeoutMs } with
  | .error error => .done (.error (.range error))
  | .ok settings => do
    let _ ← request .connect
    (acquire key options.wait settings).bind fun (held, outcome) =>
      (runHolding fn held outcome).bind fun result => releaseLock key held result

/-! ### The parts of the call -/

/-- A statement of the call itself. -/
def Wrapped (r : Request) : Prop := ∃ q, r = .query .wrapper q

/-- What is sent while the callback runs, its start and its end included. -/
def Holding (r : Request) : Prop := r = .enter ∨ r = .leave ∨ ∃ q, r = .query .callback q

lemma wrapped_acquire (key mode settings) :
    (acquire key mode settings : Script Request (Answer Row X) _).All Wrapped := by
  have htake : (takeLock key mode settings : Script Request (Answer Row X) _).All Wrapped := by
    refine Script.all_bind (Async.all_requestAll ?_) (fun r => ?_)
    · intro r hr
      obtain ⟨q, _, rfl⟩ := List.mem_map.mp hr
      exact ⟨q, rfl⟩
    · cases r with
      | error error => trivial
      | ok _ =>
        refine Script.all_bind (Async.all_request ⟨_, rfl⟩) (fun r => ?_)
        cases r with
        | error error => trivial
        | ok rows => exact Script.all_bind (Async.all_request ⟨_, rfl⟩) (fun _ => trivial)
  refine Script.all_bind (Async.all_request ⟨_, rfl⟩) (fun r => ?_)
  cases r with
  | error error => trivial
  | ok _ =>
    refine Script.all_bind htake (fun r => ?_)
    obtain ⟨held, outcome⟩ := r
    cases outcome with
    | ok _ => trivial
    | error error => exact ⟨⟨_, rfl⟩, fun _ => trivial⟩

def failing : Callback Unit Unit Unit := .done (.error (.thrown ()))

def sampleKey : AdvisoryLockKey := ⟨"jobs", "purge", 1, 7⟩

end BoilerplateExpress.Db.Pooled

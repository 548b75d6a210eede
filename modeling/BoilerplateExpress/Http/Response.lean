import BoilerplateExpress.Text

/-!
# Response objects

The part of an Express response that decides what a client receives, for a request
that is neither `GET` nor `HEAD`: `status`, `write`, `json` and `end`. The status line
goes out with the first call that sends anything and cannot be changed afterwards.
How `json` turns a value into bytes is a parameter; `none` is `undefined`.

A call that throws, or that comes after `end`, sends nothing.
-/
namespace BoilerplateExpress.Http

inductive ResponseCall (V : Type) where
  | status (code : ℕ)
  | write (chunk : Bytes)
  | json (body : Option V)
  | endWith (chunk : Option Bytes)

/-- The calls that put the status line on the wire. -/
def ResponseCall.sends {V : Type} : ResponseCall V → Bool
  | .status _ => false
  | _ => true

/-- A response: the status in force, what went out, and whether it has ended. -/
structure Response where
  statusCode : ℕ
  head : Option ℕ
  sent : Bytes
  ended : Bool
  valid : 100 ≤ statusCode ∧ statusCode ≤ 999
  head_of_ended : ended = true → head.isSome = true
  sent_of_head : head = none → sent = []

/-- What the client has received. -/
structure Received where
  status : Option ℕ
  body : Bytes
  deriving DecidableEq, Repr

/-- Node sends no body with these statuses. -/
def bodiless (status : ℕ) : Bool := status < 200 || status = 204 || status = 304

namespace Response

def fresh : Response where
  statusCode := 200
  head := none
  sent := []
  ended := false
  valid := by omega
  head_of_ended := by simp
  sent_of_head := fun _ => rfl

def received (r : Response) : Received := ⟨r.head, r.sent⟩

/-- Writes bytes, after the status line if that is not out yet. -/
def send (r : Response) (chunk : Bytes) : Response :=
  { r with
    head := some (r.head.getD r.statusCode)
    sent := r.sent ++ if bodiless (r.head.getD r.statusCode) then [] else chunk
    head_of_ended := fun _ => rfl
    sent_of_head := by simp }

/-- Sends the last bytes of the response. -/
def finish (r : Response) (chunk : Bytes) : Response :=
  { r.send chunk with ended := true, head_of_ended := fun _ => rfl }

/-- The bytes of `json`: `send` of Express empties the body of a 205 itself. -/
def jsonBody {V : Type} (serialise : Option V → Bytes) (status : ℕ) (body : Option V) : Bytes :=
  if bodiless status || status = 205 then [] else serialise body

/-- One call on the response itself. `status` refuses a code outside 100 to 999, and
`json` throws once the status line is out. -/
def apply {V : Type} (serialise : Option V → Bytes) (r : Response) : ResponseCall V → Response
  | .status code =>
    if h : 100 ≤ code ∧ code ≤ 999 then { r with statusCode := code, valid := h } else r
  | .write chunk => if r.ended then r else r.send chunk
  | .json body =>
    if r.head.isSome then r
    else r.finish (jsonBody serialise r.statusCode body)
  | .endWith chunk => if r.ended then r else r.finish (chunk.getD [])

def run {V : Type} (serialise : Option V → Bytes) (r : Response) (calls : List (ResponseCall V)) :
    Response :=
  calls.foldl (apply serialise) r

variable {V : Type}

@[simp] lemma run_nil (serialise : Option V → Bytes) (r : Response) :
    r.run serialise [] = r := rfl

@[simp] lemma run_cons (serialise) (r : Response) (c) (calls : List (ResponseCall V)) :
    r.run serialise (c :: calls) = (r.apply serialise c).run serialise calls := rfl

lemma run_append (serialise) (r : Response) (calls calls' : List (ResponseCall V)) :
    r.run serialise (calls ++ calls') = (r.run serialise calls).run serialise calls' :=
  List.foldl_append

lemma head_apply_eq_none (serialise) (r : Response) (c : ResponseCall V) :
    (r.apply serialise c).head = none ↔ r.head = none ∧ c.sends = false := by
  have hended : r.ended → r.head ≠ none := by
    intro h
    exact Option.isSome_iff_ne_none.mp (r.head_of_ended h)
  cases c with
  | status code =>
    simp only [apply]
    split_ifs <;> simp [ResponseCall.sends]
  | write chunk =>
    simp only [apply]
    split_ifs with h
    · simp [hended h]
    · simp [ResponseCall.sends, send]
  | json body =>
    simp only [apply]
    split_ifs with h
    · simp [Option.isSome_iff_ne_none.mp h]
    · simp [ResponseCall.sends, finish, send]
  | endWith chunk =>
    simp only [apply]
    split_ifs with h
    · simp [hended h]
    · simp [ResponseCall.sends, finish, send]

lemma head_run_eq_none (serialise) (r : Response) (calls : List (ResponseCall V)) :
    (r.run serialise calls).head = none ↔ r.head = none ∧ ∀ c ∈ calls, c.sends = false := by
  induction calls generalizing r with
  | nil => simp
  | cons c calls ih =>
    rw [run_cons, ih, head_apply_eq_none]
    simp only [List.mem_cons, forall_eq_or_imp]
    tauto

lemma apply_of_ended (serialise) (r : Response) (c : ResponseCall V) (h : r.ended) :
    (r.apply serialise c).received = r.received ∧ (r.apply serialise c).ended := by
  have hhead := r.head_of_ended h
  cases c with
  | status code =>
    simp only [apply]
    split_ifs
    · exact ⟨rfl, h⟩
    · exact ⟨rfl, h⟩
  | json body => simp [apply, h, hhead]
  | _ => simp [apply, h]

lemma received_run_of_ended (serialise) (r : Response) (calls : List (ResponseCall V))
    (h : r.ended) : (r.run serialise calls).received = r.received := by
  induction calls generalizing r with
  | nil => rfl
  | cons c calls ih =>
    obtain ⟨hrec, hended⟩ := apply_of_ended serialise r c h
    rw [run_cons, ih _ hended, hrec]

lemma finish_received_of_no_head {r : Response} (chunk) (h : r.head = none) :
    (r.finish chunk).received =
      ⟨some r.statusCode, if bodiless r.statusCode then [] else chunk⟩ := by
  simp [finish, send, received, h, r.sent_of_head h]

lemma json_received_of_no_head (serialise) {r : Response} (body : Option V) (h : r.head = none) :
    (r.apply serialise (.json body)).received =
      ⟨some r.statusCode, jsonBody serialise r.statusCode body⟩ := by
  have happly : r.apply serialise (.json body) =
      r.finish (jsonBody serialise r.statusCode body) := by simp [apply, h]
  rw [happly, finish_received_of_no_head _ h]
  unfold jsonBody
  by_cases hbod : bodiless r.statusCode
  · simp [hbod]
  · simp [hbod]

/-- The bytes of the chunks up to the first `end`. -/
def written {V : Type} : List (ResponseCall V) → Bytes
  | [] => []
  | .write chunk :: calls => chunk ++ written calls
  | .endWith chunk :: _ => chunk.getD []
  | _ :: calls => written calls

/-- What follows a status line that the call sends: the body of a `json`, or chunks. -/
def firstBody {V : Type} (serialise : Option V → Bytes) (status : ℕ) :
    ResponseCall V → List (ResponseCall V) → Bytes
  | .json body, _ => jsonBody serialise status body
  | d, calls => if bodiless status then [] else written (d :: calls)

/-- Once the status line is out, the chunks up to the first `end` reach the client. -/
theorem received_run_of_head (serialise : Option V → Bytes) {r : Response} {status : ℕ}
    (hhead : r.head = some status) (hended : r.ended = false) (calls : List (ResponseCall V)) :
    (r.run serialise calls).received =
      ⟨some status, r.sent ++ if bodiless status then [] else written calls⟩ := by
  induction calls generalizing r with
  | nil => simp [received, hhead, written]
  | cons c calls ih =>
    rw [run_cons]
    cases c with
    | status code =>
      obtain ⟨hhead', hended', hsent⟩ : (r.apply serialise (.status code)).head = r.head ∧
          (r.apply serialise (.status code)).ended = r.ended ∧
          (r.apply serialise (.status code)).sent = r.sent := by
        simp only [apply]
        split_ifs <;> exact ⟨rfl, rfl, rfl⟩
      rw [ih (hhead'.trans hhead) (hended'.trans hended), hsent]
      rfl
    | write chunk =>
      have happly : r.apply serialise (.write chunk) = r.send chunk := by simp [apply, hended]
      rw [happly, ih (r := r.send chunk) (by simp [send, hhead]) hended]
      by_cases hbod : bodiless status <;> simp [send, hhead, hbod, written]
    | json body =>
      have happly : r.apply serialise (.json body) = r := by simp [apply, hhead]
      rw [happly, ih hhead hended]
      rfl
    | endWith chunk =>
      have happly : r.apply serialise (.endWith chunk) = r.finish (chunk.getD []) := by
        simp [apply, hended]
      rw [happly, received_run_of_ended serialise _ calls rfl]
      simp [finish, send, received, hhead, written]

/-- The first call that sends anything decides what the client receives. -/
theorem received_run_of_first (serialise : Option V → Bytes) {r : Response} (hhead : r.head = none)
    {d : ResponseCall V} (hsends : d.sends) (calls : List (ResponseCall V)) :
    (r.run serialise (d :: calls)).received =
      ⟨some r.statusCode, firstBody serialise r.statusCode d calls⟩ := by
  have hended : r.ended = false := by
    by_contra hne
    exact absurd (r.head_of_ended (by simpa using hne)) (by simp [hhead])
  -- To a chunk it makes no difference that the status line is already out.
  have hchunk (hsame : (r.send []).apply serialise d = r.apply serialise d) :
      (r.run serialise (d :: calls)).received =
        ⟨some r.statusCode, if bodiless r.statusCode then [] else written (d :: calls)⟩ := by
    have hline : (r.send []).head = some r.statusCode := by simp [send, hhead]
    rw [run_cons, ← hsame, ← run_cons, received_run_of_head serialise hline hended]
    simp [send, r.sent_of_head hhead]
  cases d with
  | status code => cases hsends
  | write chunk => exact hchunk (by simp [apply, send, hhead, hended])
  | json body =>
    have hdone : (r.apply serialise (.json body)).ended := by simp [apply, hhead, finish]
    rw [run_cons, received_run_of_ended serialise _ calls hdone,
      json_received_of_no_head serialise body hhead]
    rfl
  | endWith chunk => exact hchunk (by simp [apply, finish, send, hhead, hended])

end Response

end BoilerplateExpress.Http

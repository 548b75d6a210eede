import Mathlib.Tactic

/-!
# Programs that send queries

An asynchronous function that talks to a server is a tree: it ends, or it sends a query and
goes on with the answer.

The server is a function of its state, the query and a choice. The choices are all that the
program does not control. A run fixes the choice of every exchange in advance, and its log keeps
each exchange with the state it was made in.

`Triple` is the rule of pre- and postconditions, which speak of the result, the state and the log.
-/
namespace BoilerplateExpress

inductive Script (Q A R : Type*) where
  | done (r : R)
  | ask (q : Q) (next : A → Script Q A R)

namespace Script

section Syntax

variable {Q A R R' : Type*}

protected def bind : Script Q A R → (R → Script Q A R') → Script Q A R'
  | .done r, f => f r
  | .ask q next, f => .ask q (fun a => (next a).bind f)

/-- The same program, with each of its queries wrapped. -/
def mapQuery {Q' : Type*} (wrap : Q → Q') : Script Q A R → Script Q' A R
  | .done r => .done r
  | .ask q next => .ask (wrap q) (fun a => (next a).mapQuery wrap)

/-- Every query that the program may send has the property. -/
def All (p : Q → Prop) : Script Q A R → Prop
  | .done _ => True
  | .ask q next => p q ∧ ∀ a, (next a).All p

end Syntax

/-! ### Runs -/

/-- A query, the state it met and the choice that was made for it. -/
structure Exchange (S Q C : Type*) where
  before : S
  query : Q
  choice : C

structure Run (S Q C R : Type*) where
  result : R
  state : S
  log : List (Exchange S Q C)

variable {S Q A C R R' : Type*} (serve : S → Q → C → S × A)

def run : Script Q A R → (ℕ → C) → S → Run S Q C R
  | .done r, _, s => ⟨r, s, []⟩
  | .ask q next, choices, s =>
    let served := serve s q (choices 0)
    let rest := run (next served.2) (fun i => choices (i + 1)) served.1
    ⟨rest.result, rest.state, ⟨s, q, choices 0⟩ :: rest.log⟩

/-- A program followed by another: the second starts where the first ends. -/
theorem run_bind (p) (f : R → Script Q A R') (choices s) :
    run serve (p.bind f) choices s = let before := run serve p choices s
      let later := fun i => choices (i + before.log.length)
      let after := run serve (f before.result) later before.state
      ⟨after.result, after.state, before.log ++ after.log⟩ := by
  induction p generalizing choices s with
  | done r => rfl
  | ask q next ih => simp [Script.bind, run, ih, Nat.add_assoc]

/-- Exchanges that follow one another from one state to another. -/
inductive Linked : S → List (Exchange S Q C) → S → Prop
  | nil (s : S) : Linked s [] s
  | cons {s t : S} {q : Q} {c : C} {log : List (Exchange S Q C)}
      (rest : Linked (serve s q c).1 log t) : Linked s (⟨s, q, c⟩ :: log) t

lemma linked_run (p : Script Q A R) (choices s) :
    Linked serve s (run serve p choices s).log (run serve p choices s).state := by
  induction p generalizing choices s with
  | done r => exact .nil s
  | ask q next ih => exact .cons (ih _ _ _)

/-! ### Pre- and postconditions -/

/-- From every state with `P`, whatever the choices, the run ends as `Post` says. -/
def Triple (P : S → Prop) (p : Script Q A R)
    (Post : R → S → List (Exchange S Q C) → Prop) : Prop :=
  ∀ choices s, P s →
    Post (run serve p choices s).result (run serve p choices s).state (run serve p choices s).log

variable {serve} {P P' : S → Prop} {Post Post' : R → S → List (Exchange S Q C) → Prop}

variable {p : Script Q A R}

lemma Triple.mono (h : Triple serve P p Post) (hpre : ∀ s, P' s → P s)
    (hpost : ∀ r s log, Post r s log → Post' r s log) : Triple serve P' p Post' :=
  fun choices s hs => hpost _ _ _ (h choices s (hpre s hs))

/-- What the precondition says of no state may be taken out of it. -/
theorem triple_of_fact {F} (hfact : ∀ s, P s → F) (h : F → Triple serve P p Post) :
    Triple serve P p Post := fun choices s hs => h (hfact s hs) choices s hs

lemma triple_true (p : Script Q A R) : Triple serve P p (fun _ _ _ => True) :=
  fun _ _ _ => trivial

lemma triple_done {r} (h : ∀ s, P s → Post r s []) : Triple serve P (.done r) Post :=
  fun _ s hs => h s hs

lemma triple_ask {q next}
    (h : ∀ s c, P s → Triple serve (· = (serve s q c).1) (next (serve s q c).2)
      (fun r t log => Post r t (⟨s, q, c⟩ :: log))) : Triple serve P (.ask q next) Post :=
  fun choices s hs => h s (choices 0) hs (fun i => choices (i + 1)) _ rfl

lemma triple_bind {f Mid} {Last : R' → S → List (Exchange S Q C) → Prop}
    (hp : Triple serve P p Mid)
    (hf : ∀ r log, Triple serve (Mid r · log) (f r) (fun r' s log' => Last r' s (log ++ log'))) :
    Triple serve P (p.bind f) Last := by
  intro choices s hs
  rw [run_bind]
  exact hf _ _ _ _ (hp choices s hs)

variable {ok : Q → Prop}

/-- What each query of a program keeps, the program keeps, and each of its exchanges finds it. -/
theorem triple_invariant {I} (hp : p.All ok) (hstep : ∀ s q c, ok q → I s → I (serve s q c).1) :
    Triple serve I p (fun _ s log => I s ∧ ∀ e ∈ log, I e.before ∧ ok e.query) := by
  induction p with
  | done r => exact triple_done (fun s hs => ⟨hs, by simp⟩)
  | ask q next ih =>
    refine triple_ask (fun s c hs => ?_)
    refine (ih (serve s q c).2 (hp.2 _)).mono ?_ ?_
    · rintro _ rfl
      exact hstep s q c hp.1 hs
    · rintro r t log ⟨ht, hlog⟩
      refine ⟨ht, ?_⟩
      intro e he
      rcases List.mem_cons.mp he with rfl | he
      · exact ⟨hs, hp.1⟩
      · exact hlog e he

lemma Triple.and (h : Triple serve P p Post) (h' : Triple serve P p Post') :
    Triple serve P p (fun r s log => Post r s log ∧ Post' r s log) :=
  fun choices s hs => ⟨h choices s hs, h' choices s hs⟩

lemma All.mono {ok'} (h : ∀ q, ok q → ok' q) (hp : p.All ok) : p.All ok' := by
  induction p with
  | done r => trivial
  | ask q next ih => exact ⟨h q hp.1, fun a => ih a (hp.2 a)⟩

lemma all_bind {f : R → Script Q A R'} (hp : p.All ok) (hf : ∀ r, (f r).All ok) :
    (p.bind f).All ok := by
  induction p with
  | done r => exact hf r
  | ask q next ih => exact ⟨hp.1, fun a => ih a (hp.2 a)⟩

lemma all_of_forall (h : ∀ q, ok q) (p : Script Q A R) : p.All ok := by
  induction p with
  | done r => trivial
  | ask q next ih => exact ⟨h q, ih⟩

lemma triple_all (hp : p.All ok) : Triple serve P p (fun _ _ log => ∀ e ∈ log, ok e.query) := by
  refine (triple_invariant (I := fun _ => True) hp (fun _ _ _ _ _ => trivial)).mono
    (fun _ _ => trivial) ?_
  rintro r s log ⟨_, hlog⟩
  exact fun e he => (hlog e he).2

lemma all_mapQuery {Q' wrap} {ok : Q' → Prop} (h : p.All (fun q => ok (wrap q))) :
    (p.mapQuery wrap).All ok := by
  induction p with
  | done r => trivial
  | ask q next ih => exact ⟨h.1, fun a => ih a (h.2 a)⟩

end Script

/-! ### Functions that resolve or reject -/

/-- An asynchronous function. It resolves with a value or rejects with an error. -/
abbrev Async (Q A E T : Type) := Script Q A (Except E T)

namespace Async

variable {Q A E T T' : Type}

/-- `await p`, and on with its value. -/
def andThen (p : Async Q A E T) (f : T → Async Q A E T') : Async Q A E T' :=
  p.bind fun
    | .ok v => f v
    | .error e => .done (.error e)

instance : Monad (Async Q A E) where
  pure v := .done (.ok v)
  bind := andThen

/-- `await` of a query whose answer may be a failure. -/
def request (q : Q) : Async Q (Except E A) E A := .ask q .done

/-- The queries one after another. -/
def requestAll : List Q → Async Q (Except E A) E Unit
  | [] => pure ()
  | q :: qs => do
    let _ ← request q
    requestAll qs

/-- `try { p } catch (e) { handler }`. -/
def catching (p : Async Q A E T) (handler : E → Async Q A E T) : Async Q A E T :=
  p.bind fun
    | .ok v => .done (.ok v)
    | .error e => handler e

variable {ok : Q → Prop}

lemma all_andThen {p} {f : T → Async Q A E T'} (hp : p.All ok) (hf : ∀ v, (f v).All ok) :
    (andThen p f).All ok := by
  refine Script.all_bind hp (fun r => ?_)
  cases r with
  | error e => trivial
  | ok v => exact hf v

lemma all_request {q} (h : ok q) :
    (request q : Async Q (Except E A) E A).All ok := ⟨h, fun _ => trivial⟩

lemma all_requestAll {qs} (h : ∀ q ∈ qs, ok q) :
    (requestAll qs : Async Q (Except E A) E Unit).All ok := by
  induction qs with
  | nil => trivial
  | cons q qs ih =>
    exact all_andThen (all_request (h q List.mem_cons_self))
      (fun _ => ih (fun q' hq' => h q' (List.mem_cons_of_mem q hq')))

section Rules

variable {S C : Type*} {P : S → Prop}

lemma triple_andThen {serve} {p : Async Q A E T} {f Mid}
    {Post : Except E T' → S → List (Script.Exchange S Q C) → Prop}
    (hp : Script.Triple serve P p Mid) (hok : ∀ v log, Script.Triple serve (Mid (.ok v) · log) (f v)
      (fun r s log' => Post r s (log ++ log')))
    (herror : ∀ e s log, Mid (.error e) s log → Post (.error e) s log) :
    Script.Triple serve P (andThen p f) Post := by
  refine Script.triple_bind hp (fun r log => ?_)
  cases r with
  | error e => exact Script.triple_done (fun s hs => by simpa using herror e s log hs)
  | ok v => exact hok v log

lemma triple_catching {serve} {p : Async Q A E T} {handler}
    {Mid Post : Except E T → S → List (Script.Exchange S Q C) → Prop}
    (hp : Script.Triple serve P p Mid) (hok : ∀ v s log, Mid (.ok v) s log → Post (.ok v) s log)
    (herror : ∀ e log, Script.Triple serve (Mid (.error e) · log) (handler e)
      (fun r s log' => Post r s (log ++ log'))) :
    Script.Triple serve P (catching p handler) Post := by
  refine Script.triple_bind hp (fun r log => ?_)
  cases r with
  | error e => exact herror e log
  | ok v => exact Script.triple_done (fun s hs => by simpa using hok v s log hs)

lemma triple_request {serve q} {Post : Except E A → S → List (Script.Exchange S Q C) → Prop}
    (h : ∀ s c, P s → Post (serve s q c).2 (serve s q c).1 [⟨s, q, c⟩]) :
    Script.Triple serve P (request q) Post :=
  Script.triple_ask (fun s c hs => Script.triple_done (by rintro _ rfl; exact h s c hs))

end Rules

end Async
end BoilerplateExpress

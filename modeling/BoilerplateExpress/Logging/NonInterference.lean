import BoilerplateExpress.Logging.Redact

/-!
# What the redactor reveals of values under sensitive keys

Two inputs that differ only under sensitive keys are a pair of heaps with a relation between
their objects: related objects are of one kind and agree in every property whose key is not
sensitive, and the relation is one to one, so that both have the same cycles. The walk then
takes the same path through both, unless it comes to an object of which it reads a sensitive
property without asking the matcher: the name, message, stack and cause of an error, of which the
name is returned without a visit, and the constructor of an object that is not walked.
-/
namespace BoilerplateExpress.Logging

open EventStream (units)
open List

/-! ### Inputs that differ under sensitive keys only -/

section Agreement

variable (sensitive : JsString → Bool) (R : Addr → Addr → Prop)

def AgreeValue : Value → Value → Prop
  | .object a, .object b => R a b
  | v, w => v = w

/-- Values under a key, which may differ if the key is sensitive. -/
def AgreeUnder (key : JsString) (v w : Value) : Prop := sensitive key = true ∨ AgreeValue R v w

def AgreeEntries (entries entries' : List (JsString × Value)) : Prop :=
  List.Forall₂ (fun e f => e.1 = f.1 ∧ AgreeUnder sensitive R e.1 e.2 f.2) entries entries'

structure AgreeError (e f : ErrorObject) : Prop where
  name : AgreeUnder sensitive R (units "name") e.name f.name
  message : AgreeUnder sensitive R (units "message") e.message f.message
  stack : AgreeUnder sensitive R (units "stack") e.stack f.stack
  cause : AgreeUnder sensitive R (units "cause") e.cause f.cause
  entries : AgreeEntries sensitive R e.entries f.entries

/-- The name of a constructor is read under the keys `constructor` and `name`. -/
def AgreeConstructor (name name' : Option JsString) : Prop :=
  sensitive (units "constructor") = true ∨ sensitive (units "name") = true ∨ name = name'

def AgreeOpaque : Opaque → Opaque → Prop
  | .view name byteLength, .view name' byteLength' =>
    byteLength = byteLength' ∧ AgreeConstructor sensitive (some name) (some name')
  | .other name, .other name' => AgreeConstructor sensitive name name'
  | kind, kind' => kind = kind'

def AgreeObject : HeapObject → HeapObject → Prop
  | .date time, .date time' => time = time'
  | .error e, .error f => AgreeError sensitive R e f
  | .array elements, .array elements' =>
    List.Forall₂ (Option.Rel (AgreeValue R)) elements elements'
  | .plain entries, .plain entries' => AgreeEntries sensitive R entries entries'
  | .closed kind, .closed kind' => AgreeOpaque sensitive kind kind'
  | _, _ => False

/-- A one-to-one relation between objects that agree outside sensitive keys. -/
structure Alike (heap heap' : Heap) : Prop where
  objects : ∀ a b, R a b → AgreeObject sensitive R (heap a) (heap' b)
  left_unique : ∀ a b c, R a c → R b c → a = b
  right_unique : ∀ a b c, R a b → R a c → b = c

end Agreement

def DifferOnlyUnderSensitive (sensitive : JsString → Bool) (x y : Input) : Prop :=
  ∃ R, Alike sensitive R x.heap y.heap ∧ AgreeValue R x.value y.value

/-! ### What the walk comes to -/

/-- The values of properties whose keys are not sensitive. -/
def openEntries (sensitive : JsString → Bool) (entries : List (JsString × Value)) : List Value :=
  (entries.filter (fun entry => !sensitive entry.1)).map Prod.snd

/-- The properties of an error that the loop behind its four named ones takes. -/
def ErrorObject.ownEntries (e : ErrorObject) : List (JsString × Value) :=
  e.entries.filter (fun entry => !errorKeys.contains entry.1)

/-- A cause is visited unless it is `undefined`. -/
def causes : Value → List Value
  | .undefined => []
  | cause => [cause]

/-- What the walk visits in an object, in its order. A message that is not a string throws before
anything is visited. -/
def HeapObject.visited (walker : Walker) : HeapObject → List Value
  | .error e =>
    if (visitMessage walker e.message).isSome then
      causes e.cause ++ openEntries walker.isSensitiveKey e.ownEntries
    else []
  | .array elements => (elements.take walker.policy.maxArrayLength).filterMap id
  | .plain entries => openEntries walker.isSensitiveKey entries
  | .date _ | .closed _ => []

/-- What is reached in values that are visited one behind another, up to the first that throws. -/
def reachedIn (visit : Value → Option Rendered) (reached : Value → List Addr) :
    List Value → List Addr
  | [] => []
  | v :: vs => reached v ++ if (visit v).isSome then reachedIn visit reached vs else []

/-- The objects that the walk comes to and looks into. -/
def reached (walker : Walker) (heap : Heap) : ℕ → List Addr → Value → List Addr
  | depth + 1, ancestors, .object a =>
    if a ∈ ancestors then []
    else a :: reachedIn (visit walker heap depth (a :: ancestors))
      (reached walker heap depth (a :: ancestors)) ((heap a).visited walker)
  | _, _, _ => []

def Input.reached (policy : RedactionPolicy) (x : Input) : List Addr :=
  Logging.reached (walkerOf policy) x.heap (policy.maxDepth + 1) [] x.value

/-- The walk reads nothing of the object that the matcher would have refused: its message, if it is
an error, and behind a message that does not throw its name, which is no object, its stack and its
cause; and the constructor of an object that is not walked. -/
def HeapObject.Asked (sensitive : JsString → Bool) : HeapObject → Prop
  | .error e => sensitive (units "message") = false ∧ ∀ text, e.message = .string text →
    (∀ a, e.name ≠ .object a) ∧ sensitive (units "name") = false ∧
      sensitive (units "stack") = false ∧ sensitive (units "cause") = false
  | .closed (.view _ _) | .closed (.other _) =>
    sensitive (units "constructor") = false ∧ sensitive (units "name") = false
  | _ => True

/-! ### The walk takes the same path -/

section Walk

variable {walker : Walker} {R : Addr → Addr → Prop} {f g : Value → Option Rendered}
  {below : Value → List Addr} {Q : Addr → Prop}

lemma forall_reachedIn_cons {v} {vs} :
    (∀ a ∈ reachedIn f below (v :: vs), Q a) ↔
      (∀ a ∈ below v, Q a) ∧ ((f v).isSome → ∀ a ∈ reachedIn f below vs, Q a) := by
  rw [reachedIn, forall_mem_append]
  split_ifs with h <;> simp [h]

/-- The two walks below this level give the same for related values, if what the first of them
reaches is as it should be. -/
def SameBelow (R : Addr → Addr → Prop) (below : Value → List Addr) (Q : Addr → Prop)
    (f g : Value → Option Rendered) : Prop :=
  ∀ v w, AgreeValue R v w → (∀ a ∈ below v, Q a) → f v = g w

/-- A loop over related entries fills the same record. -/
lemma foldlM_visitEntry_eq (hbelow : SameBelow R below Q f g)
    {entries entries'}
    (h : AgreeEntries walker.isSensitiveKey R entries entries')
    (hreach : ∀ a ∈ reachedIn f below (openEntries walker.isSensitiveKey entries), Q a)
    (record : Record) :
    entries.foldlM (visitEntry walker f) record = entries'.foldlM (visitEntry walker g) record := by
  induction h generalizing record with
  | nil => rfl
  | @cons e e' es es' hhead _ ih =>
    rw [foldlM_cons, foldlM_cons]
    cases hkey : walker.isSensitiveKey e.1 with
    | true =>
      simp only [openEntries, filter_cons, hkey, Bool.not_true, Bool.false_eq_true, if_false]
        at hreach
      simp only [visitEntry, visitProperty, ← hhead.1, hkey, if_true]
      exact ih hreach _
    | false =>
      simp only [openEntries, filter_cons, hkey, Bool.not_false, if_true, map_cons,
        forall_reachedIn_cons] at hreach
      have hagree : AgreeValue R e.2 e'.2 := by
        rcases hhead.2 with hsens | hagree
        · rw [hkey] at hsens
          cases hsens
        · exact hagree
      have hsame : f e.2 = g e'.2 := hbelow _ _ hagree hreach.1
      simp only [visitEntry, visitProperty, ← hhead.1, hkey, Bool.false_eq_true, if_false, ← hsame]
      cases hvisit : f e.2 with
      | none => rfl
      | some rendered => exact ih (hreach.2 (by rw [hvisit]; rfl)) _

lemma foldlM_visitErrorEntry (e : ErrorObject) (record : Record) :
    e.entries.foldlM (visitErrorEntry walker f) record =
      e.ownEntries.foldlM (visitEntry walker f) record := by
  rw [ErrorObject.ownEntries, foldlM_filter]
  congr 1
  funext record entry
  cases h : errorKeys.contains entry.1
  · simp only [visitErrorEntry, h, Bool.not_false, if_true, Bool.false_eq_true, if_false]
  · simp only [visitErrorEntry, h, Bool.not_true, if_true, Bool.false_eq_true, if_false]
    rfl

lemma mapM_visitElement_eq (hbelow : SameBelow R below Q f g) {elements elements'}
    (h : List.Forall₂ (Option.Rel (AgreeValue R)) elements elements')
    (hreach : ∀ a ∈ reachedIn f below (elements.filterMap id), Q a) :
    elements.mapM (visitElement f) = elements'.mapM (visitElement g) := by
  induction h with
  | nil => rfl
  | @cons v w vs ws hhead _ ih =>
    rw [mapM_cons, mapM_cons]
    cases hhead with
    | none => rw [visitElement, visitElement, ih hreach]
    | @some v w hvw =>
      have hcons := forall_reachedIn_cons.mp hreach
      rw [visitElement, visitElement, ← hbelow v w hvw hcons.1]
      cases hvisit : f v with
      | none => rfl
      | some rendered => rw [ih (hcons.2 (by rw [hvisit]; rfl))]

variable {v w : Value}

lemma eq_of_agreeValue (hv : ∀ a, v ≠ .object a) (h : AgreeValue R v w) : v = w := by
  cases v with
  | object a => exact absurd rfl (hv a)
  | _ => exact h

lemma bareValue_eq (heap heap' : Heap) (hv : ∀ a, v ≠ .object a) (h : AgreeValue R v w) :
    bareValue heap v = bareValue heap' w := by
  rw [← eq_of_agreeValue hv h]
  cases v with
  | object a => exact absurd rfl (hv a)
  | _ => rfl

/-- Of a value that is read as a string only, related objects do not count. -/
lemma read_eq {β : Type*} {read : Value → β} (hread : ∀ a b, read (.object a) = read (.object b))
    (h : AgreeValue R v w) : read v = read w := by
  cases v with
  | object a =>
    cases w with
    | object b => exact hread a b
    | _ => cases h
  | _ => exact congrArg read h

/-- Related causes add the same to the record, and the walk goes on behind both or neither. -/
lemma visitCause_eq (hbelow : SameBelow R below Q f g) (record : Record) (h : AgreeValue R v w)
    {vs} (hreach : ∀ a ∈ reachedIn f below (causes v ++ vs), Q a) :
    visitCause f record v = visitCause g record w ∧
      ((visitCause f record v).isSome → ∀ a ∈ reachedIn f below vs, Q a) := by
  by_cases hv : v = .undefined
  · subst hv
    obtain rfl : Value.undefined = w := h
    exact ⟨rfl, fun _ => hreach⟩
  · have hw : w ≠ .undefined := by
      rintro rfl
      cases v <;> first | exact hv rfl | cases h
    have hvisits : ∀ (k : Value → Option Rendered) (u : Value), u ≠ .undefined →
        visitCause k record u = (k u).map (assign record (units "cause")) := by
      intro k u hu
      cases u <;> first | exact absurd rfl hu | rfl
    have hcauses : causes v ++ vs = v :: vs := by
      cases v <;> first | exact absurd rfl hv | rfl
    rw [hcauses, forall_reachedIn_cons] at hreach
    rw [hvisits f v hv, hvisits g w hw, ← hbelow v w h hreach.1]
    exact ⟨rfl, fun hsome => hreach.2 (by simpa using hsome)⟩

variable {sensitive : JsString → Bool}

lemma agreeValue_of_open {key} (hkey : sensitive key = false)
    (h : AgreeUnder sensitive R key v w) : AgreeValue R v w := by
  rcases h with hsens | hagree
  · rw [hkey] at hsens
    cases hsens
  · exact hagree

lemma visitError_eq (hbelow : SameBelow R below Q f g) (heap heap' : Heap) {e e' : ErrorObject}
    (hasked : (HeapObject.error e).Asked walker.isSensitiveKey)
    (hreach : ∀ a ∈ reachedIn f below ((HeapObject.error e).visited walker), Q a)
    (h : AgreeError walker.isSensitiveKey R e e') :
    visitError walker f heap e = visitError walker g heap' e' := by
  have hmessage : visitMessage walker e.message = visitMessage walker e'.message :=
    read_eq (fun _ _ => rfl) (agreeValue_of_open hasked.1 h.message)
  rw [visitError, visitError, ← hmessage]
  cases hm : visitMessage walker e.message with
  | none => rfl
  | some message =>
    obtain ⟨text, htext⟩ : ∃ text, e.message = .string text := by
      cases hmsg : e.message with
      | string text => exact ⟨text, rfl⟩
      | _ =>
        rw [hmsg] at hm
        cases hm
    obtain ⟨hplain, hname, hstack, hcause⟩ := hasked.2 text htext
    have hstacks : ∀ record, visitStack walker record e.stack = visitStack walker record e'.stack :=
      fun record => read_eq (fun _ _ => rfl) (agreeValue_of_open hstack h.stack)
    have hnames := bareValue_eq heap heap' hplain (agreeValue_of_open hname h.name)
    simp only [HeapObject.visited, hm, Option.isSome_some, if_true] at hreach
    simp only [Option.bind_eq_bind, Option.bind_some, hnames, hstacks]
    obtain ⟨hcauses, hrest⟩ := visitCause_eq hbelow (visitStack walker
      (none, [(units "name", bareValue heap' e'.name), (units "message", message)]) e'.stack)
      (agreeValue_of_open hcause h.cause) hreach
    rw [← hcauses]
    cases hrecord : visitCause f _ e.cause with
    | none => rfl
    | some record =>
      rw [hrecord] at hrest
      have hown : AgreeEntries walker.isSensitiveKey R e.ownEntries e'.ownEntries :=
        rel_filter (fun _ _ hentry => by simp [hentry.1]) h.entries
      simp only [Option.bind_some, foldlM_visitErrorEntry,
        foldlM_visitEntry_eq hbelow hown (hrest rfl)]

lemma describeOpaque_eq {kind kind'} (hasked : (HeapObject.closed kind).Asked sensitive)
    (h : AgreeOpaque sensitive kind kind') : describeOpaque kind = describeOpaque kind' := by
  have hname : sensitive (units "constructor") = false ∧ sensitive (units "name") = false →
      ∀ {name name' : Option JsString}, AgreeConstructor sensitive name name' → name = name' := by
    rintro ⟨hconstructor, hname⟩ name name' h
    simpa [AgreeConstructor, hconstructor, hname] using h
  cases kind with
  | view name byteLength =>
    cases kind' with
    | view name' byteLength' =>
      obtain ⟨rfl, hagree⟩ := h
      rw [Option.some.inj (hname hasked hagree)]
    | _ => cases h
  | other name =>
    cases kind' with
    | other name' => rw [hname hasked h]
    | _ => cases h
  | _ => exact congrArg describeOpaque h

lemma visitObject_eq (hbelow : SameBelow R below Q f g) (heap heap' : Heap) {o o'}
    (hasked : o.Asked walker.isSensitiveKey)
    (hreach : ∀ a ∈ reachedIn f below (o.visited walker), Q a)
    (h : AgreeObject walker.isSensitiveKey R o o') :
    visitObject walker f heap o = visitObject walker g heap' o' := by
  cases o with
  | date time =>
    cases o' with
    | date time' =>
      obtain rfl : time = time' := h
      rfl
    | _ => cases h
  | error e =>
    cases o' with
    | error e' => exact visitError_eq hbelow heap heap' hasked hreach h
    | _ => cases h
  | array elements =>
    cases o' with
    | array elements' =>
      have hkept := mapM_visitElement_eq hbelow (forall₂_take _ h) hreach
      simp only [visitObject, visitArray, hkept, h.length_eq]
    | _ => cases h
  | plain entries =>
    cases o' with
    | plain entries' =>
      simp only [visitObject, visitPlain, foldlM_visitEntry_eq hbelow h hreach]
    | _ => cases h
  | closed kind =>
    cases o' with
    | closed kind' => simp only [visitObject, describeOpaque_eq hasked h]
    | _ => cases h

/-- Only objects can be told apart by where the walk stands. -/
lemma visitValue_eq {object object'}
    (hobj : ∀ a b, v = .object a → R a b → object a = object' b) (h : AgreeValue R v w) :
    visitValue walker object v = visitValue walker object' w := by
  cases v with
  | object a =>
    cases w with
    | object b => exact hobj a b rfl h
    | _ => cases h
  | _ =>
    obtain rfl := eq_of_agreeValue (by simp) h
    rfl

variable {heap heap' : Heap} {ancestors ancestors' : List Addr}

/-- Related objects have related ancestors, so the same of them are cycles. -/
lemma mem_ancestors_iff (halike : Alike sensitive R heap heap')
    (h : List.Forall₂ R ancestors ancestors') {a b} (hab : R a b) :
    a ∈ ancestors ↔ b ∈ ancestors' := by
  induction h with
  | nil => simp
  | @cons c d _ _ hcd _ ih =>
    have hhead : a = c ↔ b = d := by
      constructor
      · rintro rfl
        exact halike.right_unique a b d hab hcd
      · rintro rfl
        exact halike.left_unique a c b hab hcd
    rw [mem_cons, mem_cons, hhead, ih]

lemma visit_eq (halike : Alike walker.isSensitiveKey R heap heap') (depth : ℕ)
    (h : List.Forall₂ R ancestors ancestors') :
    SameBelow R (reached walker heap depth ancestors)
      (fun a => (heap a).Asked walker.isSensitiveKey) (visit walker heap depth ancestors)
      (visit walker heap' depth ancestors') := by
  induction depth generalizing ancestors ancestors' with
  | zero =>
    intro v w hvw _
    refine visitValue_eq ?_ hvw
    intro a b _ hab
    simp [mem_ancestors_iff halike h hab]
  | succ depth ih =>
    intro v w hvw hasked
    refine visitValue_eq ?_ hvw
    rintro a b rfl hab
    simp only [← mem_ancestors_iff halike h hab]
    split_ifs with hmem
    · rfl
    · rw [reached, if_neg hmem, forall_mem_cons] at hasked
      exact visitObject_eq (ih (.cons hab h)) heap heap' hasked.1 hasked.2 (halike.objects a b hab)

end Walk

/-! ### Objects that are told apart -/

/-- An input of one object without references. -/
def single (o : HeapObject) : Input := ⟨fun _ => o, .object 0⟩

lemma differ_single {sensitive} {o o'}
    (h : AgreeObject sensitive (fun a b => a = 0 ∧ b = 0) o o') :
    DifferOnlyUnderSensitive sensitive (single o) (single o') := by
  refine ⟨fun a b => a = 0 ∧ b = 0, ⟨fun _ _ _ => h, ?_, ?_⟩, rfl, rfl⟩
  · rintro a b c ⟨rfl, _⟩ ⟨rfl, _⟩
    rfl
  · rintro a b c ⟨_, rfl⟩ ⟨_, rfl⟩
    rfl

/-- An error with nothing but its four named properties. -/
def bareError (name message stack cause : Value) : HeapObject :=
  .error ⟨name, message, stack, cause, []⟩

lemma redact_single (policy : RedactionPolicy) (o : HeapObject) :
    redact policy (single o) = (visitObject (walkerOf policy) (visit (walkerOf policy) (fun _ => o)
      policy.maxDepth [0]) (fun _ => o) o).getD (.string unserialisable) := rfl

/-- An error whose name is an object with a password. -/
def namedByObject (password : JsString) : Input where
  heap := fun a =>
    if a = 0 then bareError (.object 1) (.string []) .undefined .undefined
    else .plain [(units "password", .string password)]
  value := .object 0

lemma isSensitiveKey_password (policy : RedactionPolicy) :
    (walkerOf policy).isSensitiveKey (units "password") :=
  (KeyMatcher.isSensitiveKey_spec _ _).1.trans (password_sensitive policy.extraKeys)

/-- Inputs with the same addresses differ as their objects do. -/
lemma differ_of_objects {sensitive} {heap heap'} (value : Value)
    (h : ∀ a, AgreeObject sensitive Eq (heap a) (heap' a)) :
    DifferOnlyUnderSensitive sensitive ⟨heap, value⟩ ⟨heap', value⟩ := by
  refine ⟨Eq, ⟨?_, fun a b c hac hbc => hac.trans hbc.symm, fun a b c hab hac => hab.symm.trans hac⟩,
    ?_⟩
  · rintro a _ rfl
    exact h a
  · cases value <;> exact rfl

lemma differ_namedByObject (policy : RedactionPolicy) (password password' : JsString) :
    DifferOnlyUnderSensitive (walkerOf policy).isSensitiveKey (namedByObject password)
      (namedByObject password') := by
  refine differ_of_objects (.object 0) ?_
  intro a
  by_cases ha : a = 0
  · simp only [if_pos ha]
    exact ⟨.inr rfl, .inr rfl, .inr rfl, .inr rfl, .nil⟩
  · simp only [if_neg ha]
    exact .cons ⟨rfl, .inl (isSensitiveKey_password policy)⟩ .nil

lemma redact_namedByObject (policy : RedactionPolicy) (password : JsString) :
    redact policy (namedByObject password) = .object none
      [(units "name", .bare (.plain [(units "password", .string password)])),
        (units "message", .string (visitString (walkerOf policy) []))] := rfl

lemma redact_namedByObject_ne (policy : RedactionPolicy) {password password'}
    (h : password ≠ password') :
    redact policy (namedByObject password) ≠ redact policy (namedByObject password') := by
  rw [redact_namedByObject, redact_namedByObject]
  simpa using h

/-- Outputs do not depend on values under sensitive keys, for inputs in which the walk comes to no
object of which it reads such a value without asking. Under every policy there are other inputs,
with an object as the name of an error, on which they do. -/
theorem redact_hides_sensitive (policy : RedactionPolicy) :
    (∀ x y, (∀ a ∈ x.reached policy, (x.heap a).Asked (walkerOf policy).isSensitiveKey) →
      DifferOnlyUnderSensitive (walkerOf policy).isSensitiveKey x y →
        redact policy x = redact policy y) ∧
    ∃ x y, DifferOnlyUnderSensitive (walkerOf policy).isSensitiveKey x y ∧
      redact policy x ≠ redact policy y := by
  refine ⟨?_, namedByObject [], namedByObject (units "a"), differ_namedByObject policy _ _,
    redact_namedByObject_ne policy (by decide)⟩
  rintro x y hasked ⟨R, halike, hvalue⟩
  rw [redact, redact, visit_eq halike _ .nil _ _ hvalue hasked]

/-- A failed login in a log line: an error with a token, whose cause is an array with a password
and the line itself. -/
def failedLogin (token password : Value) : Input where
  heap
    | 0 => .plain [(units "user", .string (units "ada")), (units "error", .object 1)]
    | 1 => .error ⟨.string (units "Error"), .string (units "refused"), .undefined, .object 2,
        [(units "token", token)]⟩
    | 2 => .array [some (.object 0), none, some (.object 3)]
    | _ => .plain [(units "password", password)]
  value := .object 0

/-- By default the line is the same for every token and password, and with `extraKeys: ['message']`
an object without errors for every password. -/
theorem redact_hides_failed_login :
    (∀ token token' password password', redact defaultRedactionPolicy (failedLogin token password) =
      redact defaultRedactionPolicy (failedLogin token' password')) ∧
    (let policy := { defaultRedactionPolicy with extraKeys := [units "message"] };
      (walkerOf policy).isSensitiveKey (units "message") = true ∧ ∀ value value',
        redact policy (single (.plain [(units "password", value)])) =
          redact policy (single (.plain [(units "password", value')]))) := by
  constructor
  · intro token token' password password'
    have hopen : (walkerOf defaultRedactionPolicy).isSensitiveKey (units "message") = false ∧
        (walkerOf defaultRedactionPolicy).isSensitiveKey (units "name") = false ∧
        (walkerOf defaultRedactionPolicy).isSensitiveKey (units "stack") = false ∧
        (walkerOf defaultRedactionPolicy).isSensitiveKey (units "cause") = false := by
      decide +kernel
    have htoken : (walkerOf defaultRedactionPolicy).isSensitiveKey (units "token") = true := by
      decide +kernel
    refine (redact_hides_sensitive defaultRedactionPolicy).1 _ _ ?_ ?_
    · intro a _
      match a with
      | 0 | 2 | _ + 3 => trivial
      | 1 =>
        refine ⟨hopen.1, fun _ _ => ⟨?_, hopen.2⟩⟩
        rintro c ⟨⟩
    · refine differ_of_objects (.object 0) ?_
      intro a
      match a with
      | 0 => exact .cons ⟨rfl, .inr rfl⟩ (.cons ⟨rfl, .inr rfl⟩ .nil)
      | 1 => exact ⟨.inr rfl, .inr rfl, .inr rfl, .inr rfl, .cons ⟨rfl, .inl htoken⟩ .nil⟩
      | 2 => exact .cons (.some rfl) (.cons .none (.cons (.some rfl) .nil))
      | _ + 3 => exact .cons ⟨rfl, .inl (isSensitiveKey_password _)⟩ .nil
  · refine ⟨by decide +kernel, fun value value' => ?_⟩
    refine (redact_hides_sensitive _).1 _ _ (fun _ _ => trivial) ?_
    exact differ_single (.cons ⟨rfl, .inl (isSensitiveKey_password _)⟩ .nil)

/-- With `extraKeys: ['message']` the messages of errors are printed, and with the default
policy a password in the name of an error. -/
theorem sensitive_message_and_name_printed :
    (let policy := { defaultRedactionPolicy with extraKeys := [units "message"] }
      ∃ x y, DifferOnlyUnderSensitive (walkerOf policy).isSensitiveKey x y ∧
        x = single (bareError (.string (units "Error")) (.string (units "a")) .undefined .undefined) ∧
        y = single (bareError (.string (units "Error")) (.string (units "b")) .undefined .undefined) ∧
        redact policy x ≠ redact policy y) ∧
    DifferOnlyUnderSensitive (walkerOf defaultRedactionPolicy).isSensitiveKey
      (namedByObject (units "a")) (namedByObject (units "b")) ∧
    redact defaultRedactionPolicy (namedByObject (units "a")) ≠
      redact defaultRedactionPolicy (namedByObject (units "b")) := by
  refine ⟨⟨_, _, differ_single ?_, rfl, rfl, ?_⟩, differ_namedByObject _ _ _,
    redact_namedByObject_ne _ (by decide +kernel)⟩
  · exact ⟨.inr rfl, .inl (by decide +kernel), .inr rfl, .inr rfl, .nil⟩
  · have hne : visitString (walkerOf { defaultRedactionPolicy with extraKeys := [units "message"] })
        (units "a") ≠ visitString (walkerOf { defaultRedactionPolicy with
          extraKeys := [units "message"] }) (units "b") := by decide +kernel
    simpa [redact_single, bareError, visitObject, visitError, visitMessage, visitStack, visitCause,
      bareValue] using hne

end BoilerplateExpress.Logging

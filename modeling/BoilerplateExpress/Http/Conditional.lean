import BoilerplateExpress.Http.EntityTag

/-!
# Conditional reads

`http/conditional.ts`: `If-None-Match`, `If-Modified-Since` and `If-Range` against the
validators of a representation. Times are whole milliseconds; `Date.parse` is a parameter,
`none` standing for `NaN`.
-/
namespace BoilerplateExpress.Http

open EventStream (units)

structure Validators where
  etag : JsString
  lastModified : Option ℤ := none

inductive ReadPrecondition where
  | proceed
  | notModified
  deriving DecidableEq, Repr

structure ConditionalHeaders where
  ifNoneMatch : Option JsString
  ifModifiedSince : Option JsString

/-- A field that cannot be read matches nothing. -/
def matchesIfNoneMatch (header currentETag : JsString) : Bool :=
  if JsString.trim header = units "*" then true
  else
    match parseEntityTagList header, parseEntityTag currentETag with
    | some tags, some current => tags.any (weakMatch · current)
    | _, _ => false

def truncateToSeconds (date : ℤ) : ℤ := date / 1000 * 1000

section Dates

variable (dateParse : JsString → Option ℤ)

def parseHttpDate (value : JsString) : Option ℤ :=
  (dateParse (JsString.trim value)).map truncateToSeconds

/-- With an `If-None-Match` the date counts for nothing. -/
def evaluateReadPreconditions (headers : ConditionalHeaders) (validators : Validators) :
    ReadPrecondition :=
  match headers.ifNoneMatch with
  | some ifNoneMatch =>
    if matchesIfNoneMatch ifNoneMatch validators.etag then .notModified else .proceed
  | none =>
    match headers.ifModifiedSince, validators.lastModified with
    | some ifModifiedSince, some lastModified =>
      match parseHttpDate dateParse ifModifiedSince with
      | none => .proceed
      | some since =>
        if truncateToSeconds lastModified ≤ since then .notModified else .proceed
    | _, _ => .proceed

/-- A failed `If-Range` only means that the range is ignored. -/
def shouldApplyRange (ifRange : Option JsString) (validators : Validators) : Bool :=
  match ifRange with
  | none => true
  | some ifRange =>
    match parseEntityTag ifRange with
    | some tag =>
      match parseEntityTag validators.etag with
      | none => false
      | some current => strongMatch tag current
    | none =>
      match parseHttpDate dateParse ifRange, validators.lastModified with
      | some date, some lastModified => truncateToSeconds lastModified = date
      | _, _ => false

end Dates

end BoilerplateExpress.Http

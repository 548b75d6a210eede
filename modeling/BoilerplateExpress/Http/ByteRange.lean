import BoilerplateExpress.Calendar
import BoilerplateExpress.Http.Conditional
import BoilerplateExpress.Http.Range
import BoilerplateExpress.Http.Response
import BoilerplateExpress.OrderedMap

/-!
# Serving a representation or a part of it

`http/byte-range.ts`: the answer to a `GET` or `HEAD`, in the order in which the
preconditions, `If-Range` and the range are evaluated. A reply is the head as it is when it
goes out, and the body a client receives: with a `HEAD`, and with a status that has no body,
nothing of what is written arrives.

The connection lasts until the body is through, and a stream that was opened does not fail.
-/
namespace BoilerplateExpress.Http

open EventStream (units)
open Calendar (toUTCString)

inductive Method where
  | get
  | head
  | other
  deriving DecidableEq, Repr

/-- The request fields that are read. -/
inductive RequestField where
  | ifNoneMatch
  | ifModifiedSince
  | ifRange
  | range
  deriving DecidableEq, Repr

/-- A field of a Node request: a string, or an array of them. -/
inductive RawHeader where
  | one (value : JsString)
  | many (values : List JsString)

structure Request where
  method : Method
  headers : RequestField → Option RawHeader

def headerValue (request : Request) (name : RequestField) : Option JsString :=
  match request.headers name with
  | none => none
  | some (.one value) => some value
  | some (.many values) => values.head?

/-- The response fields that are set. -/
inductive ReplyField where
  | acceptRanges
  | etag
  | cacheControl
  | lastModified
  | contentType
  | contentLength
  | contentRange
  deriving DecidableEq, Repr

structure Reply where
  status : ℕ := 200
  headers : OrderedMap ReplyField JsString := OrderedMap.empty
  body : Bytes := []

namespace Reply

def setHeader (reply : Reply) (name : ReplyField) (value : JsString) : Reply :=
  { reply with headers := reply.headers.set name value }

/-- Writes the body and ends the response. -/
def finish (reply : Reply) (method : Method) (body : Bytes) : Reply :=
  { reply with body := if method = .head || bodiless reply.status then [] else body }

/-- `res.json` of Express for a status that has a body. The type is set if none is. -/
def json (reply : Reply) (method : Method) (text : JsString) : Reply :=
  let typed := if reply.headers.has .contentType then reply
    else reply.setHeader .contentType (units "application/json; charset=utf-8")
  (typed.setHeader .contentLength (JsString.natUnits text.utf8.length)).finish method text.utf8

end Reply

/-- The JSON text of `fail(code, message)` of `lib/response.ts`. -/
def failText (code message : JsString) : JsString :=
  units "\x7b\"data\":null,\"meta\":null,\"error\":\x7b\"code\":" ++ JsString.jsonQuote code ++
    units ",\"message\":" ++ JsString.jsonQuote message ++ units "\x7d\x7d"

def sendFail (reply : Reply) (method : Method) (statusCode : ℕ) (code message : JsString) : Reply :=
  { reply with status := statusCode }.json method (failText code message)

/-- A representation that can be read an interval at a time. -/
structure ByteSource (ε : Type) where
  size : ℕ
  etag : JsString
  contentType : JsString
  lastModified : Option ℤ
  /-- The chunks of the stream over an interval. -/
  openRange : ByteRange → Except ε (List Bytes)

/-- What is thrown while the head is still unwritten. -/
inductive SendError (ε : Type) where
  | range (error : RangeError)
  | opening (error : ε)

def defaultCacheControl : JsString := units "private, no-cache"

section Serving

variable (toLowerCase : JsString → JsString) (dateParse : JsString → Option ℤ)

def resolveRequestedRange (request : Request) (size : ℕ) (validators : Validators) :
    Except RangeError RangeResolution :=
  match headerValue request .range with
  | none => .ok .ignore
  | some header =>
    if request.method ≠ .get ∧ request.method ≠ .head then .ok .ignore
    else if shouldApplyRange dateParse (headerValue request .ifRange) validators = false then
      .ok .ignore
    else
      match parseRangeHeader toLowerCase header with
      | none => .ok .ignore
      | some specs => resolveRange specs size

variable {ε : Type}

def validatorsOf (source : ByteSource ε) : Validators := ⟨source.etag, source.lastModified⟩

/-- The fields that every answer has. -/
def advertise (reply : Reply) (source : ByteSource ε) (cacheControl : Option JsString) : Reply :=
  let common := ((reply.setHeader .acceptRanges (units "bytes")).setHeader .etag source.etag).setHeader
    .cacheControl (cacheControl.getD defaultCacheControl)
  match source.lastModified with
  | none => common
  | some lastModified => common.setHeader .lastModified (toUTCString lastModified)

/-- `commitHead`: the head of a `206` over a range, or of a `200`. -/
def commitHead (reply : Reply) (source : ByteSource ε) : Option ByteRange → Reply
  | some range =>
    ((({ reply with status := 206 }).setHeader .contentType source.contentType).setHeader
      .contentLength (JsString.natUnits (rangeLength range))).setHeader
      .contentRange (formatContentRange range source.size)
  | none =>
    (({ reply with status := 200 }).setHeader .contentType source.contentType).setHeader
      .contentLength (JsString.natUnits source.size)

/-- The last part of `sendByteRange`: all of the source, or a part of it. The source is opened
before the head is committed, and not at all if there is nothing to send. The interval of an
empty source, which would end before it starts, is never looked at. -/
def sendContent (request : Request) (reply : Reply) (source : ByteSource ε)
    (part : Option ByteRange) : Except (SendError ε) Reply :=
  let range := part.getD ⟨0, source.size - 1⟩
  let length := part.elim source.size rangeLength
  if request.method = .head || length = 0 then
    .ok ((commitHead reply source part).finish request.method [])
  else
    match source.openRange range with
    | .error error => .error (.opening error)
    | .ok stream => .ok ((commitHead reply source part).finish request.method stream.flatten)

def sendByteRange (request : Request) (reply : Reply) (source : ByteSource ε)
    (cacheControl : Option JsString) : Except (SendError ε) Reply :=
  let advertised := advertise reply source cacheControl
  let precondition := evaluateReadPreconditions dateParse
    ⟨headerValue request .ifNoneMatch, headerValue request .ifModifiedSince⟩ (validatorsOf source)
  if precondition = .notModified then
    .ok ({ advertised with status := 304 }.finish request.method [])
  else
    match resolveRequestedRange toLowerCase dateParse request source.size (validatorsOf source) with
    | .error error => .error (.range error)
    | .ok .unsatisfiable =>
      .ok (sendFail
        (advertised.setHeader .contentRange (formatUnsatisfiedRange source.size)) request.method 416
        (units "RANGE_NOT_SATISFIABLE")
        (units "The requested range cannot be satisfied by a " ++ JsString.natUnits source.size ++
          units "-byte representation"))
    | .ok (.range range) => sendContent request advertised source (some range)
    | .ok .ignore => sendContent request advertised source none

end Serving

end BoilerplateExpress.Http

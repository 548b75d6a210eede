import BoilerplateExpress.EventStream
import BoilerplateExpress.OrderedMap
import BoilerplateExpress.Quoted
import Mathlib.Data.Rat.Defs

/-!
# Content negotiation

`http/accept.ts`: the parser of the `Accept` field, the parser of an offer and the choice
among the offers. The weights have at most three decimals, so a number that was read from one
is compared as the decimal it stands for. The lower-casing of strings is a parameter.
-/
namespace BoilerplateExpress.Http

open EventStream (units)

structure MediaType where
  type : JsString
  subtype : JsString
  /-- The parameters of the type itself, without the weight. -/
  parameters : OrderedMap JsString JsString

structure MediaRange extends MediaType where
  quality : ℚ
  /-- The weight was written out. -/
  weighted : Bool

def wildcard : JsString := units "*"

def breadth (range : MediaRange) : ℕ :=
  if range.type = wildcard then 0 else if range.subtype = wildcard then 1 else 2

def moreSpecific (candidate incumbent : MediaRange) : Bool :=
  if breadth candidate ≠ breadth incumbent then breadth incumbent < breadth candidate
  else if candidate.parameters.size ≠ incumbent.parameters.size then
    incumbent.parameters.size < candidate.parameters.size
  else candidate.quality < incumbent.quality

/-- `matches`. Every parameter of the range must be on the offer, but not the other way. -/
def rangeMatches (range : MediaRange) (offer : MediaType) : Bool :=
  (range.type = wildcard ||
    (range.type = offer.type && (range.subtype = wildcard || range.subtype = offer.subtype))) &&
  range.parameters.entries.all (fun parameter => offer.parameters.get parameter.1 = some parameter.2)

def isDigitUnit (u : UInt16) : Bool := 48 ≤ u && u ≤ 57

def isTokenUnit (u : UInt16) : Bool :=
  isDigitUnit u || (65 ≤ u && u ≤ 90) || (97 ≤ u && u ≤ 122) || (units "!#$%&'*+-.^_`|~").contains u

def isToken (value : JsString) : Bool := !value.isEmpty && value.all isTokenUnit

/-- `0` or `1`, with at most three decimals, which are zeros after `1`. -/
def isQuality (value : JsString) : Bool :=
  value = units "0" || value = units "1" ||
    (1 ≤ (value.drop 2).length && (value.drop 2).length ≤ 3 &&
      ((value.take 2 = units "0." && (value.drop 2).all isDigitUnit) ||
        (value.take 2 = units "1." && (value.drop 2).all (fun u => u = 48))))

/-- The decimal of a digit, a point and more digits. -/
def decimal (value : JsString) : ℚ :=
  Text.digitsToNat (JsString.toText (value.take 1)) +
    Text.digitsToNat (JsString.toText (value.drop 2)) / 10 ^ (value.drop 2).length

def parseQuality (value : JsString) : Option ℚ :=
  if isQuality value then some (decimal value) else none

/-- Splits at a delimiter outside quoted strings, in which a backslash escapes. -/
def splitUnquoted (field : JsString) (delimiter : UInt16) : Option (List JsString) :=
  Quoted.split 34 92 delimiter field

def parseParameterValue (raw : JsString) : Option JsString :=
  if raw.head? = some 34 then Quoted.unquote 34 92 false raw.tail
  else if isToken raw then some raw else none

section Parser

variable (toLowerCase : JsString → JsString)

/-- What the loop over the segments after the media type has read. -/
structure Segments where
  quality : ℚ := 1
  weightSeen : Bool := false
  parameters : OrderedMap JsString JsString := OrderedMap.empty

/-- One turn of that loop. After the weight only extensions follow, which are not kept. -/
def readSegment (read : Segments) (segment : JsString) : Option Segments :=
  match Text.cut 61 segment with
  | none => none
  | some (left, right) =>
    let name := toLowerCase (JsString.trim left)
    if isToken name = false then none
    else if name = units "q" then
      match parseQuality (JsString.trim right) with
      | none => none
      | some quality =>
        if read.weightSeen then none else some { read with quality, weightSeen := true }
    else if read.weightSeen then some read
    else
      match parseParameterValue (JsString.trim right) with
      | none => none
      | some value =>
        if read.parameters.has name then none
        else some { read with parameters := read.parameters.set name value }

/-- The type and the subtype. A wildcard type has a wildcard subtype. -/
def readMediaType (mediaType : JsString) : Option (JsString × JsString) :=
  match Text.cut 47 mediaType with
  | none => none
  | some (left, right) =>
    let type := toLowerCase (JsString.trim left)
    let subtype := toLowerCase (JsString.trim right)
    if !(type = wildcard || isToken type) then none
    else if !(subtype = wildcard || isToken subtype) then none
    else if type = wildcard ∧ subtype ≠ wildcard then none
    else some (type, subtype)

def parseMediaRange (member : JsString) : Option MediaRange :=
  match splitUnquoted member 59 with
  | some (mediaType :: rest) => do
    let (type, subtype) ← readMediaType toLowerCase mediaType
    let read ← rest.foldlM (readSegment toLowerCase) {}
    some
      { type, subtype, parameters := read.parameters, quality := read.quality
        weighted := read.weightSeen }
  | _ => none

/-- The members of a field; blank ones count for nothing, one that cannot be read spoils all. -/
def readMembers : List JsString → Option (List MediaRange)
  | [] => some []
  | member :: members =>
    if member.trim = [] then readMembers members
    else
      match parseMediaRange toLowerCase member.trim with
      | none => none
      | some range => (readMembers members).map (range :: ·)

def parseAccept (header : JsString) : Option (List MediaRange) :=
  (splitUnquoted header 44).bind (readMembers toLowerCase)

def parseOffer (offer : JsString) : Option MediaType :=
  match parseMediaRange toLowerCase offer with
  | none => none
  | some parsed =>
    if parsed.type = wildcard ∨ parsed.subtype = wildcard then none
    else if parsed.weighted then none
    else some parsed.toMediaType

/-- One turn of the loop of `qualityFor`. -/
def keepMoreSpecific (offer : MediaType) (best : Option MediaRange) (range : MediaRange) :
    Option MediaRange :=
  if rangeMatches range offer then
    match best with
    | none => some range
    | some incumbent => if moreSpecific range incumbent then some range else some incumbent
  else best

def qualityFor (ranges : List MediaRange) (offer : MediaType) : ℚ :=
  ((ranges.foldl (keepMoreSpecific offer) none).map MediaRange.quality).getD 0

/-- One turn of the loop of `selectMediaType`. -/
def considerOffer (ranges : List MediaRange) (chosen : Option JsString × ℚ) (offer : JsString) :
    Option JsString × ℚ :=
  match parseOffer toLowerCase offer with
  | none => chosen
  | some parsed =>
    if chosen.2 < qualityFor ranges parsed then (some offer, qualityFor ranges parsed) else chosen

def selectMediaType (header : Option JsString) (offered : List JsString) : Option JsString :=
  match header with
  | none => offered.head?
  | some field =>
    match parseAccept toLowerCase field with
    | none => offered.head?
    | some ranges => (offered.foldl (considerOffer toLowerCase ranges) (none, 0)).1

end Parser

end BoilerplateExpress.Http

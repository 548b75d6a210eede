import BoilerplateExpress.Http.ByteRange

/-!
# Resuming a download

A client that holds a part of one representation asks for the rest under `If-Range`, with a
validator it was sent for that part. The entity-tag of one representation never lets a range of
another through. Its date does exactly if both were last modified in the same second, since
that is all a date tells.
-/
namespace BoilerplateExpress.Http

open EventStream (units)
open Calendar (toUTCString)

section Validators

variable {ε : Type}

/-- A validator that is sent with a representation. -/
def Sent (source : ByteSource ε) (validator : JsString) : Prop :=
  ∃ cacheControl, (advertise {} source cacheControl).headers.get .etag = some validator ∨
    (advertise {} source cacheControl).headers.get .lastModified = some validator

lemma sent_iff {validator} {source : ByteSource ε} :
    Sent source validator ↔ validator = source.etag ∨
      ∃ time, source.lastModified = some time ∧ validator = toUTCString time := by
  cases htime : source.lastModified <;>
    simp [Sent, advertise, htime, Reply.setHeader, eq_comm]

/-- The representation has a strong entity-tag with this value. -/
structure StronglyTagged (source : ByteSource ε) (value : JsString) : Prop where
  etag_eq : source.etag = formatEntityTag ⟨false, value⟩
  wellFormed : (⟨false, value⟩ : EntityTag).WellFormed

lemma StronglyTagged.parseEntityTag_eq {value} {source : ByteSource ε}
    (h : StronglyTagged source value) : parseEntityTag source.etag = some ⟨false, value⟩ := by
  rw [h.etag_eq]
  exact parseEntityTag_format h.wellFormed

lemma weekday_units {name} (h : name ∈ Calendar.weekdays) :
    ∃ u v w, units name = [u, v, w] ∧ JsString.isSpace u = false ∧ u ≠ 34 ∧ v ≠ 47 := by
  simp only [Calendar.weekdays, List.mem_cons, List.not_mem_nil, or_false] at h
  rcases h with rfl | rfl | rfl | rfl | rfl | rfl | rfl
  all_goals exact ⟨_, _, _, rfl, by decide, by decide, by decide⟩

lemma trim_toUTCString (time) : JsString.trim (toUTCString time) = toUTCString time := by
  obtain ⟨name, hname, middle, heq⟩ := Calendar.toUTCString_eq time
  obtain ⟨u, v, w, hunits, hspace, -⟩ := weekday_units hname
  apply JsString.trim_eq_self
  · rw [heq, hunits]
    rintro x ⟨⟩
    exact hspace
  · rw [heq, List.getLast?_append]
    intro x hx
    have hzone : (units "GMT").getLast? = some 84 := by decide
    cases hx
    decide

/-- A date is not an entity-tag. -/
lemma parseEntityTag_toUTCString (time) : parseEntityTag (toUTCString time) = none := by
  obtain ⟨name, hname, middle, heq⟩ := Calendar.toUTCString_eq time
  obtain ⟨u, v, w, hunits, -, hquote, hslash⟩ := weekday_units hname
  have hshape : toUTCString time = u :: v :: w :: (middle ++ units "GMT") := by
    rw [heq, hunits]
    rfl
  have hweak : (u :: v :: w :: (middle ++ units "GMT")).take 2 ≠ units "W/" := by
    intro htake
    have hsnd := congrArg (fun l : JsString => l[1]?) htake
    exact hslash (Option.some.inj hsnd)
  have hread : readEntityTag (toUTCString time) = none := by
    rw [hshape, readEntityTag, if_neg hweak, readOpaque, if_neg]
    exact fun h => hquote (Option.some.inj h)
  simp [parseEntityTag, trim_toUTCString, hread]

lemma truncateToSeconds_idem (time) :
    truncateToSeconds (truncateToSeconds time) = truncateToSeconds time := by
  unfold truncateToSeconds
  omega

variable {dateParse : JsString → Option ℤ}

/-- The tag of one representation is no tag of another. -/
lemma shouldApplyRange_tag {a b} {A B : ByteSource ε} (hA : StronglyTagged A a)
    (hB : StronglyTagged B b) (hne : a ≠ b) :
    shouldApplyRange dateParse (some A.etag) (validatorsOf B) = false := by
  have hcur : parseEntityTag (validatorsOf B).etag = some ⟨false, b⟩ := hB.parseEntityTag_eq
  simp [shouldApplyRange, hA.parseEntityTag_eq, hcur, strongMatch, hne]

lemma shouldApplyRange_date {time}
    (hpar : dateParse (toUTCString time) = some (truncateToSeconds time)) (B : ByteSource ε) :
    shouldApplyRange dateParse (some (toUTCString time)) (validatorsOf B) ↔
      ∃ current, B.lastModified = some current ∧
        truncateToSeconds current = truncateToSeconds time := by
  have hdate : parseHttpDate dateParse (toUTCString time) = some (truncateToSeconds time) := by
    rw [parseHttpDate, trim_toUTCString, hpar, Option.map_some, truncateToSeconds_idem]
  cases hcur : B.lastModified with
  | none => simp [shouldApplyRange, parseEntityTag_toUTCString, validatorsOf, hcur]
  | some current =>
    simp [shouldApplyRange, parseEntityTag_toUTCString, hdate, validatorsOf, hcur]

/-- No validator sent with `A` lets a range of `B` through exactly if not both have a date, or
the two dates differ. That `Date.parse` reads the date of `A` as `toUTCString` wrote it is what
the language guarantees. -/
theorem if_range_never_splices_iff {A B : ByteSource ε} {a b : JsString}
    (hA : StronglyTagged A a) (hB : StronglyTagged B b) (hne : a ≠ b)
    (hparse : ∀ time, A.lastModified = some time →
      dateParse (toUTCString time) = some (truncateToSeconds time)) :
    (∀ validator, Sent A validator →
      shouldApplyRange dateParse (some validator) (validatorsOf B) = false) ↔
    ¬ ∃ time current, A.lastModified = some time ∧ B.lastModified = some current ∧
      truncateToSeconds current = truncateToSeconds time := by
  constructor
  · rintro hsafe ⟨time, current, htime, hcur, heq⟩
    have hsent : Sent A (toUTCString time) := sent_iff.mpr (.inr ⟨time, htime, rfl⟩)
    have happ := (shouldApplyRange_date (hparse time htime) B).mpr ⟨current, hcur, heq⟩
    rw [hsafe _ hsent] at happ
    cases happ
  · intro hdiff validator hsent
    rcases sent_iff.mp hsent with htag | ⟨time, htime, hdate⟩
    · rw [htag]
      exact shouldApplyRange_tag hA hB hne
    · rw [hdate, Bool.eq_false_iff]
      intro happ
      obtain ⟨current, hcur, heq⟩ := (shouldApplyRange_date (hparse time htime) B).mp happ
      exact hdiff ⟨time, current, htime, hcur, heq⟩

end Validators

/-- A reader of the one date that matters here. -/
def readSecond (text : JsString) : Option ℤ :=
  if text = units "Thu, 01 Jan 1970 00:00:01 GMT" then some 1000 else none

/-- Two representations of one byte, a tenth of a second apart, and one from the next second. -/
def firstByte : ByteSource Empty := ⟨1, units "\"a\"", units "a/b", some 1200, fun _ => .ok [[1]]⟩

def secondByte : ByteSource Empty := ⟨1, units "\"b\"", units "a/b", some 1300, fun _ => .ok [[2]]⟩

def thirdByte : ByteSource Empty := ⟨1, units "\"c\"", units "a/b", some 2300, fun _ => .ok [[3]]⟩

/-- A range of the first byte under a validator. -/
def resumeWith (validator : JsString) : RequestField → Option RawHeader
  | .range => some (.one (units "bytes=0-"))
  | .ifRange => some (.one validator)
  | _ => none

lemma stronglyTagged_of_all {value} {source : ByteSource Empty}
    (hetag : source.etag = formatEntityTag ⟨false, value⟩) (h : value.all isEtagChar) :
    StronglyTagged source value := ⟨hetag, List.all_eq_true.mp h⟩

lemma sent_firstByte : Sent firstByte (units "Thu, 01 Jan 1970 00:00:01 GMT") :=
  sent_iff.mpr (.inr ⟨1200, rfl, by decide +kernel⟩)

/-- Modified in the next second, the representation is sent whole. -/
theorem if_range_safe_next_second :
    shouldApplyRange readSecond (some (units "\"a\"")) (validatorsOf thirdByte) = false ∧
    shouldApplyRange readSecond (some (units "Thu, 01 Jan 1970 00:00:01 GMT"))
      (validatorsOf thirdByte) = false := by
  have hfst : StronglyTagged firstByte (units "a") :=
    stronglyTagged_of_all (by decide) (by decide)
  have hthird : StronglyTagged thirdByte (units "c") :=
    stronglyTagged_of_all (by decide) (by decide)
  have hpar : ∀ time, firstByte.lastModified = some time →
      readSecond (toUTCString time) = some (truncateToSeconds time) := by
    intro time htime
    cases htime
    decide +kernel
  have hsafe := (if_range_never_splices_iff hfst hthird (by decide) hpar).mpr (by
    rintro ⟨time, current, htime, hcur, heq⟩
    cases htime
    cases hcur
    revert heq
    decide)
  exact ⟨hsafe _ (sent_iff.mpr (.inl (by decide))), hsafe _ sent_firstByte⟩

/-- Modified in the same second, it is spliced onto the bytes of the one before. -/
theorem if_range_splices_within_a_second :
    Sent firstByte (units "Thu, 01 Jan 1970 00:00:01 GMT") ∧
    shouldApplyRange readSecond (some (units "Thu, 01 Jan 1970 00:00:01 GMT"))
      (validatorsOf secondByte) = true ∧
    (sendByteRange id readSecond ⟨.get, resumeWith (units "Thu, 01 Jan 1970 00:00:01 GMT")⟩ {}
      secondByte none).toOption.map (fun reply => (reply.status, reply.body)) = some (206, [2]) := by
  exact ⟨sent_firstByte, by decide +kernel, by decide +kernel⟩

end BoilerplateExpress.Http

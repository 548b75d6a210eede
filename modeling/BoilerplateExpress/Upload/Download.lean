import BoilerplateExpress.Http.ByteRange
import BoilerplateExpress.Http.RangeExact
import BoilerplateExpress.Upload.MemoryProvider

/-!
# Downloads

What a client receives for a stored object. A source that yields exactly the bytes of each
interval it is asked for is answered consistently: the preconditions come first, and then the
status, the length, the interval and the body all describe the same bytes, for a `HEAD` as for
a `GET`. The objects in memory are such sources.
-/
namespace BoilerplateExpress.Upload

open EventStream (units)
open Http
open List

/-- The source yields these bytes. -/
structure Reads {ε : Type} (source : ByteSource ε) (bytes : Bytes) : Prop where
  size_eq : source.size = bytes.length
  size_le : bytes.length ≤ maxSafeInteger
  opens : ∀ range : ByteRange, range.start ≤ range.stop → range.stop < bytes.length →
    ∃ stream, source.openRange range = .ok stream ∧ stream.flatten = slice bytes range

/-- The source the download route makes of an object. -/
def MemoryStorage.source {sha256 : Bytes → JsString} (storage : MemoryStorage sha256)
    (key : JsString) : Option (ByteSource OpenError) :=
  (storage.stat key).map fun stat =>
    { size := stat.size
      etag := stat.etag
      contentType := stat.contentType
      lastModified := some stat.lastModified
      openRange := fun range => storage.openRange key range stat.etag }

lemma MemoryStorage.source_eq {sha256 key blob} {storage : MemoryStorage sha256}
    (hblob : storage.objects.get key = some blob) :
    ∃ source, storage.source key = some source ∧ Reads source blob.bytes ∧
      validatorsOf source = ⟨blob.etag, some blob.storedAt⟩ := by
  simp only [source, stat, hblob, Option.map_some, Option.some.injEq, exists_eq_left']
  refine ⟨⟨rfl, blob.length_le, ?_⟩, rfl⟩
  intro range hle hlt
  refine ⟨chunks (slice blob.bytes range) (slice blob.bytes range).length 0, ?_, ?_⟩
  · have hins : (blob.bytes.length ≤ range.stop || range.stop < range.start) = false := by
      simp only [Bool.or_eq_false_iff, decide_eq_false_iff_not]
      omega
    simp [openRange, hblob, hins]
  · rw [flatten_chunks (by omega), drop_zero]

/-! ### The requested range -/

lemma range_of_resolveSpec {size spec} {range} (h : spec.Ordered)
    (hrange : resolveSpec size spec = .range range) :
    range.start ≤ range.stop ∧ range.stop < size := by
  have hmeans := RangeSpec.means_resolveSpec size h
  rw [hrange] at hmeans
  cases hmeans with
  | @range start stop hle hbytes =>
    have hstop : stop ∈ spec.bytes size := by
      rw [hbytes]
      exact ⟨hle, le_refl _⟩
    refine ⟨hle, ?_⟩
    cases spec with
    | suffix length => exact hstop.2
    | int first last =>
      cases last with
      | none => exact hstop.2
      | some last => exact hstop.2.2

section Serving

variable (toLowerCase : JsString → JsString) (dateParse : JsString → Option ℤ)

/-- A range of safe size is resolved, and an interval lies within the representation. -/
lemma rangeOutcome_within {size} (header) (hsize : size ≤ maxSafeInteger) :
    ∃ outcome, rangeOutcome toLowerCase header size = .ok outcome ∧
      ∀ range, outcome = .range range → range.start ≤ range.stop ∧ range.stop < size := by
  by_cases hsing : ∃ spec, parseRangeHeader toLowerCase header = some [spec]
  · obtain ⟨spec, hpar⟩ := hsing
    obtain ⟨_, -, -, hord⟩ := parseRangeHeader_single_iff.mp hpar
    refine ⟨resolveSpec size spec, ?_, fun range hrange => range_of_resolveSpec hord hrange⟩
    rw [rangeOutcome, hpar]
    exact resolveRange_single hsize spec
  · refine ⟨.ignore, rangeOutcome_of_ne_single (not_exists.mp hsing) hsize, ?_⟩
    intro range hrange
    cases hrange

/-- The request decides first whether its range counts. -/
lemma resolveRequestedRange_cases (request size validators) :
    resolveRequestedRange toLowerCase dateParse request size validators = .ok .ignore ∨
    ∃ header, headerValue request .range = some header ∧
      resolveRequestedRange toLowerCase dateParse request size validators =
        rangeOutcome toLowerCase header size := by
  unfold resolveRequestedRange
  cases headerValue request .range with
  | none => exact .inl rfl
  | some header =>
    split_ifs
    · exact .inl rfl
    · exact .inl rfl
    · exact .inr ⟨header, rfl, rfl⟩

lemma resolveRequestedRange_within {size} (request) (hsize : size ≤ maxSafeInteger) (validators) :
    ∃ resolution,
      resolveRequestedRange toLowerCase dateParse request size validators = .ok resolution ∧
      ∀ range, resolution = .range range → range.start ≤ range.stop ∧ range.stop < size := by
  rcases resolveRequestedRange_cases toLowerCase dateParse request size validators with
    hign | ⟨header, -, hres⟩
  · exact ⟨.ignore, hign, fun range hrange => by cases hrange⟩
  · rw [hres]
    exact rangeOutcome_within toLowerCase header hsize

/-- The precondition of a request. -/
def readPrecondition (request : Request) (validators : Validators) : ReadPrecondition :=
  evaluateReadPreconditions dateParse
    ⟨headerValue request .ifNoneMatch, headerValue request .ifModifiedSince⟩ validators

/-! ### The reply -/

variable {ε : Type} {source : ByteSource ε} {bytes : Bytes}

/-- What is sent after the preconditions: the head for the resolution, and the bytes it
describes. -/
def contentReply (source : ByteSource ε) (bytes : Bytes) (advertised : Reply) (method : Method) :
    RangeResolution → Reply
  | .unsatisfiable =>
    sendFail (advertised.setHeader .contentRange (formatUnsatisfiedRange source.size)) method 416
      (units "RANGE_NOT_SATISFIABLE")
      (units "The requested range cannot be satisfied by a " ++ JsString.natUnits source.size ++
        units "-byte representation")
  | .range range => (commitHead advertised source (some range)).finish method (slice bytes range)
  | .ignore => (commitHead advertised source none).finish method bytes

/-- The end of the serving, with the stream read. A body that is not sent need not be read. -/
lemma sendContent_eq {part} (hreads : Reads source bytes) (request reply)
    (hpart : ∀ range, part = some range → range.start ≤ range.stop ∧ range.stop < bytes.length) :
    sendContent request reply source part =
      .ok ((commitHead reply source part).finish request.method (part.elim bytes (slice bytes))) := by
  have hsize := hreads.size_eq
  by_cases hhead : request.method = .head
  · simp [sendContent, hhead, Reply.finish]
  · cases part with
    | some range =>
      obtain ⟨hle, hlt⟩ := hpart range rfl
      obtain ⟨stream, hopen, hstr⟩ := hreads.opens range hle hlt
      have hlen : rangeLength range ≠ 0 := by rw [rangeLength]; omega
      simp [sendContent, hhead, hlen, hopen, hstr]
    | none =>
      by_cases hemp : source.size = 0
      · have hbytes : bytes = [] := eq_nil_of_length_eq_zero (by omega)
        simp [sendContent, hemp, hbytes]
      · obtain ⟨stream, hopen, hstr⟩ := hreads.opens ⟨0, source.size - 1⟩ (by simp) (by simp; omega)
        have hwhole : slice bytes ⟨0, source.size - 1⟩ = bytes := by
          rw [slice, drop_zero, take_of_length_le (by simp only; omega)]
        simp [sendContent, hhead, hemp, hopen, hstr, hwhole]

/-- The whole of the serving. -/
theorem sendByteRange_eq (hreads : Reads source bytes) (request reply cacheControl) :
    ∃ resolution,
      resolveRequestedRange toLowerCase dateParse request source.size (validatorsOf source) =
        .ok resolution ∧ (∀ range, resolution = .range range →
        range.start ≤ range.stop ∧ range.stop < bytes.length) ∧
      sendByteRange toLowerCase dateParse request reply source cacheControl =
        .ok (if readPrecondition dateParse request (validatorsOf source) = .notModified
          then { advertise reply source cacheControl with status := 304 }.finish request.method []
          else contentReply source bytes (advertise reply source cacheControl) request.method
            resolution) := by
  have hsize : source.size ≤ maxSafeInteger := hreads.size_eq ▸ hreads.size_le
  obtain ⟨resolution, hres, hwi⟩ := resolveRequestedRange_within toLowerCase dateParse
    request hsize (validatorsOf source)
  rw [hreads.size_eq] at hwi
  refine ⟨resolution, hres, hwi, ?_⟩
  by_cases hcond : readPrecondition dateParse request (validatorsOf source) = .notModified
  · rw [if_pos hcond]
    exact if_pos hcond
  · rw [if_neg hcond]
    refine (if_neg hcond).trans ?_
    rw [hres]
    cases resolution with
    | unsatisfiable => rfl
    | ignore => exact sendContent_eq hreads request _ (fun range hrange => by cases hrange)
    | range range =>
      refine sendContent_eq hreads request _ (fun range' hrange => ?_)
      exact hwi range' (by rw [Option.some.inj hrange])

lemma contentReply_head (source : ByteSource ε) (bytes advertised resolution) :
    (contentReply source bytes advertised .head resolution).status =
        (contentReply source bytes advertised .get resolution).status ∧
      (contentReply source bytes advertised .head resolution).headers =
        (contentReply source bytes advertised .get resolution).headers ∧
      (contentReply source bytes advertised .head resolution).body = [] := by
  cases resolution <;> exact ⟨rfl, rfl, rfl⟩

/-- The reply carries the bytes it says it carries. -/
inductive Describes (bytes : Bytes) (reply : Reply) : RangeResolution → Prop
  | whole : reply.status = 200 → reply.headers.get .contentRange = none →
      reply.headers.get .contentLength = some (JsString.natUnits reply.body.length) →
      reply.body = bytes → Describes bytes reply .ignore
  | part {range : ByteRange} : reply.status = 206 →
      reply.headers.get .contentRange = some (formatContentRange range bytes.length) →
      reply.headers.get .contentLength = some (JsString.natUnits reply.body.length) →
      range.start ≤ range.stop → range.stop < bytes.length →
      reply.body.length = rangeLength range →
      (∀ i < rangeLength range, reply.body[i]? = bytes[range.start + i]?) →
      Describes bytes reply (.range range)
  | refused : reply.status = 416 →
      reply.headers.get .contentRange = some (formatUnsatisfiedRange bytes.length) →
      Describes bytes reply .unsatisfiable

lemma getElem?_slice {i} (bytes) {range} (hle : range.start ≤ range.stop)
    (h : i < rangeLength range) : (slice bytes range)[i]? = bytes[range.start + i]? := by
  rw [rangeLength] at h
  rw [slice, getElem?_drop, getElem?_take_of_lt]
  omega

@[simp] lemma get_contentRange_advertise (source : ByteSource ε) (cacheControl) :
    (advertise {} source cacheControl).headers.get .contentRange = none := by
  unfold advertise
  cases source.lastModified <;> simp [Reply.setHeader]

lemma contentReply_describes {resolution} (hreads : Reads source bytes) (cacheControl)
    (hwi : ∀ range, resolution = .range range →
      range.start ≤ range.stop ∧ range.stop < bytes.length) :
    Describes bytes (contentReply source bytes (advertise {} source cacheControl) .get resolution)
      resolution := by
  have hsize := hreads.size_eq
  cases resolution with
  | ignore =>
    refine .whole rfl ?_ ?_ ?_ <;>
      simp [contentReply, commitHead, Reply.finish, Reply.setHeader, bodiless, hsize]
  | unsatisfiable =>
    refine .refused ?_ ?_ <;> simp only [contentReply, sendFail, Reply.json]
    · split_ifs <;> rfl
    · split_ifs <;> simp [Reply.finish, Reply.setHeader, hsize]
  | range range =>
    obtain ⟨hle, hlt⟩ := hwi range rfl
    have hlen : (slice bytes range).length = rangeLength range := by
      rw [slice, length_drop, length_take, rangeLength]
      omega
    have hbody : (contentReply source bytes (advertise {} source cacheControl) .get
        (.range range)).body = slice bytes range := by
      simp [contentReply, commitHead, Reply.finish, Reply.setHeader, bodiless]
    refine .part rfl ?_ ?_ hle hlt (by rw [hbody, hlen]) ?_
    · simp [contentReply, commitHead, Reply.finish, Reply.setHeader, hsize]
    · rw [hbody, hlen]
      simp [contentReply, commitHead, Reply.finish, Reply.setHeader]
    · intro i hi
      rw [hbody, getElem?_slice bytes hle hi]

/-- Every request for a stored object is answered, a `HEAD` with the head of the `GET`. If the
precondition says so the answer is a `304` without a body, whatever the range; otherwise it is
the `416`, `206` or `200` of the resolved range, with the bytes it describes. -/
theorem byte_serving_consistent {sha256 : Bytes → JsString} (storage : MemoryStorage sha256)
    (key : JsString) (blob : StoredBlob sha256) (hblob : storage.objects.get key = some blob)
    (headers : RequestField → Option RawHeader) (cacheControl : Option JsString) :
    ∃ source get head resolution,
      storage.source key = some source ∧
      sendByteRange toLowerCase dateParse ⟨.get, headers⟩ {} source cacheControl = .ok get ∧
      sendByteRange toLowerCase dateParse ⟨.head, headers⟩ {} source cacheControl = .ok head ∧
      head.status = get.status ∧ head.headers = get.headers ∧ head.body = [] ∧
      resolveRequestedRange toLowerCase dateParse ⟨.get, headers⟩ blob.bytes.length
        ⟨blob.etag, some blob.storedAt⟩ = .ok resolution ∧
      (readPrecondition dateParse ⟨.get, headers⟩ ⟨blob.etag, some blob.storedAt⟩ = .notModified →
        get.status = 304 ∧ get.body = []) ∧
      (readPrecondition dateParse ⟨.get, headers⟩ ⟨blob.etag, some blob.storedAt⟩ ≠ .notModified →
        Describes blob.bytes get resolution) := by
  obtain ⟨source, hsour, hreads, hval⟩ := MemoryStorage.source_eq hblob
  obtain ⟨resolution, hres, hwi, hget⟩ := sendByteRange_eq toLowerCase dateParse hreads
    ⟨.get, headers⟩ {} cacheControl
  obtain ⟨resolution', hres', -, hhead⟩ := sendByteRange_eq toLowerCase dateParse hreads
    ⟨.head, headers⟩ {} cacheControl
  -- Neither the range nor the precondition is read off the method.
  cases hres.symm.trans hres'
  rw [hval] at hres hget hhead
  rw [hreads.size_eq] at hres
  by_cases hcond : readPrecondition dateParse ⟨.get, headers⟩
      ⟨blob.etag, some blob.storedAt⟩ = .notModified
  · exact ⟨source, _, _, resolution, hsour, hget.trans (congrArg _ (if_pos hcond)),
      hhead.trans (congrArg _ (if_pos hcond)), rfl, rfl, rfl, hres,
      fun _ => ⟨rfl, rfl⟩, fun hproc => absurd hcond hproc⟩
  · obtain ⟨hstat, hheaders, hbody⟩ := contentReply_head source blob.bytes
      (advertise {} source cacheControl) resolution
    exact ⟨source, _, _, resolution, hsour, hget.trans (congrArg _ (if_neg hcond)),
      hhead.trans (congrArg _ (if_neg hcond)), hstat, hheaders, hbody, hres, fun hnot => absurd hnot hcond,
      fun _ => contentReply_describes hreads cacheControl hwi⟩

end Serving

/-- SHA-256 of three bytes, and of none. -/
def sampleSha256 (bytes : Bytes) : JsString :=
  if bytes = [1, 2, 3] then
    units "039058c6f2c0cb492c533b0a4d14ef77cc0f78abccced5287d84a1a2011cfb81"
  else units "e3b0c44298fc1c149afbf4c8996fb92427ae41e4649b934ca495991b7852b855"

/-- A storage with one object of three bytes. -/
def threeBytes : MemoryStorage sampleSha256 :=
  MemoryStorage.store {} 0 (units "k") ⟨[1, 2, 3], by decide⟩ (units "a/b")

def threeBytesTag : JsString := 34 :: sampleSha256 [1, 2, 3] ++ [34]

/-- From the second byte on, if the copy named is not the object. -/
def fromSecond : RequestField → Option RawHeader
  | .range => some (.one (units "bytes=1-9"))
  | .ifNoneMatch => some (.one (units "\"e\""))
  | _ => none

theorem byte_serving_of_three_bytes :
    ∃ source get, threeBytes.source (units "k") = some source ∧
      sendByteRange id (fun _ => none) ⟨.get, fromSecond⟩ {} source none = .ok get ∧
      get.status = 206 ∧ get.headers.get .contentRange = some (units "bytes 1-2/3") ∧
      get.body = [2, 3] := by
  obtain ⟨blob, hblob⟩ : ∃ blob, threeBytes.objects.get (units "k") = some blob := ⟨_, rfl⟩
  have hbytes : blob.bytes = [1, 2, 3] := by cases hblob; rfl
  have hetag : blob.etag = threeBytesTag := by cases hblob; rfl
  have hstored : blob.storedAt = 0 := by cases hblob; rfl
  obtain ⟨source, get, -, resolution, hsource, hget, -, -, -, -, hresolution, -, hdescribes⟩ :=
    byte_serving_consistent id (fun _ => none) threeBytes (units "k") blob hblob fromSecond none
  rw [hbytes, hetag, hstored] at hresolution hdescribes
  have hproceed : readPrecondition (fun _ => none) ⟨.get, fromSecond⟩ ⟨threeBytesTag, some 0⟩ ≠
      .notModified := by decide +kernel
  have hrange : resolveRequestedRange id (fun _ => none) ⟨.get, fromSecond⟩ 3
      ⟨threeBytesTag, some 0⟩ = .ok (.range ⟨1, 2⟩) := by decide +kernel
  obtain rfl : resolution = .range ⟨1, 2⟩ := Except.ok.inj (hresolution.symm.trans hrange)
  cases hdescribes hproceed with
  | part hstatus hcontent _ _ _ hlength hbody =>
    refine ⟨source, get, hsource, hget, hstatus, ?_, ?_⟩
    · rw [hcontent]
      decide +kernel
    · have hfirst := hbody 0 (by decide)
      have hsecond := hbody 1 (by decide)
      obtain ⟨a, b, hab⟩ := length_eq_two.mp hlength
      rw [hab] at hfirst hsecond ⊢
      simp only [getElem?_cons_zero, getElem?_cons_succ, Option.some.injEq] at hfirst hsecond
      rw [hfirst, hsecond]

end BoilerplateExpress.Upload

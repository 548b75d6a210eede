import BoilerplateExpress.Webhooks.SigningSecrets
import BoilerplateExpress.Webhooks.VerifySignature

/-!
# Signing a request, and what the receiver makes of it

`signWebhookRequest` of `webhooks/sign-request.ts` and `formatSignatureHeader` of
`webhooks/signature.ts`, set against the verification middleware. Every value the header
carries is made of one plain alphabet, so splitting on commas and equals signs reads
back what was written. The canonical string joins its fields by line feeds, and only its
last field is free of any condition, so it determines the request. That a digest is of 64
lower-case hexadecimal characters is assumed of `hmac` and not needed of `sha256`.
-/
namespace BoilerplateExpress.Webhooks

open List

def formatSignatureHeader (signature : ParsedWebhookSignature) : Text :=
  ['t', '='] ++ Text.natToText signature.timestamp ++ [',', 'n', '='] ++ signature.nonce ++
    [',', 'k', 'i', 'd', '='] ++ signature.keyId ++ ',' :: webhookSignatureVersion ++
    '=' :: signature.digest

/-- The entry outbound deliveries are signed with. -/
def WebhookSigningSecretRing.active (ring : WebhookSigningSecretRing) : WebhookSigningSecret :=
  ⟨ring.activeKeyId, (ring.byId.get ring.activeKeyId).get ring.active_held⟩

/-- The arguments of a call, with the clock reading it makes and the nonce it draws. -/
structure SignWebhookRequestOptions where
  ring : WebhookSigningSecretRing
  method : Text := ['P', 'O', 'S', 'T']
  url : Text
  body : Bytes
  now : ℚ
  nonce : Text

structure SignedWebhookRequest where
  headers : List (String × Text)
  signature : ParsedWebhookSignature
  canonical : Text

inductive SignError where
  | malformed (error : WebhookError)
  | invalidUrl

/-- The URL parser is a parameter: the path and the query of an absolute URL. -/
def toTarget (parseUrl : Text → Option (Text × Text)) (url : Text) : Except SignError Text :=
  if url.head? = some '/' then .ok url
  else
    match parseUrl url with
    | some (pathname, search) => .ok (pathname ++ search)
    | none => .error .invalidUrl

/-- Whole seconds, with the check `canonicalRequest` makes of them first. -/
def unixSeconds (now : ℚ) : Except SignError ℕ :=
  match ⌊now / 1000⌋ with
  | .ofNat seconds => .ok seconds
  | .negSucc n => .error (.malformed (.signatureMalformed
      ("timestamp must be a non-negative integer number of unix seconds, got " ++
        toString (Int.negSucc n))))

def signParts (digests : Digests) (ring : WebhookSigningSecretRing)
    (parts : WebhookSigningParts) : Except SignError SignedWebhookRequest :=
  match canonicalRequest digests parts with
  | .error error => .error (.malformed error)
  | .ok canonical =>
    let signature : ParsedWebhookSignature :=
      { timestamp := parts.timestamp
        nonce := parts.nonce
        keyId := ring.active.id
        digest := computeDigest digests ring.active.secret canonical }
    .ok
      { headers := [(webhookSignatureHeader, formatSignatureHeader signature)]
        signature
        canonical }

def signWebhookRequest (digests : Digests) (parseUrl : Text → Option (Text × Text))
    (options : SignWebhookRequestOptions) : Except SignError SignedWebhookRequest := do
  let target ← toTarget parseUrl options.url
  let timestamp ← unixSeconds options.now
  signParts digests options.ring
    { timestamp
      nonce := options.nonce
      method := options.method
      target
      body := options.body }

/-! ### The header -/

variable {c : Char}

/-- A plain character is no separator of the header or the canonical string, and no
white space. -/
lemma isNonceChar_plain (h : isNonceChar c) :
    c ≠ ',' ∧ c ≠ '=' ∧ c ≠ '\n' ∧ Text.isSpace c = false := by
  have hne (d : Char) (hd : isNonceChar d = false) : c ≠ d := by
    rintro rfl
    simp [hd] at h
  refine ⟨hne _ (by decide), hne _ (by decide), hne _ (by decide), ?_⟩
  have hrange : 45 ≤ c.toNat ∧ c.toNat ≤ 122 := by
    simp only [isNonceChar, Text.isAlphanumeric, Text.isDigit, Bool.or_eq_true, Bool.and_eq_true,
      decide_eq_true_eq, beq_iff_eq] at h
    have hbtw (lo hi : Char) (hc : lo ≤ c ∧ c ≤ hi) (hlo : 45 ≤ lo.toNat) (hhi : hi.toNat ≤ 122) :
        45 ≤ c.toNat ∧ c.toNat ≤ 122 := ⟨le_trans hlo hc.1, le_trans hc.2 hhi⟩
    rcases h with ((((hc | hc) | hc) | rfl) | rfl) | rfl
    · exact hbtw _ _ hc (by decide) (by decide)
    · exact hbtw _ _ hc (by decide) (by decide)
    · exact hbtw _ _ hc (by decide) (by decide)
    all_goals decide
  simp only [Text.isSpace, Bool.or_eq_false_iff, Bool.and_eq_false_iff, decide_eq_false_iff_not,
    beq_eq_false_iff_ne]
  omega

/-- A header value: plain characters only, at least one. -/
structure PlainValue (s : Text) : Prop where
  nonempty : s ≠ []
  plain : ∀ c ∈ s, isNonceChar c = true

lemma plainValue_natToText (n) : PlainValue (Text.natToText n) := by
  refine ⟨Nat.toDigits_ne_nil, ?_⟩
  intro c hc
  obtain ⟨hlo, hhi⟩ := Text.mem_natToText hc
  have hdigit : Text.isDigit c := by
    simp only [Text.isDigit, Bool.and_eq_true, decide_eq_true_eq]
    exact ⟨hlo, hhi⟩
  simp [isNonceChar, Text.isAlphanumeric, hdigit]

variable {s : Text}

lemma plainValue_of_isNonce (h : isNonce s) : PlainValue s := by
  simp only [isNonce, Bool.and_eq_true, all_eq_true] at h
  refine ⟨?_, h.2⟩
  rintro rfl
  exact absurd h.1.1 (by decide)

lemma plainValue_of_isKeyId (h : isKeyId s) : PlainValue s := by
  simp only [isKeyId, Bool.and_eq_true, all_eq_true] at h
  refine ⟨?_, h.2⟩
  rintro rfl
  exact absurd h.1.1 (by decide)

/-- The digest encoding of the platform's hash functions: 64 lower-case hex digits. -/
def HexDigest (s : Text) : Prop := s.length = digestHexLength ∧ isHex s = true

/-- A hex digit is the numeral of its value. -/
lemma hexValue_of_isHexDigit (h : isHexDigit c) :
    ∃ x < 16, Text.hexValue c = some x ∧ c = Nat.digitChar x := by
  have hrange : 48 ≤ c.toNat ∧ c.toNat ≤ 57 ∨ 97 ≤ c.toNat ∧ c.toNat ≤ 102 := by
    simp only [isHexDigit, Text.isDigit, Bool.or_eq_true, Bool.and_eq_true, decide_eq_true_eq] at h
    exact h
  rw [← Char.ofNat_toNat c]
  generalize c.toNat = n at hrange
  rcases hrange with ⟨hlo, hhi⟩ | ⟨hlo, hhi⟩
  · interval_cases n <;> exact ⟨_, by decide, rfl, by decide⟩
  · interval_cases n <;> exact ⟨_, by decide, rfl, by decide⟩

lemma hexDigest_chars (h : HexDigest s) : ∀ c ∈ s, isHexDigit c := by
  have hhex := h.2
  simp only [isHex, Bool.and_eq_true, all_eq_true] at hhex
  exact hhex.2

lemma plainValue_of_hexDigest (h : HexDigest s) : PlainValue s := by
  have hplain : ∀ x < 16, isNonceChar (Nat.digitChar x) := by decide
  refine ⟨?_, ?_⟩
  · rintro rfl
    cases h.1
  · intro c hc
    obtain ⟨x, hx, _, rfl⟩ := hexValue_of_isHexDigit (hexDigest_chars h c hc)
    exact hplain x hx

lemma parseFields_cons {name value parameters} (fields) (hname : PlainValue name)
    (hvalue : PlainValue value) (hnew : parameters.get name = none) :
    parseFields ((name ++ '=' :: value) :: fields) parameters =
      parseFields fields (parameters.set name value) := by
  have hspace : ∀ c ∈ name ++ '=' :: value, Text.isSpace c = false := by
    intro c hc
    rcases mem_append.mp hc with hmem | hmem
    · exact (isNonceChar_plain (hname.plain c hmem)).2.2.2
    · rcases mem_cons.mp hmem with rfl | hmem
      · decide
      · exact (isNonceChar_plain (hvalue.plain c hmem)).2.2.2
  have htrim : Text.trim (name ++ '=' :: value) = name ++ '=' :: value := by
    have htrimm : Text.Trimmed (name ++ '=' :: value) :=
      ⟨fun c hc => hspace c (mem_of_mem_head? hc), fun c hc => hspace c (mem_of_mem_getLast? hc)⟩
    simpa using Text.trim_append [] (name ++ '=' :: value) [] (by simp [Text.Blank])
      (by simp [Text.Blank]) htrimm
  have hequals : '=' ∉ name := fun hc => (isNonceChar_plain (hname.plain _ hc)).2.1 rfl
  have htake : (name ++ '=' :: value).takeWhile (fun c => c ≠ '=') = name :=
    (Text.takeWhile_ne_append hequals value).1
  have hwhole : ¬ (name = [] ∨ name = name ++ '=' :: value) := by
    rintro (hnil | hall)
    · exact hname.nonempty hnil
    · have hlen := congrArg List.length hall
      simp at hlen
  have hdrop : (name ++ '=' :: value).drop (name.length + 1) = value := by simp
  simp only [parseFields, htrim, htake, OrderedMap.has, hnew]
  rw [if_neg (by simp), if_neg hwhole]
  simp

lemma isUnsignedInteger_natToText {n} (h : n < 10 ^ 15) : isUnsignedInteger (Text.natToText n) := by
  have hlen : (Text.natToText n).length ≤ 15 := Nat.toDigits_length 10 n 15 (by decide) h
  have hpos : 1 ≤ (Text.natToText n).length := length_pos_iff.mpr (plainValue_natToText n).nonempty
  simp only [isUnsignedInteger, Bool.and_eq_true, decide_eq_true_eq, all_eq_true]
  refine ⟨⟨hpos, hlen⟩, ?_⟩
  intro c hc
  obtain ⟨hlo, hhi⟩ := Text.mem_natToText hc
  simp only [Text.isDigit, Bool.and_eq_true, decide_eq_true_eq]
  exact ⟨hlo, hhi⟩

lemma splitOn_formatSignatureHeader {signature} (hnonce : PlainValue signature.nonce)
    (hkey : PlainValue signature.keyId) (hdgst : PlainValue signature.digest) :
    (formatSignatureHeader signature).splitOn ',' =
      [['t'] ++ '=' :: Text.natToText signature.timestamp, ['n'] ++ '=' :: signature.nonce,
        ['k', 'i', 'd'] ++ '=' :: signature.keyId,
        webhookSignatureVersion ++ '=' :: signature.digest] := by
  have hjoin : formatSignatureHeader signature = [','].intercalate
      [['t'] ++ '=' :: Text.natToText signature.timestamp, ['n'] ++ '=' :: signature.nonce,
        ['k', 'i', 'd'] ++ '=' :: signature.keyId,
        webhookSignatureVersion ++ '=' :: signature.digest] := by simp [formatSignatureHeader]
  have hcomma {s : Text} (hs : PlainValue s) : ',' ∉ s :=
    fun hc => (isNonceChar_plain (hs.plain _ hc)).1 rfl
  rw [hjoin, splitOn_intercalate]
  · intro field hfield
    simp only [mem_cons, not_mem_nil, or_false] at hfield
    rcases hfield with rfl | rfl | rfl | rfl
    · simpa using hcomma (plainValue_natToText signature.timestamp)
    · simpa using hcomma hnonce
    · simpa using hcomma hkey
    · simpa [webhookSignatureVersion] using hcomma hdgst
  · simp

/-- Taking a written header apart gives back what was written. -/
theorem parseSignatureHeader_format {signature} (hts : signature.timestamp < 10 ^ 15)
    (hnonce : isNonce signature.nonce) (hkey : isKeyId signature.keyId)
    (hdgst : HexDigest signature.digest) :
    parseSignatureHeader (formatSignatureHeader signature) = .ok signature := by
  have hfs : parseFields ((formatSignatureHeader signature).splitOn ',') OrderedMap.empty =
      .ok ((((OrderedMap.empty.set ['t'] (Text.natToText signature.timestamp)).set ['n']
        signature.nonce).set ['k', 'i', 'd'] signature.keyId).set webhookSignatureVersion
        signature.digest) := by
    have hname {s : Text} (hs : s ≠ []) (hall : s.all isNonceChar) : PlainValue s :=
      ⟨hs, all_eq_true.mp hall⟩
    rw [splitOn_formatSignatureHeader (plainValue_of_isNonce hnonce)
        (plainValue_of_isKeyId hkey) (plainValue_of_hexDigest hdgst),
      parseFields_cons _ (hname (by simp) (by decide)) (plainValue_natToText _) (by simp),
      parseFields_cons _ (hname (by simp) (by decide)) (plainValue_of_isNonce hnonce) (by simp),
      parseFields_cons _ (hname (by simp) (by decide)) (plainValue_of_isKeyId hkey) (by simp),
      parseFields_cons _ (hname (by decide) (by decide)) (plainValue_of_hexDigest hdgst)
        (by simp [webhookSignatureVersion])]
    rfl
  unfold parseSignatureHeader
  rw [hfs]
  obtain ⟨hlen, hhex⟩ := hdgst
  simp [requiredField, webhookSignatureVersion, isUnsignedInteger_natToText hts, hnonce,
    hlen, hhex, Text.digitsToNat_natToText, pure, Except.pure]

/-! ### The digests -/

/-- Lower-case hex digits can be told apart by their bytes. -/
lemma hexBytes_inj : ∀ {s t : Text}, s.length = t.length → s.length % 2 = 0 →
    (∀ c ∈ s, isHexDigit c) → (∀ c ∈ t, isHexDigit c) → hexBytes s = hexBytes t → s = t
  | [], [], _, _, _, _, _ => rfl
  | [], _ :: _, hlength, _, _, _, _ => by cases hlength
  | _ :: _, [], hlength, _, _, _, _ => by cases hlength
  | [_], _, _, heven, _, _, _ => by cases heven
  | _ :: _ :: _, [_], hlength, _, _, _, _ => by simp at hlength
  | a :: b :: s, a' :: b' :: t, hlength, heven, hs, ht, h => by
    obtain ⟨x, _, hx, rfl⟩ := hexValue_of_isHexDigit (hs a (by simp))
    obtain ⟨y, _, hy, rfl⟩ := hexValue_of_isHexDigit (hs b (by simp))
    obtain ⟨x', _, hx', rfl⟩ := hexValue_of_isHexDigit (ht a' (by simp))
    obtain ⟨y', _, hy', rfl⟩ := hexValue_of_isHexDigit (ht b' (by simp))
    simp only [hexBytes, hx, hx', hy, hy', List.cons.injEq] at h
    have htail := hexBytes_inj (s := s) (t := t) (by simpa using hlength)
      (by simp only [length_cons] at heven; omega)
      (fun c hc => hs c (by simp [hc])) (fun c hc => ht c (by simp [hc])) h.2
    rw [show x = x' by omega, show y = y' by omega, htail]

lemma digestsMatch_self (h : HexDigest s) : digestsMatch s s := by
  have hchars := hexDigest_chars h
  have hlength := h.1
  match s, hlength, hchars with
  | a :: b :: rest, _, hchars =>
    obtain ⟨x, _, hx, _⟩ := hexValue_of_isHexDigit (hchars a (by simp))
    obtain ⟨y, _, hy, _⟩ := hexValue_of_isHexDigit (hchars b (by simp))
    simp [digestsMatch, hexBytes, hx, hy]

lemma eq_of_digestsMatch {t} (hs : HexDigest s) (ht : HexDigest t) (h : digestsMatch s t) : s =
    t := by
  have hlength : s.length = t.length := hs.1.trans ht.1.symm
  unfold digestsMatch at h
  split_ifs at h with hlen hbytes hzero
  exact hexBytes_inj hlength (by rw [hs.1]; rfl) (hexDigest_chars hs) (hexDigest_chars ht)
    (of_decide_eq_true h)

/-! ### Signed requests are accepted -/

/-- The delivery is the signed request as it was sent; a client may change the letter
case of the method. -/
structure Carries (request : SignWebhookRequestOptions) (signed : SignedWebhookRequest)
    (d : Delivery) : Prop where
  header : ∃ value, (webhookSignatureHeader, value) ∈ signed.headers ∧ d.header = .single value
  method : d.method.map Char.toUpper = request.method.map Char.toUpper
  target : d.originalUrl = request.url
  body : d.body = some request.body

/-- A request that can be signed: an origin-form target, a nonce of the pattern, and a
clock reading whose seconds have at most 15 digits, as every ECMAScript time value has. -/
structure Signable (request : SignWebhookRequestOptions) : Prop where
  origin : request.url.head? = some '/'
  line : request.url.any (fun c => c == '\r' || c == '\n') = false
  nonce : isNonce request.nonce = true
  now_nonneg : 0 ≤ request.now
  now_lt : request.now < 10 ^ 18

lemma unixSeconds_spec {now} (hnonneg : 0 ≤ now) (hlt : now < 10 ^ 18) :
    ∃ seconds, unixSeconds now = .ok seconds ∧ seconds < 10 ^ 15 := by
  have hfloor : 0 ≤ ⌊now / 1000⌋ := Int.floor_nonneg.mpr (by positivity)
  have hbound : ⌊now / 1000⌋ < 10 ^ 15 := by
    rw [Int.floor_lt]
    linarith
  unfold unixSeconds
  generalize ⌊now / 1000⌋ = seconds at hfloor hbound ⊢
  cases seconds with
  | ofNat seconds =>
    have hlt : (seconds : ℤ) < 10 ^ 15 := hbound
    exact ⟨seconds, rfl, by exact_mod_cast hlt⟩
  | negSucc n => exact absurd hfloor (by simp)

lemma signWebhookRequest_spec {request} (digests parseUrl) (h : Signable request) :
    ∃ signed timestamp canonical,
      signWebhookRequest digests parseUrl request = .ok signed ∧ timestamp < 10 ^ 15 ∧
      canonicalRequest digests ⟨timestamp, request.nonce, request.method, request.url,
        request.body⟩ = .ok canonical ∧
      signed.signature = ⟨timestamp, request.nonce, request.ring.active.id,
        computeDigest digests request.ring.active.secret canonical⟩ ∧
      signed.headers = [(webhookSignatureHeader, formatSignatureHeader signed.signature)] := by
  obtain ⟨timestamp, hsec, hbound⟩ := unixSeconds_spec h.now_nonneg h.now_lt
  have hcan : ∃ canonical, canonicalRequest digests ⟨timestamp, request.nonce,
      request.method, request.url, request.body⟩ = .ok canonical := by
    simp [canonicalRequest, h.nonce, h.line]
  obtain ⟨canonical, hcan⟩ := hcan
  have htgt : toTarget parseUrl request.url = .ok request.url := by
    rw [toTarget, if_pos h.origin]
  have hsig : signWebhookRequest digests parseUrl request = signParts digests request.ring
      ⟨timestamp, request.nonce, request.method, request.url, request.body⟩ := by
    simp [signWebhookRequest, htgt, hsec]
  rw [signParts, hcan] at hsig
  exact ⟨_, timestamp, canonical, hsig, hbound, hcan, rfl, rfl⟩

variable {J : Type*}

variable {options : VerifyWebhookSignatureOptions J} {guard : MemoryReplayGuard} {d : Delivery}
  {presented : ParsedWebhookSignature}

/-- The handler accepts what its checks before the guard admit, if the guard does. -/
lemma handler_accepts {rawBody} (hstl : verifyStateless options d = .ok (presented, rawBody))
    (huns : guard.Unseen (replayKey presented) d.guardNow) (hroom : guard.HasRoom d.guardNow)
    (hjson : options.parseJsonBody → ∃ body, options.jsonParse rawBody = .ok body) :
    ∃ body, (verifyWebhookSignatureHandler options guard d).1 =
      .accepted ⟨presented, bodyDigest options.digests rawBody, rawBody⟩ body := by
  have hrem := MemoryReplayGuard.remember_unseen (replayExpiry options presented.timestamp)
    huns hroom
  simp only [verifyWebhookSignatureHandler, hstl, hrem, finish]
  by_cases hpar : options.parseJsonBody
  · obtain ⟨body, hbody⟩ := hjson hpar
    exact ⟨some body, by simp [hpar, hbody]⟩
  · exact ⟨none, by simp [hpar]⟩

/-- A signed request passes every check of the receiver that does not depend on the guard. -/
lemma verifyStateless_of_carries {request parseUrl signed}
    (htags : ∀ secret message, HexDigest (options.digests.hmac secret message))
    (hkey : isKeyId request.ring.activeKeyId) (hreq : Signable request)
    (hsign : signWebhookRequest options.digests parseUrl request = .ok signed)
    (hcar : Carries request signed d)
    (hheld : options.ring.find request.ring.activeKeyId = some request.ring.active.secret)
    (hwin : |(skewSeconds d.windowNow signed.signature.timestamp : ℚ)| ≤
      options.toleranceSeconds) :
    verifyStateless options d = .ok (signed.signature, request.body) := by
  obtain ⟨signed', timestamp, canonical, hok, hbound, hcan, hsig, hhead⟩ :=
    signWebhookRequest_spec options.digests parseUrl hreq
  cases hsign.symm.trans hok
  obtain ⟨value, hvalue, hhdr⟩ := hcar.header
  rw [hhead, mem_singleton] at hvalue
  obtain rfl := (Prod.mk.inj hvalue).2
  have hpar : parseSignatureHeader (formatSignatureHeader signed.signature) =
      .ok signed.signature := by
    rw [hsig]
    exact parseSignatureHeader_format hbound hreq.nonce hkey (htags _ _)
  have hpres : presentedSignature d = .ok signed.signature := by
    simp [presentedSignature, readSignatureHeader, hhdr, hpar]
  have hdgst : verifyDigest options d signed.signature request.body = .ok () := by
    have hreb : canonicalRequest options.digests ⟨timestamp, request.nonce, d.method,
        d.originalUrl, request.body⟩ = .ok canonical := by
      -- The string both sides take the HMAC over does not depend on the method's case.
      rw [hcar.target, ← hcan]
      simp [canonicalRequest, hcar.method]
    have hfind : options.ring.find request.ring.active.id = some request.ring.active.secret := hheld
    simp only [verifyDigest, hsig, hfind, hreb, ok_bind, computeDigest,
      digestsMatch_self (htags _ _)]
    rfl
  have hbody : readRawBody d = .ok request.body := by simp [readRawBody, hcar.body]
  simp only [verifyStateless, hpres, hbody, ok_bind, if_neg (not_lt.mpr hwin), hdgst]
  rfl

/-! ### Changed requests are refused -/

/-- The string the receiver rebuilds for a delivery and takes the HMAC over. -/
def rebuilt (digests : Digests) (d : Delivery) : Option Text :=
  match presentedSignature d, d.body with
  | .ok presented, some rawBody =>
    (canonicalRequest digests ⟨presented.timestamp, presented.nonce, d.method, d.originalUrl,
      rawBody⟩).toOption
  | _, _ => none

/-- The hash functions tell the two deliveries apart: HMAC tags of different messages
differ, and so do SHA-256 digests of different bodies. -/
structure Distinguishes (digests : Digests) (d d' : Delivery) : Prop where
  hmac : ∀ secret message message', rebuilt digests d = some message →
    rebuilt digests d' = some message' →
    digests.hmac secret message = digests.hmac secret message' → message = message'
  sha256 : ∀ body body', d.body = some body → d'.body = some body' →
    digests.sha256 body = digests.sha256 body' → body = body'

/-- A character of an HTTP method token. -/
def isMethodChar (c : Char) : Bool :=
  Text.isAlphanumeric c || c ∈ ['!', '#', '$', '%', '&', '\x27', '*', '+', '-', '.', '^', '_',
    '\x60', '|', '~']

def isMethod (method : Text) : Bool := method ≠ [] && method.all isMethodChar

/-- The signed parts of the two deliveries are the same, up to the method's case. -/
structure SameParts (presented presented' : ParsedWebhookSignature) (d d' : Delivery) : Prop where
  timestamp : presented'.timestamp = presented.timestamp
  nonce : presented'.nonce = presented.nonce
  method : d'.method.map Char.toUpper = d.method.map Char.toUpper
  target : d'.originalUrl = d.originalUrl
  body : d'.body = d.body

/-- What acceptance says about a delivery. -/
lemma of_accepted (h : (verifyWebhookSignatureHandler options guard d).1.isAccepted) :
    ∃ presented rawBody secret canonical, presentedSignature d = .ok presented ∧
      d.body = some rawBody ∧ options.ring.find presented.keyId = some secret ∧
      canonicalRequest options.digests ⟨presented.timestamp, presented.nonce, d.method,
        d.originalUrl, rawBody⟩ = .ok canonical ∧
      digestsMatch (options.digests.hmac secret canonical) presented.digest := by
  unfold verifyWebhookSignatureHandler at h
  cases hstl : verifyStateless options d with
  | error e =>
    rw [hstl] at h
    cases h
  | ok verified =>
    obtain ⟨presented, hpres, hrest⟩ := bind_eq_ok hstl
    obtain ⟨rawBody, hbody, hrest⟩ := bind_eq_ok hrest
    dsimp only at hrest
    split_ifs at hrest with hwin
    · cases hrest
    obtain ⟨_, hdgst, _⟩ := bind_eq_ok hrest
    have hraw : d.body = some rawBody := by
      unfold readRawBody at hbody
      split at hbody
      · rename_i held hheld
        rw [hheld, Except.ok.inj hbody]
      · cases hbody
    unfold verifyDigest at hdgst
    split at hdgst
    · cases hdgst
    · rename_i secret hsec
      obtain ⟨canonical, hcan, hmatch⟩ := bind_eq_ok hdgst
      split_ifs at hmatch with hequal
      exact ⟨presented, rawBody, secret, canonical, hpres, hraw, hsec, hcan, hequal⟩

lemma toUpper_ne_newline (h : c ≠ '\n') : c.toUpper ≠ '\n' := by
  unfold Char.toUpper
  split_ifs with hlower
  · intro heq
    have hval := congrArg (fun x => x.val.toNat) heq
    have hlo : 97 ≤ c.val.toNat := hlower.1
    have hhi : c.val.toNat ≤ 122 := hlower.2
    simp only [UInt32.toNat_add] at hval
    have hshift : ('A'.val - 'a'.val).toNat = 4294967264 := by decide
    have hten : ('\n' : Char).val.toNat = 10 := by decide
    omega
  · exact h

lemma newline_not_mem_method {method} (h : isMethod method) : '\n' ∉ method.map Char.toUpper := by
  simp only [isMethod, Bool.and_eq_true, all_eq_true] at h
  intro hmem
  obtain ⟨c, hc, hupper⟩ := mem_map.mp hmem
  have hne : c ≠ '\n' := by
    rintro rfl
    exact absurd (h.2 _ hc) (by decide)
  exact toUpper_ne_newline hne hupper

lemma natToText_injective : Function.Injective Text.natToText := by
  intro m n h
  have hvalue := congrArg Text.digitsToNat h
  rwa [Text.digitsToNat_natToText, Text.digitsToNat_natToText] at hvalue

/-- The canonical string determines the request up to the digest of its body. -/
theorem canonicalRequest_inj {digests parts canonical parts'}
    (h : canonicalRequest digests parts = .ok canonical)
    (h' : canonicalRequest digests parts' = .ok canonical) (hmet : isMethod parts.method)
    (hmet' : isMethod parts'.method) :
    parts.timestamp = parts'.timestamp ∧ parts.nonce = parts'.nonce ∧
      parts.method.map Char.toUpper = parts'.method.map Char.toUpper ∧
      parts.target = parts'.target ∧ digests.sha256 parts.body = digests.sha256 parts'.body := by
  have hshape (p : WebhookSigningParts) (hp : canonicalRequest digests p = .ok canonical)
      (hm : isMethod p.method) :
      canonical = ['\n'].intercalate ([webhookSignatureVersion, Text.natToText p.timestamp,
          p.nonce, p.method.map Char.toUpper, p.target] ++ [digests.sha256 p.body]) ∧
        ∀ s ∈ [webhookSignatureVersion, Text.natToText p.timestamp, p.nonce,
          p.method.map Char.toUpper, p.target], '\n' ∉ s := by
    unfold canonicalRequest at hp
    split_ifs at hp with hnonce hline
    refine ⟨(Except.ok.inj hp).symm, ?_⟩
    have hplain {s : Text} (hs : PlainValue s) : '\n' ∉ s :=
      fun hc => (isNonceChar_plain (hs.plain _ hc)).2.2.1 rfl
    intro s hs
    simp only [mem_cons, not_mem_nil, or_false] at hs
    rcases hs with rfl | rfl | rfl | rfl | rfl
    · decide
    · exact hplain (plainValue_natToText p.timestamp)
    · exact hplain (plainValue_of_isNonce hnonce)
    · exact newline_not_mem_method hm
    · intro hc
      exact hline (any_eq_true.mpr ⟨_, hc, by decide⟩)
  obtain ⟨hcan, hlines⟩ := hshape parts h hmet
  obtain ⟨hcan', hlines'⟩ := hshape parts' h' hmet'
  obtain ⟨hfs, hbody⟩ :=
    Text.intercalate_concat_inj (by rfl) hlines hlines' (hcan.symm.trans hcan')
  simp only [List.cons.injEq, and_true, true_and] at hfs
  obtain ⟨hts, hnonce, hupper, htgt⟩ := hfs
  exact ⟨natToText_injective hts, hnonce, hupper, htgt, hbody⟩

/-- Two accepted deliveries with one key id and one digest carry the same request. -/
lemma sameParts_of_accepted {d' presented' guard'}
    (htags : ∀ secret message, HexDigest (options.digests.hmac secret message))
    (hpres : presentedSignature d = .ok presented)
    (hpres' : presentedSignature d' = .ok presented')
    (hkey : presented'.keyId = presented.keyId) (hdgst : presented'.digest = presented.digest)
    (hmet : isMethod d.method) (hmet' : isMethod d'.method)
    (hdist : Distinguishes options.digests d d')
    (h : (verifyWebhookSignatureHandler options guard d).1.isAccepted)
    (h' : (verifyWebhookSignatureHandler options guard' d').1.isAccepted) :
    SameParts presented presented' d d' := by
  obtain ⟨p, body, secret, canonical, hp, hbody, hsec, hcan, hmatch⟩ := of_accepted h
  cases hp.symm.trans hpres
  obtain ⟨p', body', secret', canonical', hp', hbody', hsec', hcan', hmatch'⟩ :=
    of_accepted h'
  cases hp'.symm.trans hpres'
  rw [hkey, hsec] at hsec'
  cases hsec'
  have htag : options.digests.hmac secret canonical = options.digests.hmac secret canonical' := by
    obtain ⟨raw, -, hpar⟩ := bind_eq_ok hpres
    have hshape := (parseSignatureHeader_ok hpar).2
    rw [hdgst] at hmatch'
    rw [eq_of_digestsMatch (htags _ _) hshape hmatch, eq_of_digestsMatch (htags _ _) hshape hmatch']
  have hsame : canonical = canonical' := by
    refine hdist.hmac secret canonical canonical' ?_ ?_ htag
    · simp [rebuilt, hpres, hbody, hcan, Except.toOption]
    · simp [rebuilt, hpres', hbody', hcan', Except.toOption]
  obtain ⟨hts, hnonce, hupper, htgt, hsha⟩ :=
    canonicalRequest_inj hcan (hsame ▸ hcan') hmet hmet'
  refine ⟨hts.symm, hnonce.symm, hupper.symm, htgt.symm, ?_⟩
  rw [hbody, hbody', hdist.sha256 body body' hbody hbody' hsha]

/-- Signing and verification agree. A signed request is accepted by every receiver that
holds the key under its id, inside the window, with an unseen nonce and room in the
guard; and no accepted delivery is accepted again with another timestamp, nonce, method,
target or body under the same key id and digest. -/
theorem signing_agrees_with_verification (options : VerifyWebhookSignatureOptions J)
    (htags : ∀ secret message, HexDigest (options.digests.hmac secret message)) :
    (∀ (base64 : Base64) (spec activeKeyId : Text) (parseUrl : Text → Option (Text × Text))
        (request : SignWebhookRequestOptions),
      parseWebhookSigningSecrets base64 spec activeKeyId = .ok request.ring →
      Signable request →
      ∃ signed, signWebhookRequest options.digests parseUrl request = .ok signed ∧
        ∀ (guard : MemoryReplayGuard) (d : Delivery), Carries request signed d →
          options.ring.find request.ring.activeKeyId = some request.ring.active.secret →
          |(skewSeconds d.windowNow signed.signature.timestamp : ℚ)| ≤ options.toleranceSeconds →
          guard.Unseen (replayKey signed.signature) d.guardNow → guard.HasRoom d.guardNow →
          (options.parseJsonBody = true → ∃ body, options.jsonParse request.body = .ok body) →
          ∃ body, (verifyWebhookSignatureHandler options guard d).1 = .accepted
            ⟨signed.signature, bodyDigest options.digests request.body, request.body⟩ body) ∧
    (∀ (guard guard' : MemoryReplayGuard) (d d' : Delivery) (presented : ParsedWebhookSignature),
      presentedSignature d = .ok presented →
      (verifyWebhookSignatureHandler options guard d).1.isAccepted = true →
      (∀ presented', presentedSignature d' = .ok presented' →
        presented'.keyId = presented.keyId ∧ presented'.digest = presented.digest) →
      isMethod d.method = true → isMethod d'.method = true →
      Distinguishes options.digests d d' →
      (∀ presented', presentedSignature d' = .ok presented' →
        ¬ SameParts presented presented' d d') →
      (verifyWebhookSignatureHandler options guard' d').1.isAccepted = false) := by
  refine ⟨?_, ?_⟩
  · intro base64 spec activeKeyId parseUrl request hring hreq
    have hvalid := parseWebhookSigningSecrets_valid hring
      request.ring.activeKeyId request.ring.active.secret
      (Option.some_get request.ring.active_held).symm
    obtain ⟨signed, _, _, hsig, _⟩ := signWebhookRequest_spec options.digests parseUrl hreq
    refine ⟨signed, hsig, ?_⟩
    intro guard d hcar hheld hwin huns hroom hjson
    have hstl := verifyStateless_of_carries htags hvalid.1
      hreq hsig hcar hheld hwin
    exact handler_accepts hstl huns hroom hjson
  · intro guard guard' d d' presented hpres hacc hsame hmet hmet' hdist hchg
    rw [Bool.eq_false_iff]
    intro hacc'
    obtain ⟨presented', _, _, _, hpres', _⟩ := of_accepted hacc'
    obtain ⟨hkey, hdgst⟩ := hsame presented' hpres'
    exact hchg presented' hpres' (sameParts_of_accepted htags hpres hpres'
      hkey hdgst hmet hmet' hdist hacc hacc')

/-- The digest of the body of two brackets. -/
def bracketsSha256 : Text :=
  "4f53cda18c2baa0c0354bb5f9a3ecbe5ed12ab4d8e11ba873c2f11161202b945".toList

/-- The tag of the request with the body of two braces. -/
def bracesTag : Text := "f2dc2da4428fa8ea1653b39012c99d541fb4625e97f90e19a64f9ab0cf089eb2".toList

/-- What SHA-256 and HMAC-SHA256 give for a body of two brackets or braces and for the canonical
requests with them, under the secret of `sampleRing`. -/
def sampleDigests : Digests where
  sha256 body := if body = [91, 93] then bracketsSha256
    else "44136fa355b3678a1146ad16f7e8649e94fb4fc21fe77e8310c060f61caaff8a".toList
  hmac _ message := if bracketsSha256.isSuffixOf message then
      "676c2f85265a7001bad4b4ca7954deddaf44df91f947405bfc6de1c8ac86cffe".toList
    else bracesTag

def sampleSecret : Bytes := List.replicate 32 120

/-- The sample secret in base64. -/
def encodedSecret : Text := "eHh4eHh4eHh4eHh4eHh4eHh4eHh4eHh4eHh4eHh4eHg=".toList

def sampleBase64 : Base64 where
  decode s := if s = encodedSecret then sampleSecret else []
  encode bytes := if bytes = sampleSecret then encodedSecret else []

def sampleRing : WebhookSigningSecretRing :=
  ⟨['k', '1'], OrderedMap.empty.set ['k', '1'] sampleSecret, by simp⟩

def sampleRequest : SignWebhookRequestOptions where
  ring := sampleRing
  url := "/v1/webhooks/inbound".toList
  body := [123, 125]
  now := 1000500
  nonce := sampleNonce

def sampleReceiver : VerifyWebhookSignatureOptions Unit where
  digests := sampleDigests
  ring := sampleRing
  toleranceSeconds := 300
  toleranceSeconds_pos := sampleOptions.toleranceSeconds_pos
  parseJsonBody := true
  jsonParse := fun _ => .ok ()

/-- The sample request on the wire. -/
def sampleArrival : Delivery where
  header := .single ("t=1000,n=0123456789abcdef,kid=k1,v1=".toList ++ bracesTag)
  method := "post".toList
  originalUrl := sampleRequest.url
  body := some [123, 125]
  windowNow := 1200000
  guardNow := 1200001

/-- The sample request is accepted, and refused with another body under the same header. -/
theorem signing_agrees_on_sample :
    (∃ signed, signWebhookRequest sampleReceiver.digests (fun _ => none) sampleRequest = .ok signed) ∧
      (verifyWebhookSignatureHandler sampleReceiver sampleGuard sampleArrival).1.isAccepted = true ∧
      (verifyWebhookSignatureHandler sampleReceiver sampleGuard
        { sampleArrival with body := some [91, 93] }).1.isAccepted = false := by
  have htags : ∀ secret message, HexDigest (sampleReceiver.digests.hmac secret message) := by
    intro secret message
    simp only [sampleReceiver, sampleDigests]
    split_ifs
    · exact ⟨by decide, by decide⟩
    · exact ⟨by decide, by decide⟩
  obtain ⟨hsigns, htampered⟩ := signing_agrees_with_verification sampleReceiver htags
  obtain ⟨signed, hsigned, haccepts⟩ := hsigns sampleBase64 ("k1:".toList ++ encodedSecret)
    ['k', '1'] (fun _ => none) sampleRequest rfl
    ⟨rfl, by decide, by decide, by norm_num [sampleRequest], by norm_num [sampleRequest]⟩
  have hcomputed : (signWebhookRequest sampleReceiver.digests (fun _ => none)
      sampleRequest).toOption.map (fun x => (x.signature.timestamp, x.headers)) =
      some (1000, [(webhookSignatureHeader,
        "t=1000,n=0123456789abcdef,kid=k1,v1=".toList ++ bracesTag)]) := by decide +kernel
  rw [hsigned] at hcomputed
  obtain ⟨htimestamp, hheaders⟩ := Prod.mk.inj (Option.some.inj hcomputed)
  obtain ⟨body, hbody⟩ := haccepts sampleGuard sampleArrival
    ⟨⟨_, by rw [hheaders]; exact mem_singleton.mpr rfl, rfl⟩, by decide, rfl, rfl⟩ rfl (by
      have hskew : skewSeconds 1200000 1000 = 200 := by norm_num [skewSeconds]
      rw [htimestamp]
      simp only [sampleArrival, hskew]
      norm_num [sampleReceiver])
    (by simp [MemoryReplayGuard.Unseen, sampleGuard, MemoryReplayGuard.create])
    (by unfold MemoryReplayGuard.HasRoom; decide +kernel) (fun _ => ⟨(), rfl⟩)
  have haccepted : (verifyWebhookSignatureHandler sampleReceiver sampleGuard
      sampleArrival).1.isAccepted = true := by
    rw [hbody]
    rfl
  refine ⟨⟨signed, hsigned⟩, haccepted, ?_⟩
  have hsome : (presentedSignature sampleArrival).toOption.isSome := by decide +kernel
  have hends : (rebuilt sampleDigests sampleArrival).map bracketsSha256.isSuffixOf = some false ∧
      (rebuilt sampleDigests { sampleArrival with body := some [91, 93] }).map
        bracketsSha256.isSuffixOf = some true := by decide +kernel
  cases hpres : presentedSignature sampleArrival with
  | error e =>
    rw [hpres] at hsome
    cases hsome
  | ok presented =>
    refine htampered sampleGuard sampleGuard sampleArrival _ presented hpres haccepted ?_ (by decide)
      (by decide) ⟨?_, ?_⟩ ?_
    · intro presented' hpres'
      cases hpres'.symm.trans hpres
      exact ⟨rfl, rfl⟩
    · intro secret message message' hm hm' htag
      simp only [sampleReceiver] at hm hm'
      simp only [hm, hm', Option.map_some, Option.some.injEq] at hends
      simp only [sampleReceiver, sampleDigests, hends.1, hends.2] at htag
      exact absurd htag (by decide)
    · rintro body body' ⟨⟩ ⟨⟩ hsha
      exact absurd hsha (by decide)
    · intro presented' _ hsame
      exact absurd hsame.body (by decide)

end BoilerplateExpress.Webhooks

import BoilerplateExpress.Webhooks.ReplayGuard
import BoilerplateExpress.Webhooks.Signature

/-!
# The signature verification middleware

`verifyWebhookSignatureHandler`: shape, freshness window, digest, nonce, body, in
that order. The handler runs without an await up to the guard, so a delivery is
one step; it reads the clock twice, once for the window and once in the guard.

The window is tested on whole seconds and the guard forgets on milliseconds. The
last section relates the two over every sequence of deliveries.
-/
namespace BoilerplateExpress.Webhooks

open List

/-- A request header as Node presents it. -/
inductive HeaderField where
  | absent
  | repeated
  | single (value : Text)

/-- A request as the handler sees it, with the clock readings it makes. -/
structure Delivery where
  header : HeaderField
  method : Text
  originalUrl : Text
  body : Option Bytes
  windowNow : ℚ
  guardNow : ℚ

/-- The options of `verifyWebhookSignature`, with `JSON.parse` as a parameter. -/
structure VerifyWebhookSignatureOptions (J : Type*) where
  digests : Digests
  ring : WebhookSigningSecretRing
  toleranceSeconds : ℚ
  toleranceSeconds_pos : 0 < toleranceSeconds
  parseJsonBody : Bool
  jsonParse : Bytes → Except String J

structure VerifiedWebhookSignature where
  presented : ParsedWebhookSignature
  bodyDigest : Text
  rawBody : Bytes

inductive Outcome (J : Type*) where
  | accepted (verified : VerifiedWebhookSignature) (body : Option J)
  | refused (error : WebhookError)

def Outcome.isAccepted {J : Type*} : Outcome J → Bool
  | .accepted _ _ => true
  | .refused _ => false

def readSignatureHeader (d : Delivery) : Except WebhookError Text :=
  match d.header with
  | .absent => .error (.signatureRequired webhookSignatureHeader)
  | .repeated => .error (.signatureMalformed
      ("the " ++ webhookSignatureHeader ++ " header appears more than once"))
  | .single value => .ok value

def readRawBody (d : Delivery) : Except WebhookError Bytes :=
  match d.body with
  | some rawBody => .ok rawBody
  | none => .error .rawBodyMissing

def presentedSignature (d : Delivery) : Except WebhookError ParsedWebhookSignature := do
  let raw ← readSignatureHeader d
  parseSignatureHeader raw

def skewSeconds (now : ℚ) (timestamp : ℕ) : ℤ := ⌊now / 1000⌋ - timestamp

/-- The digest check against the one ring entry the key id names. -/
def verifyDigest {J : Type*} (options : VerifyWebhookSignatureOptions J) (d : Delivery)
    (presented : ParsedWebhookSignature) (rawBody : Bytes) : Except WebhookError Unit := do
  match options.ring.find presented.keyId with
  | none => throw .unknownKeyId
  | some secret =>
    let canonical ← canonicalRequest options.digests
      { timestamp := presented.timestamp
        nonce := presented.nonce
        method := d.method
        target := d.originalUrl
        body := rawBody }
    if digestsMatch (computeDigest options.digests secret canonical) presented.digest then
      return ()
    else throw .digestMismatch

/-- Everything the handler does before it consults the guard. -/
def verifyStateless {J : Type*} (options : VerifyWebhookSignatureOptions J) (d : Delivery) :
    Except WebhookError (ParsedWebhookSignature × Bytes) := do
  let presented ← presentedSignature d
  let rawBody ← readRawBody d
  let skew := skewSeconds d.windowNow presented.timestamp
  if options.toleranceSeconds < |(skew : ℚ)| then
    throw (.timestampOutOfWindow skew options.toleranceSeconds)
  verifyDigest options d presented rawBody
  return (presented, rawBody)

/-- The guard key is scoped by the key id as well as the nonce. -/
def replayKey (presented : ParsedWebhookSignature) : Text :=
  presented.keyId ++ ':' :: presented.nonce

def replayExpiry {J : Type*} (options : VerifyWebhookSignatureOptions J) (timestamp : ℕ) : ℚ :=
  (timestamp + options.toleranceSeconds) * 1000

/-- The body is parsed only after the nonce has been recorded. -/
def finish {J : Type*} (options : VerifyWebhookSignatureOptions J)
    (presented : ParsedWebhookSignature) (rawBody : Bytes) : Outcome J :=
  let verified : VerifiedWebhookSignature :=
    { presented, bodyDigest := bodyDigest options.digests rawBody, rawBody }
  if options.parseJsonBody then
    match options.jsonParse rawBody with
    | .ok body => .accepted verified (some body)
    | .error reason => .refused (.bodyMalformed reason)
  else .accepted verified none

def verifyWebhookSignatureHandler {J : Type*} (options : VerifyWebhookSignatureOptions J)
    (guard : MemoryReplayGuard) (d : Delivery) : Outcome J × MemoryReplayGuard :=
  match verifyStateless options d with
  | .error error => (.refused error, guard)
  | .ok (presented, rawBody) =>
    let answer := guard.remember (replayKey presented)
      (replayExpiry options presented.timestamp) d.guardNow
    match answer.1 with
    | .replayed => (.refused .replayed, answer.2)
    | .cacheFull => (.refused (.replayCacheFull options.toleranceSeconds), answer.2)
    | .accepted => (finish options presented rawBody, answer.2)

/-- Deliveries verified one after another over one guard, with their outcomes. -/
def deliver {J : Type*} (options : VerifyWebhookSignatureOptions J) :
    MemoryReplayGuard → List Delivery → List (Delivery × Outcome J)
  | _, [] => []
  | guard, d :: ds =>
    let answer := verifyWebhookSignatureHandler options guard d
    (d, answer.1) :: deliver options answer.2 ds

/-- The delivery bears the key id, nonce and timestamp under a correct signature. -/
def bears {J : Type*} (options : VerifyWebhookSignatureOptions J) (keyId nonce : Text)
    (timestamp : ℕ) (d : Delivery) : Bool :=
  match presentedSignature d, d.body with
  | .ok presented, some rawBody =>
    decide (presented.keyId = keyId) && decide (presented.nonce = nonce) &&
      decide (presented.timestamp = timestamp) &&
      (verifyDigest options d presented rawBody).isOk
  | _, _ => false

/-- All clock readings of the deliveries, in the order they are made. -/
def clockReadings (ds : List Delivery) : List ℚ := ds.flatMap (fun d => [d.windowNow, d.guardNow])

def ClockOrdered (ds : List Delivery) : Prop := (clockReadings ds).Pairwise (· ≤ ·)

/-- The two refusals a second presentation is allowed to meet. -/
def RefusedAsSpent {J : Type*} (options : VerifyWebhookSignatureOptions J) (o : Outcome J) : Prop :=
  (∃ skew, o = .refused (.timestampOutOfWindow skew options.toleranceSeconds)) ∨
    o = .refused .replayed

/-- At most one delivery of the triple is accepted, and every later one is refused. -/
def SingleUse {J : Type*} (options : VerifyWebhookSignatureOptions J) (keyId nonce : Text)
    (timestamp : ℕ) (answered : List (Delivery × Outcome J)) : Prop :=
  answered.countP (fun x => bears options keyId nonce timestamp x.1 && x.2.isAccepted) ≤ 1 ∧
    answered.Pairwise (fun x y => bears options keyId nonce timestamp x.1 → x.2.isAccepted →
      bears options keyId nonce timestamp y.1 → RefusedAsSpent options y.2)

/-- The window still admits the timestamp while the guard may forget the nonce:
the guard's clock has reached the expiry and the window's clock has not yet left
the last admitted second. -/
def InForgottenSecond {J : Type*} (options : VerifyWebhookSignatureOptions J) (timestamp : ℕ)
    (d : Delivery) : Prop :=
  replayExpiry options timestamp ≤ d.guardNow ∧
    d.windowNow < (timestamp + ⌊options.toleranceSeconds⌋ + 1) * 1000

variable {J : Type*}

variable {options : VerifyWebhookSignatureOptions J} {keyId nonce : Text} {timestamp : ℕ}
  {d : Delivery} {guard : MemoryReplayGuard}

/-- Before the guard, a correctly signed delivery can only fail on the window. -/
lemma verifyStateless_of_bears (h : bears options keyId nonce timestamp d) :
    ∃ presented rawBody, replayKey presented = keyId ++ ':' :: nonce ∧
      presented.timestamp = timestamp ∧ verifyStateless options d =
        if options.toleranceSeconds < |(skewSeconds d.windowNow timestamp : ℚ)| then
          .error (.timestampOutOfWindow (skewSeconds d.windowNow timestamp)
            options.toleranceSeconds)
        else .ok (presented, rawBody) := by
  unfold bears at h
  split at h
  case h_1 presented rawBody hpres hbody =>
    simp only [Bool.and_eq_true, decide_eq_true_eq] at h
    obtain ⟨⟨⟨hkey, hnonce⟩, hts⟩, hdgst⟩ := h
    have hok : verifyDigest options d presented rawBody = .ok () := by
      cases hd : verifyDigest options d presented rawBody with
      | error e => simp [hd, Except.toBool] at hdgst
      | ok u => rfl
    subst hts
    refine ⟨presented, rawBody, by simp [replayKey, hkey, hnonce], rfl, ?_⟩
    simp only [verifyStateless, hpres, readRawBody, hbody]
    by_cases hskew :
        options.toleranceSeconds < |(skewSeconds d.windowNow presented.timestamp : ℚ)|
    · simp [hskew, throw, throwThe, MonadExceptOf.throw]
    · simp [hskew, hok]
  case h_2 => cases h

lemma handler_keeps {key held} (hget : guard.seen.get key = some held) (hlive : d.guardNow < held) :
    (verifyWebhookSignatureHandler options guard d).2.seen.get key = some held := by
  unfold verifyWebhookSignatureHandler
  cases hstl : verifyStateless options d with
  | error e => exact hget
  | ok verified =>
    obtain ⟨presented, rawBody⟩ := verified
    have hkept := MemoryReplayGuard.remember_keeps (replayKey presented)
      (replayExpiry options presented.timestamp) hget hlive
    dsimp only
    split <;> exact hkept

/-- Acceptance leaves the nonce recorded until the signed timestamp's expiry. -/
lemma handler_records (hbears : bears options keyId nonce timestamp d)
    (hacc : (verifyWebhookSignatureHandler options guard d).1.isAccepted) :
    (verifyWebhookSignatureHandler options guard d).2.seen.get (keyId ++ ':' :: nonce) =
      some (replayExpiry options timestamp) := by
  obtain ⟨presented, rawBody, hkey, hts, hstl⟩ := verifyStateless_of_bears hbears
  by_cases hskew : options.toleranceSeconds < |(skewSeconds d.windowNow timestamp : ℚ)|
  · rw [if_pos hskew] at hstl
    simp [verifyWebhookSignatureHandler, hstl, Outcome.isAccepted] at hacc
  · rw [if_neg hskew] at hstl
    simp only [verifyWebhookSignatureHandler, hstl, hkey, hts] at hacc ⊢
    cases hdec : (guard.remember (keyId ++ ':' :: nonce)
        (replayExpiry options timestamp) d.guardNow).1 with
    | accepted => exact MemoryReplayGuard.remember_accepted _ hdec
    | replayed => simp [hdec, Outcome.isAccepted] at hacc
    | cacheFull => simp [hdec, Outcome.isAccepted] at hacc

/-- Past the last admitted second the whole-second window refuses the timestamp. -/
lemma window_refuses {now : ℚ} (h : (timestamp + ⌊options.toleranceSeconds⌋ + 1) * 1000 ≤ now) :
    options.toleranceSeconds < |(skewSeconds now timestamp : ℚ)| := by
  have hle : (timestamp : ℤ) + ⌊options.toleranceSeconds⌋ + 1 ≤ ⌊now / 1000⌋ := by
    rw [Int.le_floor]
    push_cast
    linarith
  have hskew : (⌊options.toleranceSeconds⌋ : ℤ) + 1 ≤ skewSeconds now timestamp := by
    unfold skewSeconds
    omega
  have hcast : ((⌊options.toleranceSeconds⌋ : ℤ) : ℚ) + 1 ≤ (skewSeconds now timestamp : ℚ) := by
    exact_mod_cast hskew
  have hfloor := Int.lt_floor_add_one options.toleranceSeconds
  exact lt_of_lt_of_le (lt_of_lt_of_le hfloor hcast) (le_abs_self _)

/-- A spent nonce is refused, either because it is still held or because the
delivery comes after the last admitted second. -/
lemma handler_spent (hbears : bears options keyId nonce timestamp d)
    (hheld : guard.seen.get (keyId ++ ':' :: nonce) = some (replayExpiry options timestamp) ∨
      replayExpiry options timestamp ≤ d.guardNow)
    (hgap : ¬ InForgottenSecond options timestamp d) :
    RefusedAsSpent options (verifyWebhookSignatureHandler options guard d).1 := by
  obtain ⟨presented, rawBody, hkey, hts, hstl⟩ := verifyStateless_of_bears hbears
  by_cases hskew : options.toleranceSeconds < |(skewSeconds d.windowNow timestamp : ℚ)|
  · rw [if_pos hskew] at hstl
    left
    exact ⟨skewSeconds d.windowNow timestamp, by simp [verifyWebhookSignatureHandler, hstl]⟩
  · rw [if_neg hskew] at hstl
    have hlive : d.guardNow < replayExpiry options timestamp := by
      by_contra hexp
      have hpast : (timestamp + ⌊options.toleranceSeconds⌋ + 1) * 1000 ≤ d.windowNow := by
        by_contra hins
        exact hgap ⟨not_lt.mp hexp, not_le.mp hins⟩
      exact hskew (window_refuses hpast)
    have hget := hheld.resolve_right (not_le.mpr hlive)
    have hrep := MemoryReplayGuard.remember_replayed (replayExpiry options timestamp) hget
      hlive
    right
    simp [verifyWebhookSignatureHandler, hstl, hkey, hts, hrep]

variable {ds : List Delivery}

lemma clockOrdered_tail (h : ClockOrdered (d :: ds)) : ClockOrdered ds := by
  have hcons : ([d.windowNow, d.guardNow] ++ clockReadings ds).Pairwise (· ≤ ·) := h
  exact (pairwise_append.mp hcons).2.1

lemma guardNow_le_of_clockOrdered {e} (h : ClockOrdered (d :: ds)) (he : e ∈ ds) :
    d.guardNow ≤ e.guardNow := by
  have hcons : ([d.windowNow, d.guardNow] ++ clockReadings ds).Pairwise (· ≤ ·) := h
  apply (pairwise_append.mp hcons).2.2 d.guardNow (by simp) e.guardNow
  exact mem_flatMap.mpr ⟨e, he, by simp⟩

/-- Once the nonce is recorded, or its expiry lies behind every later reading,
every later delivery of the triple is refused. -/
lemma deliver_spent (hclk : ClockOrdered ds)
    (hheld : guard.seen.get (keyId ++ ':' :: nonce) = some (replayExpiry options timestamp) ∨
      ∀ d ∈ ds, replayExpiry options timestamp ≤ d.guardNow)
    (hgap : ∀ d ∈ ds, bears options keyId nonce timestamp d →
      ¬ InForgottenSecond options timestamp d) :
    ∀ x ∈ deliver options guard ds, bears options keyId nonce timestamp x.1 →
      RefusedAsSpent options x.2 := by
  induction ds generalizing guard with
  | nil => simp [deliver]
  | cons d ds ih =>
    have hd : guard.seen.get (keyId ++ ':' :: nonce) =
        some (replayExpiry options timestamp) ∨ replayExpiry options timestamp ≤ d.guardNow :=
      hheld.imp_right (fun hall => hall d (by simp))
    have hnext : (verifyWebhookSignatureHandler options guard d).2.seen.get
          (keyId ++ ':' :: nonce) = some (replayExpiry options timestamp) ∨
        ∀ e ∈ ds, replayExpiry options timestamp ≤ e.guardNow := by
      by_cases hexp : replayExpiry options timestamp ≤ d.guardNow
      · right
        intro e he
        exact hexp.trans (guardNow_le_of_clockOrdered hclk he)
      · left
        exact handler_keeps (hd.resolve_right hexp) (not_le.mp hexp)
    intro x hx hbears
    rcases mem_cons.mp hx with rfl | hx
    · exact handler_spent hbears hd (hgap d (by simp) hbears)
    · exact ih (clockOrdered_tail hclk) hnext (fun e he => hgap e (by simp [he])) x hx hbears

/-- Acceptance of the triple excludes it from the rest of the run. -/
lemma deliver_pairwise (guard) (hclk : ClockOrdered ds)
    (hgap : ∀ d ∈ ds, bears options keyId nonce timestamp d →
      ¬ InForgottenSecond options timestamp d) :
    (deliver options guard ds).Pairwise (fun x y =>
      bears options keyId nonce timestamp x.1 → x.2.isAccepted →
        bears options keyId nonce timestamp y.1 → RefusedAsSpent options y.2) := by
  induction ds generalizing guard with
  | nil => simp [deliver]
  | cons d ds ih =>
    have hgap' : ∀ e ∈ ds, bears options keyId nonce timestamp e →
        ¬ InForgottenSecond options timestamp e := fun e he => hgap e (by simp [he])
    rw [deliver, pairwise_cons]
    refine ⟨?_, ih _ (clockOrdered_tail hclk) hgap'⟩
    intro y hy hbears hacc hy'
    have hrec := handler_records hbears hacc
    exact deliver_spent (clockOrdered_tail hclk) (.inl hrec) hgap' y hy hy'

/-- Signatures are single-use over every run in which no delivery of the triple
falls into the second that the window still admits and the guard already forgets. -/
theorem webhook_signature_single_use {J : Type*} (options : VerifyWebhookSignatureOptions J)
    (guard : MemoryReplayGuard) (ds : List Delivery) (keyId nonce : Text) (timestamp : ℕ)
    (hclock : ClockOrdered ds)
    (hgap : ∀ d ∈ ds, bears options keyId nonce timestamp d = true →
      ¬ InForgottenSecond options timestamp d) :
    SingleUse options keyId nonce timestamp (deliver options guard ds) := by
  have hpair := deliver_pairwise guard hclock hgap
  refine ⟨?_, hpair⟩
  -- Of two accepted deliveries of the triple the later one would have been refused.
  have hnone : ((deliver options guard ds).filter
      (fun x => bears options keyId nonce timestamp x.1 && x.2.isAccepted)).Pairwise
      (fun _ _ => False) := by
    refine pairwise_filter.mpr (hpair.imp ?_)
    intro x y hxy hx hy
    rw [Bool.and_eq_true] at hx hy
    rcases hxy hx.1 hx.2 hy.1 with ⟨skew, hspent⟩ | hspent <;>
      simp [hspent, Outcome.isAccepted] at hy
  rw [countP_eq_length_filter]
  generalize (deliver options guard ds).filter _ = accepted at hnone
  rcases accepted with _ | ⟨x, _ | ⟨y, rest⟩⟩
  · exact Nat.zero_le 1
  · exact le_rfl
  · exact ((pairwise_cons.mp hnone).1 y mem_cons_self).elim

def sampleDigest : Text :=
  "e3da3a2f4977232f43203d8e496e0dec18cf0bd1e2a1511206c1a3b85f112320".toList

/-- A receiver with one secret of 32 zero bytes and a tolerance of five minutes.
The two hash values are the real ones for the sample delivery. -/
def sampleOptions : VerifyWebhookSignatureOptions Unit where
  digests :=
    { sha256 := fun _ =>
        "e3b0c44298fc1c149afbf4c8996fb92427ae41e4649b934ca495991b7852b855".toList
      hmac := fun _ _ => sampleDigest }
  ring := ⟨['k', '1'], OrderedMap.empty.set ['k', '1'] (List.replicate 32 0), by simp⟩
  toleranceSeconds := 300
  toleranceSeconds_pos := by norm_num
  parseJsonBody := false
  jsonParse := fun _ => .ok ()

def sampleNonce : Text := "0123456789abcdef".toList

def sampleDelivery (now : ℚ) : Delivery where
  header := .single ("t=1000,n=0123456789abcdef,kid=k1,v1=".toList ++ sampleDigest)
  method := "POST".toList
  originalUrl := "/v1/webhooks/inbound".toList
  body := some []
  windowNow := now
  guardNow := now

def sampleGuard : MemoryReplayGuard := MemoryReplayGuard.create 100000 (by norm_num)

/-- The last millisecond before the expiry is inside the condition. -/
theorem webhook_signature_single_use_before_expiry :
    SingleUse sampleOptions ['k', '1'] sampleNonce 1000
      (deliver sampleOptions sampleGuard [sampleDelivery 1000000, sampleDelivery 1299999]) := by
  apply webhook_signature_single_use
  · simp only [ClockOrdered, clockReadings, sampleDelivery]
    norm_num
  · intro d hd _ hgap
    have htol : sampleOptions.toleranceSeconds = 300 := rfl
    have hexp := hgap.1
    rw [replayExpiry, htol] at hexp
    simp only [mem_cons, not_mem_nil, or_false] at hd
    rcases hd with rfl | rfl
    · simp only [sampleDelivery] at hexp
      norm_num at hexp
    · simp only [sampleDelivery] at hexp
      norm_num at hexp

/-- Half a second after the expiry the window still admits the timestamp, the
guard has forgotten the nonce, and the same delivery is accepted again. -/
theorem webhook_signature_accepted_twice :
    ¬ ∀ ds : List Delivery, ClockOrdered ds →
      (∀ x ∈ deliver sampleOptions sampleGuard ds,
        x.2 ≠ .refused (.replayCacheFull sampleOptions.toleranceSeconds)) →
      SingleUse sampleOptions ['k', '1'] sampleNonce 1000
        (deliver sampleOptions sampleGuard ds) := by
  intro h
  have htwice : (deliver sampleOptions sampleGuard
      [sampleDelivery 1000000, sampleDelivery 1300500]).countP
      (fun x => bears sampleOptions ['k', '1'] sampleNonce 1000 x.1 && x.2.isAccepted) = 2 := by
    decide +kernel
  have hacc : (deliver sampleOptions sampleGuard
      [sampleDelivery 1000000, sampleDelivery 1300500]).all (fun x => x.2.isAccepted) := by
    decide +kernel
  have hsing := h [sampleDelivery 1000000, sampleDelivery 1300500]
    (by simp only [ClockOrdered, clockReadings, sampleDelivery]; norm_num) (by
      intro x hx he
      have hx' := all_eq_true.mp hacc x hx
      simp [he, Outcome.isAccepted] at hx')
  have hle := hsing.1
  omega

end BoilerplateExpress.Webhooks

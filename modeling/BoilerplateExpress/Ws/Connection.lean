import Mathlib
import BoilerplateExpress.Auth.Jwt
import BoilerplateExpress.Ws.Close
import BoilerplateExpress.Ws.TokenBucket

/-!
# One authenticated socket

`createWsConnection` of `ws/connection.ts`: what an inbound frame does to the
connection. The listener runs inside an event emitter, so anything it throws is an
uncaught exception; the functions below return an error exactly where the code
throws. The message handler is a parameter, and its own effect on the connection
is arbitrary.
-/
namespace BoilerplateExpress.Ws

open List

structure WsRateLimitOptions where
  burst : ℕ
  messagesPerSecond : ℕ
  bytesPerSecond : ℕ
  maxMessageBytes : ℕ

structure WsConnectionOptions where
  principal : Auth.JwtPayload
  rateLimit : WsRateLimitOptions
  heartbeatIntervalMs : ℕ
  maxBufferedBytes : ℕ
  expiresInMs : Option ℚ

/-- What the connection did to its socket. -/
inductive SocketCall where
  | close (code : WsCloseCode) (reason : Text)
  | terminate

structure WsConnection where
  principal : Auth.JwtPayload
  /-- The delay of the timer that closes the connection when its token expires. -/
  expiryDelayMs : Option ℚ
  rateLimit : WsRateLimitOptions
  messages : TokenBucket
  bytes : TokenBucket
  closed : Bool
  throttledCount : ℕ
  awaitingPong : Bool
  socketCalls : List SocketCall

/-- The largest delay a timer takes; above it a timer fires at once. -/
def maxTimeoutMs : ℚ := 2 ^ 31 - 1

/-- The checks and the initial state of a connection, with one clock reading for
each bucket. -/
def createWsConnection (options : WsConnectionOptions) (messagesNow bytesNow : ℚ) :
    Except RangeError WsConnection :=
  if options.heartbeatIntervalMs < 1 then
    .error ⟨"createWsConnection: heartbeatIntervalMs must be an integer >= 1, received ",
      options.heartbeatIntervalMs⟩
  else if options.maxBufferedBytes < 1 then
    .error ⟨"createWsConnection: maxBufferedBytes must be an integer >= 1, received ",
      options.maxBufferedBytes⟩
  else do
    let limit := options.rateLimit
    let messages ← TokenBucket.create limit.burst limit.messagesPerSecond messagesNow
    let bytes ← TokenBucket.create
      (max limit.bytesPerSecond (limit.burst * limit.maxMessageBytes)) limit.bytesPerSecond bytesNow
    .ok
      { principal := options.principal
        expiryDelayMs := options.expiresInMs.map (fun delay => min delay maxTimeoutMs)
        rateLimit := limit
        messages := messages
        bytes := bytes
        closed := false
        throttledCount := 0
        awaitingPong := false
        socketCalls := [] }

namespace WsConnection

def finalise (c : WsConnection) : WsConnection := { c with closed := true }

/-- Sends a close frame and tears down. A peer that does not read is cut off
without waiting for its close frame. -/
def close (socket : SocketLibrary) (c : WsConnection) (code : WsCloseCode) (reason : Text) :
    Except Text WsConnection :=
  if c.closed then .ok c
  else do
    let reason := truncateCloseReason reason
    socket.closeFrame code.number reason
    let calls := if code = .slowConsumer ∨ code = .unresponsive
      then [.close code reason, .terminate] else [.close code reason]
    .ok (finalise { c with socketCalls := c.socketCalls ++ calls })

/-- The clock readings a frame may make, one for each bucket operation. -/
structure Readings where
  messages : ℚ
  bytes : ℚ
  retry : ℚ

/-- Charges both buckets for one frame; the answer is the reason of a refusal. -/
def admitFrame (c : WsConnection) (sizeBytes : ℕ) (clock : Readings) :
    Except RangeError (Option Text × WsConnection) :=
  if sizeBytes > c.rateLimit.maxMessageBytes then
    .ok (some ("Message of ".toList ++ Text.natToText sizeBytes ++ " bytes exceeds the ".toList ++
      Text.natToText c.rateLimit.maxMessageBytes ++ "-byte limit".toList), c)
  else do
    let (taken, messages) ← c.messages.tryRemove 1 clock.messages
    if !taken then
      let (seconds, messages) := messages.retryAfterSeconds 1 clock.retry
      .ok (some ("Message rate limit exceeded; retry in ".toList ++
        Text.natToText seconds.toNat ++ ['s']), { c with messages := messages })
    else
      let (taken, bytes) ← c.bytes.tryRemove sizeBytes clock.bytes
      if !taken then
        let (seconds, bytes) := bytes.retryAfterSeconds sizeBytes clock.retry
        .ok (some ("Byte rate limit exceeded; retry in ".toList ++
          Text.natToText seconds.toNat ++ ['s']),
          { c with messages := messages, bytes := bytes })
      else .ok (none, { c with messages := messages, bytes := bytes })

end WsConnection

/-- An inbound frame after reassembly. -/
structure InboundFrame where
  data : Bytes
  isBinary : Bool

/-- The application's handler: the decoding of the frame, and what the handler does
to the connection before it returns or throws. -/
structure MessageHandler where
  decode : Bytes → Text
  onMessage : Text → WsConnection → WsConnection × Bool

inductive ListenerError where
  | range (e : RangeError)
  | close (message : Text)

inductive FrameOutcome where
  | ignored
  | refused
  | handled
  deriving DecidableEq, Repr

def closeAs (socket : SocketLibrary) (outcome : FrameOutcome) (c : WsConnection)
    (code : WsCloseCode) (reason : Text) : Except ListenerError (FrameOutcome × WsConnection) :=
  match c.close socket code reason with
  | .error message => .error (.close message)
  | .ok c => .ok (outcome, c)

/-- The `message` listener. -/
def messageListener (socket : SocketLibrary) (handler : MessageHandler) (c : WsConnection)
    (frame : InboundFrame) (clock : WsConnection.Readings) :
    Except ListenerError (FrameOutcome × WsConnection) :=
  if c.closed then .ok (.ignored, c)
  else if frame.isBinary then
    closeAs socket .refused c .policyViolation
      "Binary frames are not accepted; send UTF-8 JSON text".toList
  else
    match c.admitFrame frame.data.length clock with
    | .error e => .error (.range e)
    | .ok (some reason, c) =>
      closeAs socket .refused { c with throttledCount := c.throttledCount + 1 } .rateLimited reason
    | .ok (none, c) =>
      match handler.onMessage (handler.decode frame.data) { c with awaitingPong := false } with
      | (c, true) => closeAs socket .handled c .internalError "Internal error".toList
      | (c, false) => .ok (.handled, c)

lemma close_closes (socket : SocketLibrary) (c : WsConnection) (code : WsCloseCode)
    (reason : Text) : ∃ c', c.close socket code reason = .ok c' ∧ c'.closed := by
  unfold WsConnection.close
  by_cases hcl : c.closed
  · exact ⟨c, by simp [hcl], hcl⟩
  · have hframe := closeFrame_truncated socket code reason
    simp only [hcl, hframe]
    exact ⟨_, rfl, rfl⟩

lemma closeAs_closes (socket : SocketLibrary) (outcome : FrameOutcome) (c : WsConnection)
    (code : WsCloseCode) (reason : Text) :
    ∃ c', closeAs socket outcome c code reason = .ok (outcome, c') ∧ c'.closed := by
  obtain ⟨c', hclose, hcl⟩ := close_closes socket c code reason
  refine ⟨c', ?_, hcl⟩
  rw [closeAs, hclose]

/-- `admitFrame` throws exactly on an empty frame that the message bucket lets through. -/
theorem admit_ok_iff (c : WsConnection) (sizeBytes clock) :
    (∃ r, c.admitFrame sizeBytes clock = .ok r) ↔
      sizeBytes ≠ 0 ∨ (c.messages.refill clock.messages).tokens < 1 := by
  unfold WsConnection.admitFrame
  by_cases hsize : sizeBytes > c.rateLimit.maxMessageBytes
  · have hne : sizeBytes ≠ 0 := by omega
    simp [hsize, hne]
  · simp only [hsize]
    obtain ⟨⟨taken, messages⟩, hmsgs⟩ :=
      (c.messages.tryRemove_ok_iff 1 clock.messages).mpr one_pos
    have hgr := c.messages.tryRemove_granted_iff clock.messages one_pos
    rw [hmsgs] at hgr ⊢
    cases taken with
    | false =>
      have hlow : (c.messages.refill clock.messages).tokens < 1 := by simpa using hgr
      simp [hlow, bind, Except.bind]
    | true =>
      have hfull : 1 ≤ (c.messages.refill clock.messages).tokens := by simpa using hgr
      have hbytes := c.bytes.tryRemove_ok_iff sizeBytes clock.bytes
      have hsiz : sizeBytes ≠ 0 ↔ (0 : ℚ) < sizeBytes := by
        rw [Nat.cast_pos, Nat.pos_iff_ne_zero]
      simp only [hsiz, not_lt.mpr hfull, or_false, ← hbytes]
      constructor
      · rintro ⟨r, hr⟩
        cases htry : c.bytes.tryRemove sizeBytes clock.bytes with
        | error e => simp [htry, bind, Except.bind] at hr
        | ok b => exact ⟨b, rfl⟩
      · rintro ⟨⟨granted, bytes⟩, htry⟩
        cases granted <;> simp [htry, bind, Except.bind]

/-- The listener returns, having passed the frame to the handler or with the
connection closed. -/
def FrameAnswered (result : Except ListenerError (FrameOutcome × WsConnection)) : Prop :=
  ∃ outcome c, result = .ok (outcome, c) ∧ (outcome = .handled ∨ c.closed = true)

/-- A frame crashes the listener exactly when it is an empty text frame on an open
connection whose message bucket still holds a token. -/
theorem frame_answered_iff (socket : SocketLibrary) (handler : MessageHandler) (c : WsConnection)
    (frame : InboundFrame) (clock : WsConnection.Readings) :
    FrameAnswered (messageListener socket handler c frame clock) ↔
      c.closed = true ∨ frame.isBinary = true ∨ frame.data ≠ [] ∨
        (c.messages.refill clock.messages).tokens < 1 := by
  unfold messageListener
  by_cases hcl : c.closed
  · simp only [hcl, true_or, iff_true]
    exact ⟨.ignored, c, rfl, .inr hcl⟩
  by_cases hbin : frame.isBinary
  · obtain ⟨c', hclose, hcl'⟩ := closeAs_closes socket .refused c .policyViolation
      "Binary frames are not accepted; send UTF-8 JSON text".toList
    simp only [hcl, hbin, hclose, true_or, or_true, iff_true]
    exact ⟨.refused, c', rfl, .inr hcl'⟩
  · have hadmit := admit_ok_iff c frame.data.length clock
    rw [Ne, length_eq_zero_iff] at hadmit
    simp only [hcl, hbin, Bool.false_eq_true, false_or, ← hadmit]
    cases hres : c.admitFrame frame.data.length clock with
    | error e => simp [FrameAnswered]
    | ok r =>
      obtain ⟨verdict, c₁⟩ := r
      have hok : ∃ r, (Except.ok (verdict, c₁) : Except RangeError _) = .ok r := ⟨_, rfl⟩
      simp only [hok, iff_true]
      cases verdict with
      | some reason =>
        obtain ⟨c', hclose, hcl'⟩ := closeAs_closes socket .refused
          { c₁ with throttledCount := c₁.throttledCount + 1 } .rateLimited reason
        exact ⟨.refused, c', hclose, .inr hcl'⟩
      | none =>
        simp only
        rcases handler.onMessage (handler.decode frame.data)
          { c₁ with awaitingPong := false } with ⟨c₂, threw⟩
        cases threw with
        | false => exact ⟨.handled, c₂, rfl, .inl rfl⟩
        | true =>
          obtain ⟨c', hclose, _⟩ :=
            closeAs_closes socket .handled c₂ .internalError "Internal error".toList
          exact ⟨.handled, c', hclose, .inl rfl⟩

/-- The default limits of the service. -/
def sampleConnectionOptions : WsConnectionOptions where
  principal := ⟨['u'], [], .access, none⟩
  rateLimit := ⟨20, 10, 131072, 65536⟩
  heartbeatIntervalMs := 30000
  maxBufferedBytes := 1048576
  expiresInMs := none

def sampleHandler : MessageHandler where
  decode _ := []
  onMessage _ c := (c, false)

/-- A socket library that throws on everything outside the documented bounds. -/
def sampleSocket : SocketLibrary where
  closeFrame code reason :=
    if IsSendable code ∧ Text.utf8Length reason ≤ maxCloseReasonBytes then .ok ()
    else .error "invalid close frame".toList
  closeFrame_ok _ _ hcode hreason := if_pos ⟨hcode, hreason⟩

/-- The first frame of a fresh connection with the default limits, an empty text
frame, makes the byte bucket throw. -/
theorem empty_frame_throws :
    ∃ c, createWsConnection sampleConnectionOptions 0 0 = .ok c ∧
      ¬ ∀ frame clock, FrameAnswered (messageListener sampleSocket sampleHandler c frame clock) := by
  have hthr : (createWsConnection sampleConnectionOptions 0 0).toOption.map (fun c =>
      (messageListener sampleSocket sampleHandler c ⟨[], false⟩ ⟨0, 0, 0⟩).isOk) = some false := by
    decide +kernel
  cases hcreate : createWsConnection sampleConnectionOptions 0 0 with
  | error e =>
    rw [hcreate] at hthr
    cases hthr
  | ok c =>
    refine ⟨c, rfl, ?_⟩
    intro h
    obtain ⟨outcome, c', heq, _⟩ := h ⟨[], false⟩ ⟨0, 0, 0⟩
    rw [hcreate] at hthr
    have hok : (messageListener sampleSocket sampleHandler c ⟨[], false⟩ ⟨0, 0, 0⟩).isOk = false :=
      Option.some.inj hthr
    rw [heq] at hok
    cases hok

/-! ### Bursts -/

/-- Frames of these sizes, one after the other, are all admitted. -/
def WsConnection.AdmitsAll : WsConnection → List (ℕ × WsConnection.Readings) → Prop
  | _, [] => True
  | c, frame :: frames =>
    ∃ c', c.admitFrame frame.1 frame.2 = .ok (none, c') ∧ c'.AdmitsAll frames

/-- Each frame takes one token from the one bucket and at most its limit from the other. -/
lemma admitsAll_of_tokens {frames} {c : WsConnection}
    (hsizes : ∀ frame ∈ frames, 0 < frame.1 ∧ frame.1 ≤ c.rateLimit.maxMessageBytes)
    (hmsgs : frames.length ≤ c.messages.tokens)
    (hbytes : frames.length * (c.rateLimit.maxMessageBytes : ℚ) ≤ c.bytes.tokens) :
    c.AdmitsAll frames := by
  induction frames generalizing c with
  | nil => trivial
  | cons frame frames ih =>
    obtain ⟨hpos, hmax⟩ := hsizes frame mem_cons_self
    have hsize : (frame.1 : ℚ) ≤ c.rateLimit.maxMessageBytes := Nat.cast_le.mpr hmax
    have hrest : 0 ≤ frames.length * (c.rateLimit.maxMessageBytes : ℚ) := by positivity
    rw [length_cons, Nat.cast_add_one] at hmsgs hbytes
    obtain ⟨messages, hmsg, hmes⟩ :=
      c.messages.tryRemove_of_le frame.2.messages one_pos (by linarith)
    obtain ⟨bytes, hbyte, hbyt⟩ :=
      c.bytes.tryRemove_of_le frame.2.bytes (Nat.cast_pos.mpr hpos) (by linarith)
    refine ⟨{ c with messages := messages, bytes := bytes }, ?_, ?_⟩
    · unfold WsConnection.admitFrame
      rw [if_neg (not_lt.mpr hmax), hmsg]
      simp [bind, Except.bind, hbyte]
    · refine ih (fun other hoth => hsizes other (mem_cons_of_mem _ hoth)) ?_ ?_
      · dsimp only
        linarith
      · dsimp only
        linarith

lemma createWsConnection_spec {options messagesNow bytesNow c}
    (h : createWsConnection options messagesNow bytesNow = .ok c) :
    c.rateLimit = options.rateLimit ∧ c.messages.tokens = options.rateLimit.burst ∧
      options.rateLimit.burst * (options.rateLimit.maxMessageBytes : ℚ) ≤ c.bytes.tokens := by
  unfold createWsConnection at h
  split_ifs at h
  dsimp only at h
  obtain ⟨messages, hmsgs, h⟩ := bind_eq_ok h
  obtain ⟨bytes, hbytes, h⟩ := bind_eq_ok h
  cases h
  refine ⟨rfl, (TokenBucket.create_spec hmsgs).2.2.1, ?_⟩
  rw [(TokenBucket.create_spec hbytes).2.2.1]
  exact le_max_right _ _

/-- A bucket stays within its bounds and admits at most its capacity and the rate times the
time within any window; a refusal spends nothing, and after the wait it is told a client is
served. A fresh connection admits a burst. -/
theorem buckets_bound_traffic {capacity rate start : ℚ} {b : TokenBucket}
    (hb : TokenBucket.create capacity rate start = .ok b) (calls : List TokenBucket.Call)
    (hclock : (start :: calls.map (·.nowMs)).Pairwise (· ≤ ·)) :
    (0 ≤ (b.after calls).tokens ∧ (b.after calls).tokens ≤ capacity) ∧
    (∀ before during rest u t, calls = before ++ during ++ rest → 0 ≤ t →
      (∀ c ∈ during, u ≤ c.nowMs ∧ c.nowMs ≤ u + 1000 * t) →
        (b.after before).admitted during ≤ capacity + rate * t) ∧
    (∀ cost nowMs b', (b.after calls).tryRemove cost nowMs = .ok (false, b') →
      b' = (b.after calls).refill nowMs) ∧
    (∀ cost nowMs idle later, 0 < cost → cost ≤ capacity →
      ((b.after calls).retryAfterSeconds cost nowMs).2.admitted idle = 0 →
      (nowMs :: (idle.map (·.nowMs) ++ [later])).Pairwise (· ≤ ·) →
      nowMs + 1000 * ((b.after calls).retryAfterSeconds cost nowMs).1 ≤ later →
        ∃ b', (((b.after calls).retryAfterSeconds cost nowMs).2.after idle).tryRemove cost later =
          .ok (true, b')) ∧
    ∀ options messagesNow bytesNow c, createWsConnection options messagesNow bytesNow = .ok c →
      ∀ frames : List (ℕ × WsConnection.Readings), frames.length ≤ options.rateLimit.burst →
        (∀ frame ∈ frames, 0 < frame.1 ∧ frame.1 ≤ options.rateLimit.maxMessageBytes) →
          c.AdmitsAll frames := by
  obtain ⟨rfl, rfl, -, -⟩ := TokenBucket.create_spec hb
  have hsame := b.after_fields
  refine ⟨⟨(b.after calls).nonneg, ?_⟩, ?_, ?_, ?_, ?_⟩
  · exact (b.after calls).le_capacity.trans_eq (hsame calls).1
  · intro before during rest u t hcalls ht hwin
    have hdur : (during.map (·.nowMs)).Pairwise (· ≤ ·) := by
      rw [hcalls, map_append, map_append] at hclock
      exact (pairwise_append.mp (pairwise_append.mp hclock.of_cons).1).2.1
    have hle := TokenBucket.admitted_le (b := b.after before) ht hdur hwin
    rwa [(hsame before).1, (hsame before).2] at hle
  · intro cost nowMs b' htry
    unfold TokenBucket.tryRemove at htry
    dsimp only at htry
    split_ifs at htry <;> cases htry
    rfl
  · intro cost nowMs idle later hcost hfits hidle hlater hwait
    exact TokenBucket.tryRemove_after_retry hcost (hfits.trans_eq (hsame calls).1.symm) hidle
      hlater hwait
  · intro options messagesNow bytesNow c hc frames hlen hsizes
    obtain ⟨hlimit, hmsgs, hbytes⟩ := createWsConnection_spec hc
    have hcnt : (frames.length : ℚ) ≤ options.rateLimit.burst := Nat.cast_le.mpr hlen
    refine admitsAll_of_tokens (by rwa [hlimit]) (by rwa [hmsgs]) ?_
    rw [hlimit]
    exact (mul_le_mul_of_nonneg_right hcnt (Nat.cast_nonneg _)).trans hbytes

/-- Three calls within a second on a bucket of two tokens and one a second. -/
theorem buckets_bound_sample : ∃ b, TokenBucket.create 2 1 0 = .ok b ∧
    b.admitted [.tryRemove ⟨1, one_pos⟩ 0, .tryRemove ⟨1, one_pos⟩ 500,
      .tryRemove ⟨1, one_pos⟩ 1000] ≤ 2 + 1 * 1 := by
  have hcreate : TokenBucket.create 2 1 0 = .ok _ := rfl
  refine ⟨_, hcreate, ?_⟩
  refine (buckets_bound_traffic hcreate _ ?_).2.1 [] _ [] 0 1 (append_nil _).symm ?_ ?_
  · norm_num [TokenBucket.Call.nowMs]
  · norm_num
  · norm_num [TokenBucket.Call.nowMs]

end BoilerplateExpress.Ws

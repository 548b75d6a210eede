import BoilerplateExpress.Text

/-!
# Close codes and close reasons

`ws/ws.close.ts`. The socket library may throw from `close` on a code outside the
protocol's ranges and on a reason above 123 bytes, so every reason goes through
`truncateCloseReason` first.
-/
namespace BoilerplateExpress.Ws

open List

inductive WsCloseCode where
  | normal
  | goingAway
  | policyViolation
  | messageTooBig
  | internalError
  | tokenExpired
  | unresponsive
  | rateLimited
  | slowConsumer
  deriving DecidableEq, Repr

def WsCloseCode.number : WsCloseCode → ℕ
  | .normal => 1000
  | .goingAway => 1001
  | .policyViolation => 1008
  | .messageTooBig => 1009
  | .internalError => 1011
  | .tokenExpired => 4001
  | .unresponsive => 4002
  | .rateLimited => 4008
  | .slowConsumer => 4009

def maxCloseReasonBytes : ℕ := 123

def replacementCharacter : Char := Char.ofNat 0xFFFD

def byteOrderMark : Char := Char.ofNat 0xFEFF

/-- Decodes the first `limit` bytes of the encoding of a text: its whole characters,
and one replacement character for a sequence the cut runs through. -/
def decodePrefix (limit : ℕ) : Text → Text
  | [] => []
  | c :: s =>
    if c.utf8Size ≤ limit then c :: decodePrefix (limit - c.utf8Size) s
    else if limit = 0 then []
    else [replacementCharacter]

/-- A decoder drops one leading byte order mark. -/
def dropByteOrderMark : Text → Text
  | [] => []
  | c :: s => if c = byteOrderMark then s else c :: s

/-- Removes the trace of a cut character. -/
def stripReplacement (decoded : Text) : Text :=
  if decoded.getLast? = some replacementCharacter then decoded.dropLast else decoded

def truncateCloseReason (reason : Text) : Text :=
  if Text.utf8Length reason ≤ maxCloseReasonBytes then reason
  else stripReplacement (dropByteOrderMark (decodePrefix maxCloseReasonBytes reason))

/-- The codes that may stand in a close frame. -/
def IsSendable (code : ℕ) : Prop :=
  (1000 ≤ code ∧ code ≤ 1014 ∧ code ≠ 1004 ∧ code ≠ 1005 ∧ code ≠ 1006) ∨
    (3000 ≤ code ∧ code ≤ 4999)

instance (code : ℕ) : Decidable (IsSendable code) := inferInstanceAs (Decidable (_ ∨ _))

/-- `close` of the socket library, with the message of what it throws. Within the documented
bounds it does not throw. -/
structure SocketLibrary where
  closeFrame : ℕ → Text → Except Text Unit
  closeFrame_ok : ∀ code reason, IsSendable code →
    Text.utf8Length reason ≤ maxCloseReasonBytes → closeFrame code reason = .ok ()

/-- The whole characters among the first `limit` bytes. -/
def wholeCharacters (limit : ℕ) : Text → Text
  | [] => []
  | c :: s => if c.utf8Size ≤ limit then c :: wholeCharacters (limit - c.utf8Size) s else []

lemma wholeCharacters_bytes (limit s) : Text.utf8Length (wholeCharacters limit s) ≤ limit := by
  induction s generalizing limit with
  | nil => simp [wholeCharacters]
  | cons c s ih =>
    unfold wholeCharacters
    split_ifs with hfits
    · have := ih (limit - c.utf8Size)
      rw [Text.utf8Length_cons]
      omega
    · simp

/-- The cut leaves a trace unless it is between two characters, or behind the last. -/
lemma decodePrefix_eq (limit s) :
    decodePrefix limit s = wholeCharacters limit s ++
      if Text.utf8Length (wholeCharacters limit s) = limit ∨ wholeCharacters limit s = s then []
      else [replacementCharacter] := by
  induction s generalizing limit with
  | nil => simp [decodePrefix, wholeCharacters]
  | cons c s ih =>
    unfold decodePrefix wholeCharacters
    by_cases hfits : c.utf8Size ≤ limit
    · have hiff : Text.utf8Length (c :: wholeCharacters (limit - c.utf8Size) s) = limit ∨
            c :: wholeCharacters (limit - c.utf8Size) s = c :: s ↔
          Text.utf8Length (wholeCharacters (limit - c.utf8Size) s) = limit - c.utf8Size ∨
            wholeCharacters (limit - c.utf8Size) s = s := by
        rw [Text.utf8Length_cons, cons_inj_right]
        exact or_congr (by omega) Iff.rfl
      rw [if_pos hfits, if_pos hfits, ih, if_congr hiff rfl rfl]
      rfl
    · rw [if_neg hfits, if_neg hfits]
      simp [eq_comm]

lemma dropByteOrderMark_suffix (s) : dropByteOrderMark s <:+ s := by
  cases s with
  | nil => exact suffix_rfl
  | cons c s =>
    simp only [dropByteOrderMark]
    split_ifs
    · exact suffix_cons c s
    · exact suffix_rfl

lemma dropByteOrderMark_append_singleton {c} (whole) (hc : c ≠ byteOrderMark) :
    dropByteOrderMark (whole ++ [c]) = dropByteOrderMark whole ++ [c] := by
  cases whole with
  | nil => simp [dropByteOrderMark, hc]
  | cons d whole =>
    simp only [cons_append, dropByteOrderMark]
    split_ifs
    · rfl
    · rfl

lemma isPrefix_stripReplacement (s) : stripReplacement s <+: s := by
  unfold stripReplacement
  split_ifs
  · exact dropLast_prefix s
  · exact prefix_rfl

/-- What is left of a reason that is too long: the whole characters without a leading byte order
mark, and without a replacement character at the end if the cut left no trace. -/
lemma truncateCloseReason_of_long {reason} (hlong : maxCloseReasonBytes < Text.utf8Length reason) :
    truncateCloseReason reason =
      if Text.utf8Length (wholeCharacters maxCloseReasonBytes reason) = maxCloseReasonBytes then
        stripReplacement (dropByteOrderMark (wholeCharacters maxCloseReasonBytes reason))
      else dropByteOrderMark (wholeCharacters maxCloseReasonBytes reason) := by
  have hne : wholeCharacters maxCloseReasonBytes reason ≠ reason := by
    intro heq
    have hbytes := wholeCharacters_bytes maxCloseReasonBytes reason
    rw [heq] at hbytes
    omega
  rw [truncateCloseReason, if_neg (not_le.mpr hlong), decodePrefix_eq]
  split_ifs with hcut hexact hexact
  · rw [append_nil]
  · exact absurd (hcut.resolve_right hne) hexact
  · exact absurd (.inl hexact) hcut
  · rw [dropByteOrderMark_append_singleton _ (by decide)]
    simp [stripReplacement]

lemma truncateCloseReason_fits (reason) :
    Text.utf8Length (truncateCloseReason reason) ≤ maxCloseReasonBytes := by
  rcases le_or_gt (Text.utf8Length reason) maxCloseReasonBytes with hfits | hlong
  · rwa [truncateCloseReason, if_pos hfits]
  · have hbytes := wholeCharacters_bytes maxCloseReasonBytes reason
    obtain ⟨front, hfront⟩ := dropByteOrderMark_suffix (wholeCharacters maxCloseReasonBytes reason)
    obtain ⟨back, hback⟩ := isPrefix_stripReplacement
      (dropByteOrderMark (wholeCharacters maxCloseReasonBytes reason))
    rw [← hfront, Text.utf8Length_append] at hbytes
    rw [truncateCloseReason_of_long hlong]
    split_ifs
    · rw [← hback, Text.utf8Length_append] at hbytes
      omega
    · omega

lemma closeFrame_truncated (socket : SocketLibrary) (code : WsCloseCode) (reason : Text) :
    socket.closeFrame code.number (truncateCloseReason reason) = .ok () := by
  refine socket.closeFrame_ok _ _ ?_ (truncateCloseReason_fits reason)
  cases code <;> decide

/-! ### The longest prefix that fits -/

def IsLongestPrefix (limit : ℕ) (s longest : Text) : Prop :=
  longest <+: s ∧ Text.utf8Length longest ≤ limit ∧
    ∀ other, other <+: s → Text.utf8Length other ≤ limit → other <+: longest

lemma isLongestPrefix_wholeCharacters (limit s) :
    IsLongestPrefix limit s (wholeCharacters limit s) := by
  refine ⟨?_, wholeCharacters_bytes limit s, ?_⟩
  · induction s generalizing limit with
    | nil => exact prefix_rfl
    | cons c s ih =>
      unfold wholeCharacters
      split_ifs
      · exact cons_prefix_cons.mpr ⟨rfl, ih _⟩
      · exact nil_prefix
  · intro other hoth hbytes
    induction s generalizing limit other with
    | nil => exact hoth
    | cons c s ih =>
      cases other with
      | nil => exact nil_prefix
      | cons d other =>
        obtain ⟨rfl, hrest⟩ := cons_prefix_cons.mp hoth
        rw [Text.utf8Length_cons] at hbytes
        rw [wholeCharacters, if_pos (by omega)]
        exact cons_prefix_cons.mpr ⟨rfl, ih _ other hrest (by omega)⟩

lemma isLongestPrefix_iff {limit s longest} :
    IsLongestPrefix limit s longest ↔ longest = wholeCharacters limit s := by
  have hwhole := isLongestPrefix_wholeCharacters limit s
  constructor
  · rintro ⟨hpre, hbytes, hall⟩
    refine (hwhole.2.2 longest hpre hbytes).eq_of_length_le ?_
    exact (hall _ hwhole.1 hwhole.2.1).length_le
  · rintro rfl
    exact hwhole

lemma dropByteOrderMark_eq_self {s} : dropByteOrderMark s = s ↔ s.head? ≠ some byteOrderMark := by
  cases s with
  | nil => simp [dropByteOrderMark]
  | cons c s =>
    simp only [dropByteOrderMark]
    split_ifs with hc
    · simp [hc]
    · simp [hc]

lemma stripReplacement_eq_self {s} :
    stripReplacement s = s ↔ s.getLast? ≠ some replacementCharacter := by
  unfold stripReplacement
  split_ifs with hlast
  · have hne : s ≠ [] := by
      rintro rfl
      cases hlast
    have hlen := length_pos_iff.mpr hne
    refine iff_of_false ?_ (not_not.mpr hlast)
    intro heq
    have := congrArg List.length heq
    rw [length_dropLast] at this
    omega
  · exact iff_of_true rfl hlast

/-- A reason is cut to its longest prefix that fits exactly if it fits as a whole, or does not
begin with a byte order mark and has no replacement character right before the cut. -/
theorem truncation_longest_iff (reason : Text) :
    IsLongestPrefix maxCloseReasonBytes reason (truncateCloseReason reason) ↔
      Text.utf8Length reason ≤ maxCloseReasonBytes ∨
        (reason.head? ≠ some byteOrderMark ∧
          ∀ longest, IsLongestPrefix maxCloseReasonBytes reason longest →
            Text.utf8Length longest = maxCloseReasonBytes →
              longest.getLast? ≠ some replacementCharacter) := by
  rcases le_or_gt (Text.utf8Length reason) maxCloseReasonBytes with hfits | hlong
  · refine iff_of_true ?_ (.inl hfits)
    rw [truncateCloseReason, if_pos hfits]
    exact ⟨prefix_rfl, hfits, fun other hoth _ => hoth⟩
  · have hhead : (wholeCharacters maxCloseReasonBytes reason).head? = reason.head? := by
      cases reason with
      | nil => rfl
      | cons c s =>
        have hfour : c.utf8Size ≤ maxCloseReasonBytes := c.utf8Size_le_four.trans (by decide)
        rw [wholeCharacters, if_pos hfour]
        rfl
    simp only [isLongestPrefix_iff, forall_eq, not_le.mpr hlong, false_or, ← hhead]
    rw [truncateCloseReason_of_long hlong]
    generalize wholeCharacters maxCloseReasonBytes reason = whole
    rw [← dropByteOrderMark_eq_self, ← stripReplacement_eq_self]
    split_ifs with hexact
    · -- nothing that is dropped comes back, so both must leave the characters as they are
      constructor
      · intro heq
        have hdrop : dropByteOrderMark whole = whole := by
          refine (dropByteOrderMark_suffix whole).eq_of_length_le ?_
          have hshort := (isPrefix_stripReplacement (dropByteOrderMark whole)).length_le
          rwa [heq] at hshort
        exact ⟨hdrop, fun _ => by rwa [hdrop] at heq⟩
      · rintro ⟨hdrop, hstrip⟩
        rw [hdrop, hstrip hexact]
    · simp [hexact]

/-- A replacement character of the reason itself is taken for the trace of a cut, and a byte order
mark is lost. -/
theorem close_reason_cut_short :
    truncateCloseReason (List.replicate 120 'a' ++ [replacementCharacter, 'b']) =
        List.replicate 120 'a' ∧
      IsLongestPrefix maxCloseReasonBytes (List.replicate 120 'a' ++ [replacementCharacter, 'b'])
        (List.replicate 120 'a' ++ [replacementCharacter]) ∧
      truncateCloseReason (byteOrderMark :: List.replicate 121 'a') = List.replicate 120 'a' ∧
      ¬ List.replicate 120 'a' <+: byteOrderMark :: List.replicate 121 'a' := by
  refine ⟨by decide +kernel, ?_, by decide +kernel, by decide +kernel⟩
  rw [isLongestPrefix_iff]
  decide +kernel

end BoilerplateExpress.Ws

import BoilerplateExpress.Errors
import BoilerplateExpress.Percent

/-!
# Forwarded client certificates

`decodeForwardedCertificate` of `security/client-certificate.ts`: the value of a header
is trimmed, percent-decoded when it holds a `%`, searched for PEM blocks, and re-wrapped.
Node joins a repeated header with `, `, so the question of the proofs is what the
decoder makes of two certificates in one value.
-/
namespace BoilerplateExpress.Security

open List

def clientCertificateMalformed (reason : String) : AppError :=
  { statusCode := 400
    message := "The client certificate could not be read: " ++ reason
    code := some "CLIENT_CERT_MALFORMED" }

def beginMarker : Text := "-----BEGIN CERTIFICATE-----".toList

def endMarker : Text := "-----END CERTIFICATE-----".toList

/-- The text before and after the first occurrence of a marker. -/
def splitAtMarker (marker : Text) : Text → Option (Text × Text)
  | [] => if marker = [] then some ([], []) else none
  | c :: s =>
    if marker.isPrefixOf (c :: s) then some ([], (c :: s).drop marker.length)
    else (splitAtMarker marker s).map (fun r => (c :: r.1, r.2))

/-- The matches of `PEM_BLOCK`, from left to right: each ends at the first end marker
after its begin marker. The fuel is the length of the text. -/
def pemBlocks : ℕ → Text → List Text
  | 0, _ => []
  | fuel + 1, s =>
    match splitAtMarker beginMarker s with
    | none => []
    | some (_, afterBegin) =>
      match splitAtMarker endMarker afterBegin with
      | none => []
      | some (body, rest) => body :: pemBlocks fuel rest

def matchAllPem (s : Text) : List Text := pemBlocks s.length s

def isBase64Char (c : Char) : Bool :=
  Text.isAlphanumeric c || c == '+' || c == '/' || c == '='

/-- `/^[A-Za-z0-9+/=]+$/`. -/
def base64Body (s : Text) : Bool := decide (s ≠ []) && s.all isBase64Char

def removeSpaces (s : Text) : Text := s.filter (fun c => !Text.isSpace c)

def wrapPem (base64 : Text) : Text :=
  "-----BEGIN CERTIFICATE-----\n".toList ++ ['\n'].intercalate (base64.toChunks 64) ++
    "\n-----END CERTIFICATE-----\n".toList

/-- The check of the body and the canonical form. -/
def acceptBody (body : Text) (reason : String) : Except AppError Text :=
  let stripped := removeSpaces body
  if base64Body stripped = false ∨ stripped.length % 4 ≠ 0 then
    .error (clientCertificateMalformed reason)
  else .ok (wrapPem stripped)

/-- The part of the decoder after percent-decoding. -/
def decodeText (decoded : Text) : Except AppError Text :=
  match matchAllPem decoded with
  | [] => acceptBody decoded "the header is neither a PEM certificate nor base64-encoded DER"
  | [block] => acceptBody block "the PEM body is not valid base64"
  | blocks => .error (clientCertificateMalformed ("the header carries " ++
      toString blocks.length ++ " certificates and must carry exactly one"))

def decodeForwardedCertificate (raw : Text) : Except AppError Text :=
  let trimmed := Text.trim raw
  if trimmed.length = 0 then .error (clientCertificateMalformed "the header was empty")
  else if '%' ∈ trimmed then
    match Percent.decodeURIComponent trimmed with
    | none => .error (clientCertificateMalformed "the header is not valid percent-encoding")
    | some decoded => decodeText decoded
  else decodeText trimmed

/-- Percent-decoding can be read as always done: it keeps a text without `%`. -/
lemma decodeForwardedCertificate_eq {raw decoded} (hne : Text.trim raw ≠ [])
    (h : Percent.decodeURIComponent (Text.trim raw) = some decoded) :
    decodeForwardedCertificate raw = decodeText decoded := by
  unfold decodeForwardedCertificate
  rw [if_neg (by rw [length_eq_zero_iff]; exact hne)]
  split_ifs with hpct
  · rw [h]
  · rw [Percent.decodeURIComponent_of_not_mem hpct] at h
    rw [Option.some.inj h]

/-- A marker is found behind a text without its first character. -/
lemma splitAtMarker_append (c) (marker before rest : Text) (h : c ∉ before) :
    splitAtMarker (c :: marker) (before ++ (c :: marker ++ rest)) = some (before, rest) := by
  induction before with
  | nil => simp [splitAtMarker]
  | cons d before ih =>
    rw [mem_cons, not_or] at h
    have hno : (c :: marker).isPrefixOf (d :: (before ++ (c :: marker ++ rest))) = false := by
      simp [isPrefixOf, h.1]
    rw [cons_append, splitAtMarker, hno, if_neg (by simp), ih h.2]
    rfl

lemma splitAtMarker_none (c) (marker s : Text) (h : c ∉ s) :
    splitAtMarker (c :: marker) s = none := by
  induction s with
  | nil => simp [splitAtMarker]
  | cons d s ih =>
    rw [mem_cons, not_or] at h
    have hno : (c :: marker).isPrefixOf (d :: s) = false := by simp [isPrefixOf, h.1]
    rw [splitAtMarker, hno]
    simp [ih h.2]

/-- Base64 with any white space in it, of whole groups of four characters. -/
structure Base64Text (s : Text) : Prop where
  chars : ∀ c ∈ s, isBase64Char c = true ∨ Text.isSpace c = true
  nonempty : removeSpaces s ≠ []
  groups : (removeSpaces s).length % 4 = 0

/-- A PEM certificate with any white space around and inside its body. -/
structure IsPem (s : Text) (body : Text) : Prop where
  shape : ∃ before after, s = before ++ (beginMarker ++ (body ++ (endMarker ++ after))) ∧
    Text.Blank before ∧ Text.Blank after
  base64 : Base64Text body

inductive Form where
  | armoured
  | bare
  deriving DecidableEq

/-- The certificate `body` in one of the two forms. -/
def Form.Carries : Form → Text → Text → Prop
  | .armoured, s, body => IsPem s body
  | .bare, s, body => s = body ∧ Base64Text body

/-- A header value that carries one certificate: a PEM or bare base64, as it is or
percent-encoded. -/
def Encodes (form : Form) (header : Text) : Prop :=
  ∃ decoded body, Percent.decodeURIComponent (Text.trim header) = some decoded ∧
    form.Carries decoded body

/-- What Node presents for a header that was sent twice. -/
def joinHeaders (a b : Text) : Text := a ++ ([',', ' '] ++ b)

def Refused (result : Except AppError Text) : Prop := ∃ e, result = .error e

variable {s : Text}

lemma not_dash_of_base64Text (h : Base64Text s) : '-' ∉ s := fun hmem =>
  absurd (h.chars '-' hmem) (by decide)

lemma not_mem_of_blank (c) (hc : Text.isSpace c = false) (h : Text.Blank s) : c ∉ s := by
  intro hmem
  rw [h c hmem] at hc
  cases hc

lemma pemBlocks_none (fuel) (h : '-' ∉ s) : pemBlocks fuel s = [] := by
  cases fuel with
  | zero => rfl
  | succ fuel =>
    have hsplit : splitAtMarker beginMarker s = none := splitAtMarker_none '-' _ s h
    rw [pemBlocks, hsplit]

variable {before body : Text}

lemma pemBlocks_block (fuel rest) (hpre : '-' ∉ before) (hbody : '-' ∉ body) :
    pemBlocks (fuel + 1) (before ++ (beginMarker ++ (body ++ (endMarker ++ rest)))) =
      body :: pemBlocks fuel rest := by
  have hbegin : splitAtMarker beginMarker
      (before ++ (beginMarker ++ (body ++ (endMarker ++ rest)))) =
        some (before, body ++ (endMarker ++ rest)) := splitAtMarker_append '-' _ before _ hpre
  have hend : splitAtMarker endMarker (body ++ (endMarker ++ rest)) = some (body, rest) :=
    splitAtMarker_append '-' _ body rest hbody
  rw [pemBlocks, hbegin]
  simp [hend]

/-- The first block of a text, with fuel left for another one. -/
lemma matchAllPem_block (rest) (hpre : '-' ∉ before) (hbody : '-' ∉ body) :
    ∃ fuel, matchAllPem (before ++ (beginMarker ++ (body ++ (endMarker ++ rest)))) =
      body :: pemBlocks (fuel + 1) rest := by
  have hlen : 2 ≤ (before ++ (beginMarker ++ (body ++ (endMarker ++ rest)))).length := by
    have hmark : beginMarker.length = 27 := rfl
    rw [length_append, length_append, hmark]
    omega
  obtain ⟨fuel, hfuel⟩ := Nat.exists_eq_add_of_le' hlen
  refine ⟨fuel, ?_⟩
  rw [matchAllPem, hfuel]
  exact pemBlocks_block (fuel + 1) rest hpre hbody

lemma acceptBody_ok (reason) (h : Base64Text body) :
    acceptBody body reason = .ok (wrapPem (removeSpaces body)) := by
  have hall : base64Body (removeSpaces body) := by
    simp only [base64Body, Bool.and_eq_true, decide_eq_true_eq, all_eq_true]
    refine ⟨h.nonempty, ?_⟩
    intro c hc
    have hmem := mem_filter.mp hc
    have hspace : Text.isSpace c = false := by simpa using hmem.2
    exact (h.chars c hmem.1).resolve_right (by simp [hspace])
  unfold acceptBody
  rw [if_neg (by simp [hall, h.groups])]

/-- A comma is neither base64 nor white space. -/
lemma acceptBody_comma (reason) (h : ',' ∈ body) : Refused (acceptBody body reason) := by
  have hmem : ',' ∈ removeSpaces body := mem_filter.mpr ⟨h, by decide⟩
  have hbad : base64Body (removeSpaces body) = false := by
    simp only [base64Body, Bool.and_eq_false_iff, all_eq_false]
    exact .inr ⟨',', hmem, by decide⟩
  unfold acceptBody
  rw [if_pos (.inl hbad)]
  exact ⟨_, rfl⟩

/-- The decoder on a text with exactly one block: only its body counts. -/
lemma decodeText_single {rest} (hpre : '-' ∉ before) (hrest : '-' ∉ rest)
    (hbody : Base64Text body) :
    decodeText (before ++ (beginMarker ++ (body ++ (endMarker ++ rest)))) =
      .ok (wrapPem (removeSpaces body)) := by
  obtain ⟨fuel, hbloc⟩ := matchAllPem_block rest hpre (not_dash_of_base64Text hbody)
  rw [pemBlocks_none _ hrest] at hbloc
  rw [decodeText, hbloc]
  exact acceptBody_ok _ hbody

/-- The decoder on two certificates with a comma and no dash in between. -/
lemma decodeText_pair {textA bodyA textB bodyB sep} {formA formB : Form}
    (hA : formA.Carries textA bodyA) (hB : formB.Carries textB bodyB) (hsep : '-' ∉ sep)
    (hcomma : ',' ∈ sep) : Refused (decodeText (textA ++ (sep ++ textB))) ↔ formA = formB := by
  cases formA with
  | armoured =>
    obtain ⟨⟨before, after, rfl, hpre, hafter⟩, hbodyA⟩ := hA
    have hbef := not_mem_of_blank '-' rfl hpre
    have haft := not_mem_of_blank '-' rfl hafter
    have hbod := not_dash_of_base64Text hbodyA
    simp only [append_assoc]
    cases formB with
    | armoured =>
      obtain ⟨⟨before', after', rfl, hpre', haft'⟩, hbodyB⟩ := hB
      obtain ⟨fuel, hbloc⟩ := matchAllPem_block
        (after ++ (sep ++ (before' ++ (beginMarker ++ (bodyB ++ (endMarker ++ after'))))))
        hbef hbod
      have hbtw : '-' ∉ after ++ (sep ++ before') := by
        simp only [mem_append, not_or]
        exact ⟨haft, hsep, not_mem_of_blank '-' rfl hpre'⟩
      have hsnd := pemBlocks_block fuel after' hbtw (not_dash_of_base64Text hbodyB)
      simp only [append_assoc] at hsnd
      rw [hsnd] at hbloc
      rw [decodeText, hbloc]
      simp [Refused]
    | bare =>
      obtain ⟨rfl, hbodyB⟩ := hB
      have hrest : '-' ∉ after ++ (sep ++ textB) := by
        simp only [mem_append, not_or]
        exact ⟨haft, hsep, not_dash_of_base64Text hbodyB⟩
      simp [decodeText_single hbef hrest hbodyA, Refused]
  | bare =>
    obtain ⟨rfl, hbodyA⟩ := hA
    have hdashA := not_dash_of_base64Text hbodyA
    cases formB with
    | armoured =>
      obtain ⟨⟨before', after', rfl, hpre', haft'⟩, hbodyB⟩ := hB
      have hfst : '-' ∉ textA ++ (sep ++ before') := by
        simp only [mem_append, not_or]
        exact ⟨hdashA, hsep, not_mem_of_blank '-' rfl hpre'⟩
      have hsing := decodeText_single hfst (not_mem_of_blank '-' rfl haft') hbodyB
      simp only [append_assoc] at hsing
      simp [hsing, Refused]
    | bare =>
      obtain ⟨rfl, hbodyB⟩ := hB
      have hnone : matchAllPem (textA ++ (sep ++ textB)) = [] := by
        apply pemBlocks_none
        simp only [mem_append, not_or]
        exact ⟨hdashA, hsep, not_dash_of_base64Text hbodyB⟩
      rw [decodeText, hnone]
      simp only [iff_true]
      apply acceptBody_comma
      simp [hcomma]

/-- Trimming a joined value leaves the two trimmed values, with the separator and
the white space around it in between. -/
lemma trim_joinHeaders {a b} (ha : Text.trim a ≠ []) (hb : Text.trim b ≠ []) :
    ∃ sep, Text.trim (joinHeaders a b) = Text.trim a ++ (sep ++ Text.trim b) ∧ '-' ∉ sep ∧
      '%' ∉ sep ∧ ',' ∈ sep := by
  obtain ⟨wa, wa', haeq, hwa, hwa', hta⟩ := Text.trim_spec a
  obtain ⟨wb, wb', hbeq, hwb, hwb', htb⟩ := Text.trim_spec b
  refine ⟨wa' ++ ([',', ' '] ++ wb), ?_, ?_, ?_, by simp⟩
  · have hjoin : joinHeaders a b =
        wa ++ (Text.trim a ++ ((wa' ++ ([',', ' '] ++ wb)) ++ Text.trim b)) ++ wb' := by
      conv_lhs => rw [joinHeaders, haeq, hbeq]
      simp
    rw [hjoin]
    apply Text.trim_append _ _ _ hwa hwb'
    refine ⟨?_, ?_⟩
    · rw [head?_append_of_ne_nil _ ha]
      exact hta.head
    · rw [← append_assoc, getLast?_append_of_ne_nil _ hb]
      exact htb.last
  · simp [not_mem_of_blank '-' rfl hwa', not_mem_of_blank '-' rfl hwb]
  · simp [not_mem_of_blank '%' rfl hwa', not_mem_of_blank '%' rfl hwb]

lemma trim_ne_nil_of_encodes {header decoded} {form : Form}
    (h : Percent.decodeURIComponent (Text.trim header) = some decoded)
    (hform : form.Carries decoded body) : Text.trim header ≠ [] := by
  intro hnil
  rw [hnil] at h
  obtain rfl : [] = decoded := Option.some.inj h
  cases form with
  | armoured =>
    obtain ⟨⟨before, after, hshape, _, _⟩, _⟩ := hform
    have hlen := congrArg List.length hshape
    have hmark : beginMarker.length = 27 := rfl
    simp only [length_append, length_nil] at hlen
    omega
  | bare =>
    obtain ⟨rfl, hbody⟩ := hform
    exact hbody.nonempty rfl

/-- Two certificates in one header value are refused exactly when both are armoured
or neither is. -/
theorem joined_certificates_refused_iff (formA formB : Form) (a b : Text)
    (ha : Encodes formA a) (hb : Encodes formB b) :
    Refused (decodeForwardedCertificate (joinHeaders a b)) ↔ formA = formB := by
  obtain ⟨textA, bodyA, hdec, hcar⟩ := ha
  obtain ⟨textB, bodyB, hdecod, hcarr⟩ := hb
  have hneA := trim_ne_nil_of_encodes hdec hcar
  have hneB := trim_ne_nil_of_encodes hdecod hcarr
  obtain ⟨sep, htrim, hdash, hpct, hcomma⟩ := trim_joinHeaders hneA hneB
  have hdecode : Percent.decodeURIComponent (Text.trim (joinHeaders a b)) =
      some (textA ++ (sep ++ textB)) := by
    have hsep := Percent.decodeURIComponent_of_not_mem hpct
    rw [htrim, Percent.decodeURIComponent_append _ hdec,
      Percent.decodeURIComponent_append _ hsep, hdecod]
    rfl
  have hne : Text.trim (joinHeaders a b) ≠ [] := by
    rw [htrim]
    simp [hneA]
  rw [decodeForwardedCertificate_eq hne hdecode]
  exact decodeText_pair hcar hcarr hdash hcomma

/-- A percent-encoded PEM, a PEM with spaces for newlines, and bare base64. -/
def sampleEscaped : Text :=
  "-----BEGIN%20CERTIFICATE-----%0AMIIB%0A-----END%20CERTIFICATE-----%0A".toList

def sampleSpaced : Text :=
  "-----BEGIN CERTIFICATE----- MIIC -----END CERTIFICATE----- ".toList

def sampleBare : Text := "MIID".toList

lemma base64Text_of_all (hall : s.all (fun c => isBase64Char c || Text.isSpace c))
    (hne : removeSpaces s ≠ []) (hgroups : (removeSpaces s).length % 4 = 0) : Base64Text s :=
  ⟨fun c hc => (Bool.or_eq_true _ _).mp (all_eq_true.mp hall c hc), hne, hgroups⟩

lemma encodes_sampleEscaped : Encodes .armoured sampleEscaped := by
  refine ⟨"-----BEGIN CERTIFICATE-----\nMIIB\n-----END CERTIFICATE-----\n".toList, "\nMIIB\n".toList,
    by decide +kernel, ⟨[], ['\n'], by decide +kernel, by simp [Text.Blank], ?_⟩, ?_⟩
  · simp [Text.Blank, Text.isSpace]
  · exact base64Text_of_all (by decide +kernel) (by decide +kernel) (by decide +kernel)

lemma encodes_sampleSpaced : Encodes .armoured sampleSpaced := by
  refine ⟨"-----BEGIN CERTIFICATE----- MIIC -----END CERTIFICATE-----".toList, " MIIC ".toList,
    by decide +kernel, ⟨[], [], by decide +kernel, by simp [Text.Blank], by simp [Text.Blank]⟩, ?_⟩
  exact base64Text_of_all (by decide +kernel) (by decide +kernel) (by decide +kernel)

lemma encodes_sampleBare : Encodes .bare sampleBare :=
  ⟨sampleBare, sampleBare, by decide +kernel, rfl,
    base64Text_of_all (by decide +kernel) (by decide +kernel) (by decide +kernel)⟩

theorem joined_pems_refused :
    Refused (decodeForwardedCertificate (joinHeaders sampleEscaped sampleSpaced)) ∧
      Refused (decodeForwardedCertificate (joinHeaders sampleBare sampleBare)) ∧
      ¬ Refused (decodeForwardedCertificate (joinHeaders sampleBare sampleSpaced)) := by
  refine ⟨?_, ?_, ?_⟩
  · exact (joined_certificates_refused_iff .armoured .armoured sampleEscaped sampleSpaced
      encodes_sampleEscaped encodes_sampleSpaced).mpr rfl
  · exact (joined_certificates_refused_iff .bare .bare sampleBare sampleBare
      encodes_sampleBare encodes_sampleBare).mpr rfl
  · intro href
    have hforms := (joined_certificates_refused_iff .bare .armoured sampleBare sampleSpaced
      encodes_sampleBare encodes_sampleSpaced).mp href
    cases hforms

/-- A PEM and a bare certificate in one value decode to the PEM alone. -/
theorem mixed_certificates_accepted :
    ¬ ∀ formA formB a b, Encodes formA a → Encodes formB b →
      Refused (decodeForwardedCertificate (joinHeaders a b)) := by
  intro h
  have hacc : decodeForwardedCertificate (joinHeaders sampleEscaped sampleBare) =
      .ok (wrapPem "MIIB".toList) := by decide +kernel
  obtain ⟨e, he⟩ := h .armoured .bare sampleEscaped sampleBare encodes_sampleEscaped
    encodes_sampleBare
  cases he

/-- The PEM of a body that is cut into lines. The line ends are newlines, the spaces put
in their place, or any other white space. -/
def pem (eol : Text) (lines : List Text) : Text :=
  beginMarker ++ (eol ++ lines.flatMap (· ++ eol) ++ (endMarker ++ eol))

lemma flatten_go (n line) (lines : Array Text) :
    (toChunks.go n s line lines).flatten = lines.toList.flatten ++ line.toList ++ s := by
  induction s generalizing line lines with
  | nil => simp [toChunks.go]
  | cons c s ih =>
    rw [toChunks.go]
    split_ifs <;> simp [ih]

lemma intercalate_append {lines} (h : lines ≠ []) :
    ['\n'].intercalate lines ++ ['\n'] = lines.flatMap (· ++ ['\n']) := by
  induction lines with
  | nil => exact absurd rfl h
  | cons line lines ih =>
    cases lines with
    | nil => simp
    | cons next lines => simpa using ih (by simp)

/-- The canonical form is a PEM with lines of 64 characters. -/
lemma wrapPem_eq (hne : body ≠ []) :
    ∃ lines, wrapPem body = pem ['\n'] lines ∧ lines.flatten = body := by
  have hflat : (body.toChunks 64).flatten = body := by
    obtain ⟨c, s, rfl⟩ := exists_cons_of_ne_nil hne
    have hgo : (c :: s).toChunks 64 = toChunks.go 64 s #[c] #[] := rfl
    rw [hgo, flatten_go]
    rfl
  have hbegin : "-----BEGIN CERTIFICATE-----\n".toList = beginMarker ++ ['\n'] := by decide +kernel
  have hend : "\n-----END CERTIFICATE-----\n".toList = '\n' :: (endMarker ++ ['\n']) := by
    decide +kernel
  unfold wrapPem
  generalize body.toChunks 64 = lines at hflat ⊢
  refine ⟨lines, ?_, hflat⟩
  have hlines : lines ≠ [] := by
    rintro rfl
    exact hne hflat.symm
  simp [hbegin, hend, pem, ← intercalate_append hlines]

variable {eol : Text} {lines : List Text}

lemma isSpace_of_isBase64Char {c} (h : isBase64Char c) : Text.isSpace c = false := by
  simp only [isBase64Char, Text.isAlphanumeric, Text.isDigit, Bool.or_eq_true, Bool.and_eq_true,
    decide_eq_true_eq, beq_iff_eq] at h
  rcases h with ((((h | h) | h) | rfl) | rfl) | rfl
  · exact Text.isSpace_eq_false h.1 h.2 (by decide) (by decide)
  · exact Text.isSpace_eq_false h.1 h.2 (by decide) (by decide)
  · exact Text.isSpace_eq_false h.1 h.2 (by decide) (by decide)
  · rfl
  · rfl
  · rfl

/-- White space at any places leaves the body that the decoder reads. -/
lemma base64Text_lines (hbody : base64Body body) (hgroups : body.length % 4 = 0)
    (heol : Text.Blank eol) (hlines : lines.flatten = body) :
    Base64Text (eol ++ lines.flatMap (· ++ eol)) ∧
      removeSpaces (eol ++ lines.flatMap (· ++ eol)) = body := by
  simp only [base64Body, Bool.and_eq_true, decide_eq_true_eq, all_eq_true] at hbody
  have hrem : removeSpaces (eol ++ lines.flatMap (· ++ eol)) = body := by
    have hnone : eol.filter (fun c => !Text.isSpace c) = [] :=
      filter_eq_nil_iff.mpr fun c hc => by simp [heol c hc]
    have hall : body.filter (fun c => !Text.isSpace c) = body :=
      filter_eq_self.mpr fun c hc => by simp [isSpace_of_isBase64Char (hbody.2 c hc)]
    simp only [removeSpaces, filter_append, hnone, filter_flatMap, append_nil, nil_append]
    rw [flatMap_def, ← filter_flatten, hlines, hall]
  refine ⟨⟨?_, hrem ▸ hbody.1, hrem ▸ hgroups⟩, hrem⟩
  intro c hc
  simp only [mem_append, mem_flatMap] at hc
  obtain hc | ⟨line, hline, hc | hc⟩ := hc
  · exact .inr (heol c hc)
  · exact .inl (hbody.2 c (hlines ▸ mem_flatten_of_mem hline hc))
  · exact .inr (heol c hc)

/-- What the decoder makes of a header that carries one certificate. -/
lemma decode_of_carries {header decoded} {form : Form}
    (h : Percent.decodeURIComponent (Text.trim header) = some decoded)
    (hform : form.Carries decoded body) :
    decodeForwardedCertificate header = .ok (wrapPem (removeSpaces body)) := by
  rw [decodeForwardedCertificate_eq (trim_ne_nil_of_encodes h hform) h]
  cases form with
  | armoured =>
    obtain ⟨⟨before, after, rfl, hpre, haft⟩, hbody⟩ := hform
    exact decodeText_single (not_mem_of_blank '-' rfl hpre) (not_mem_of_blank '-' rfl haft) hbody
  | bare =>
    obtain ⟨rfl, hbody⟩ := hform
    rw [decodeText, matchAllPem, pemBlocks_none _ (not_dash_of_base64Text hbody)]
    exact acceptBody_ok _ hbody

lemma decode_pem (hbody : base64Body body) (hgroups : body.length % 4 = 0)
    (heol : Text.Blank eol) (hlines : lines.flatten = body) :
    decodeForwardedCertificate (pem eol lines) = .ok (wrapPem body) ∧
      ∀ header, Percent.Encoding header (pem eol lines) →
        decodeForwardedCertificate header = .ok (wrapPem body) := by
  obtain ⟨hbase64, hrem⟩ := base64Text_lines hbody hgroups heol hlines
  generalize hfram : eol ++ lines.flatMap (· ++ eol) = framed at hbase64 hrem
  have hpem : pem eol lines = beginMarker ++ (framed ++ (endMarker ++ eol)) := by rw [pem, hfram]
  have hform {after : Text} (haft : Text.Blank after) :
      Form.Carries .armoured (beginMarker ++ (framed ++ (endMarker ++ after))) framed :=
    ⟨⟨[], after, rfl, by simp [Text.Blank], haft⟩, hbase64⟩
  rw [← hrem]
  refine ⟨?_, fun header hhdr => ?_⟩
  · have hhead : beginMarker.head? = some '-' := by decide +kernel
    have hlast : endMarker.getLast? = some '-' := by decide +kernel
    have hends : Text.Trimmed (beginMarker ++ (framed ++ (endMarker ++ []))) :=
      ⟨by simp [hhead, Text.isSpace], by simp [hlast, Text.isSpace]⟩
    have htrim : Text.trim (pem eol lines) = beginMarker ++ (framed ++ (endMarker ++ [])) := by
      simpa [hpem] using Text.trim_append [] _ eol (by simp [Text.Blank]) heol hends
    have hpct : '%' ∉ Text.trim (pem eol lines) := by
      have hno : '%' ∉ framed := fun hmem => absurd (hbase64.chars '%' hmem) (by decide)
      have hmar : '%' ∉ beginMarker ∧ '%' ∉ endMarker := by decide +kernel
      simp [htrim, hno, hmar]
    have hcar : Form.Carries .armoured (Text.trim (pem eol lines)) framed := by
      rw [htrim]
      exact hform (by simp [Text.Blank])
    exact decode_of_carries (Percent.decodeURIComponent_of_not_mem hpct) hcar
  · refine decode_of_carries ?_ (hform heol)
    rw [hhdr.trim_eq, hhdr.decodeURIComponent_eq, hpem]

/-- Every encoding of one certificate decodes to the same canonical PEM. -/
theorem encodings_decode_alike (body : Text) (hbody : base64Body body = true)
    (hgroups : body.length % 4 = 0) :
    decodeForwardedCertificate body = .ok (wrapPem body) ∧
      (∀ eol lines, Text.Blank eol → lines.flatten = body →
        decodeForwardedCertificate (pem eol lines) = .ok (wrapPem body) ∧
        ∀ header, Percent.Encoding header (pem eol lines) →
          decodeForwardedCertificate header = .ok (wrapPem body)) ∧
      decodeForwardedCertificate (wrapPem body) = .ok (wrapPem body) := by
  have hblank : Text.Blank [] := by simp [Text.Blank]
  obtain ⟨hbase64, hrem⟩ := base64Text_lines hbody hgroups hblank (flatten_singleton (l := body))
  simp only [nil_append, flatMap_singleton, append_nil] at hbase64 hrem
  have hvalid := hbody
  simp only [base64Body, Bool.and_eq_true, decide_eq_true_eq, all_eq_true] at hvalid
  refine ⟨?_, fun eol lines => decode_pem hbody hgroups, ?_⟩
  · have hpct : '%' ∉ body := fun hmem => absurd (hvalid.2 '%' hmem) (by decide)
    have htrim : Text.trim body = body :=
      Text.trim_eq_self fun c hc => isSpace_of_isBase64Char (hvalid.2 c hc)
    rw [← htrim] at hpct
    have hcar : Form.Carries .bare (Text.trim body) body := ⟨htrim, hbase64⟩
    rw [decode_of_carries (Percent.decodeURIComponent_of_not_mem hpct) hcar, hrem]
  · obtain ⟨lines, hwrap, hlines⟩ := wrapPem_eq hvalid.1
    have hblank : Text.Blank ['\n'] := by simp [Text.Blank, Text.isSpace]
    rw [hwrap, (decode_pem hbody hgroups hblank hlines).1, hwrap]

/-- A percent-encoded PEM, and bare base64. -/
theorem sample_encodings_decode_alike :
    decodeForwardedCertificate sampleEscaped = .ok (wrapPem "MIIB".toList) ∧
      decodeForwardedCertificate sampleBare = .ok (wrapPem sampleBare) := by
  have hesc := encodings_decode_alike "MIIB".toList (by decide +kernel) (by decide +kernel)
  have hbare := encodings_decode_alike sampleBare (by decide +kernel) (by decide +kernel)
  refine ⟨(hesc.2.1 ['\n'] ["MIIB".toList] (by simp [Text.Blank, Text.isSpace]) rfl).2 _ ?_,
    hbare.1⟩
  repeat first
    | exact .nil
    | refine .literal (by decide) (by decide) ?_
    | refine .escape rfl rfl rfl (by decide) ?_

end BoilerplateExpress.Security

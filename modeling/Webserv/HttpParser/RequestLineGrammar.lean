import Webserv.HttpParser.Head

/-!
# The grammar of the request line

The scan of `_parseRequestLine` is a machine of fifteen states.  It gets past the check of the
version on the lines of a grammar and on no others: newlines, a method of token characters,
spaces, a target of visible characters, spaces, `HTTP/1.1`, spaces, and a line end.  Any other
text makes it wait for more, or is refused with 400 or 505.

## Main results

* `stopped_or_lineText` — what the scan gets past is of the grammar.
* `rlScan_lineText` — where the scan of a line of the grammar puts its marks.
* `parseRequestLine_grammar` — **the machine accepts exactly its grammar.**
-/

namespace Webserv

open Bytes

/-! ### The check of the version -/

/-- `parseRequestLine` up to the check of the version. -/
inductive LineCheck where
  | waits
  | refused (code : ℕ)
  /-- The method, the target and the length of the line. -/
  | past (method uri : Bytes) (p : ℕ)
  deriving DecidableEq

/-- The line at the front of the readable bytes, up to the check of the version. -/
def checkLine (bs : Bytes) : LineCheck :=
  if bs.isEmpty then .waits
  else
    match rlScan RLScan.init 0 bs with
    | .more => .waits
    | .error code => .refused code
    | .line sc p =>
        match sc.methodStart, sc.methodEnd, sc.uriStart with
        | some methodStart, some methodEnd, some uriStart =>
            let uriEnd := sc.uriEnd.getD p
            if uriEnd < uriStart then .refused 400
            else if sc.httpMajor < 0 || sc.httpMinor < 0 then .refused 400
            else if !(sc.httpMajor == 1 && (sc.httpMinor == 0 || sc.httpMinor == 1)) then
              .refused 505
            else .past (slice bs methodStart methodEnd) (slice bs uriStart uriEnd) p
        | _, _, _ => .refused 400

example : checkLine (ascii "\r\nGET  /a HTTP/1.1 \r\nHost") =
    .past (ascii "GET") (ascii "/a") 21 := by decide +kernel

/-- What `parseRequestLine` does past the check of the version. -/
def pastVersion (stat : StatAnswer) (c : Connection) (method uri : Bytes) (p : ℕ) : Connection :=
  if uri.length > 8192 then { c with request := c.request.fail 414 }
  else
    let req : HttpRequest := { c.request with method := method }
    if req.method ≠ ascii "GET" ∧ req.method ≠ ascii "HEAD" ∧ req.method ≠ ascii "POST" ∧
        req.method ≠ ascii "DELETE" then { c with request := req.fail 501 }
    else acceptRequestLine stat c req uri 1 1 p

/-! ### The grammar -/

/-- A character of a target. -/
def isVisible (b : UInt8) : Bool := 0x21 ≤ b && b != 0x7f

/-- The request line with this method and this target is at the front of the text, and takes the
first `n` bytes of it. -/
structure IsRequestLine (text method uri : Bytes) (n : ℕ) : Prop where
  method_ne_nil : method ≠ []
  token : ∀ b ∈ method, isTokenChar b = true
  uri_ne_nil : uri ≠ []
  visible : ∀ b ∈ uri, isVisible b = true
  split : ∃ newlines cr rest : Bytes, ∃ i j k : ℕ, (∀ b ∈ newlines, b = CR ∨ b = LF) ∧
    (cr = [] ∨ cr = [CR]) ∧ text = newlines ++ method ++ List.replicate (i + 1) SP ++ uri ++
      List.replicate (j + 1) SP ++ ascii "HTTP/1.1" ++ List.replicate k SP ++ cr ++ [LF] ++ rest ∧
    text.length = n + rest.length

/-- What may stand behind the version. -/
def TailText (t : Bytes) : Prop :=
  ∃ (k : ℕ) (cr rest : Bytes), (cr = [] ∨ cr = [CR]) ∧ t = List.replicate k SP ++ cr ++ LF :: rest

/-- What may stand behind the target and a space. -/
def VersionText (t : Bytes) : Prop :=
  ∃ (j : ℕ) (t' : Bytes), t = List.replicate j SP ++ ascii "HTTP/1.1" ++ t' ∧ TailText t'

/-- What may stand behind the first character of the target. -/
def UriText (t : Bytes) : Prop :=
  ∃ uri t' : Bytes, (∀ b ∈ uri, isVisible b = true) ∧ t = uri ++ SP :: t' ∧ VersionText t'

/-- What may stand behind the method and a space. -/
def TargetText (t : Bytes) : Prop :=
  ∃ (i : ℕ) (b : UInt8) (t' : Bytes), isVisible b = true ∧ t = List.replicate i SP ++ b :: t' ∧
    UriText t'

/-- What may stand behind the first character of the method. -/
def MethodText (t : Bytes) : Prop :=
  ∃ method t' : Bytes, (∀ b ∈ method, isTokenChar b = true) ∧ t = method ++ SP :: t' ∧ TargetText t'

/-- A text with a request line at its front. -/
def LineText (t : Bytes) : Prop :=
  ∃ (newlines : Bytes) (b : UInt8) (t' : Bytes), (∀ b ∈ newlines, b = CR ∨ b = LF) ∧
    isTokenChar b = true ∧ t = newlines ++ b :: t' ∧ MethodText t'

/-! ### Scans that stop -/

/-- A version that is accepted. -/
def RLScan.VersionOk (sc : RLScan) : Prop :=
  sc.httpMajor = 1 ∧ (sc.httpMinor = 0 ∨ sc.httpMinor = 1)

/-- The end of a scan that does not get past the check of the version. -/
inductive Stopped : RLEnd → Prop
  | more : Stopped .more
  | error {code : ℕ} (h : code = 400 ∨ code = 505) : Stopped (.error code)
  | version {sc : RLScan} {p : ℕ} (h : ¬ sc.VersionOk) : Stopped (.line sc p)

/-- A character is refused with one of two codes. -/
theorem rlStep_error {sc : RLScan} {p code : ℕ} {ch : UInt8} (h : rlStep sc p ch = .error code) :
    code = 400 ∨ code = 505 := by
  unfold rlStep rlExpect at h
  split at h <;> split_ifs at h <;> cases h <;> simp

theorem stopped_of_error {sc : RLScan} {p : ℕ} {ch : UInt8} (code : ℕ) (rest : Bytes)
    (h : rlStep sc p ch = .error code) : Stopped (rlScan sc p (ch :: rest)) := by
  rw [rlScan, h]
  exact .error (rlStep_error h)

theorem rlScan_goOn {sc sc' : RLScan} {p : ℕ} {ch : UInt8} (rest : Bytes)
    (h : rlStep sc p ch = .goOn sc') : rlScan sc p (ch :: rest) = rlScan sc' (p + 1) rest := by
  rw [rlScan, h]

/-- A number of the version has more than one digit. -/
def RLScan.Doomed (sc : RLScan) : Prop :=
  9 < sc.httpMajor ∧ sc.state ∈ [RLState.major, .firstMinor, .minor, .spaceAfterVersion,
      .almostDone] ∨
    9 < sc.httpMinor ∧ sc.state ∈ [RLState.minor, .spaceAfterVersion, .almostDone]

/-- That stays so to the end of the line. -/
theorem doomed_rlStep {sc sc' : RLScan} {p : ℕ} {ch : UInt8} (h : sc.Doomed) :
    (rlStep sc p ch = .goOn sc' → sc'.Doomed) ∧ (rlStep sc p ch = .done sc' → ¬ sc'.VersionOk) := by
  obtain ⟨state, ms, me, us, ue, major, minor⟩ := sc
  unfold RLScan.Doomed at h
  simp only at h
  unfold rlStep
  cases state <;> simp at h
  all_goals
    simp only
    constructor
    · intro hstep
      split_ifs at hstep <;> cases hstep <;> simp [RLScan.Doomed] <;> omega
    · intro hstep
      split_ifs at hstep <;> cases hstep <;> simp [RLScan.VersionOk] <;> omega

theorem stopped_of_doomed (bs : Bytes) : ∀ {sc : RLScan} {p : ℕ}, sc.Doomed →
    Stopped (rlScan sc p bs) := by
  induction bs with
  | nil => exact fun _ => .more
  | cons ch bs ih =>
    intro sc p h
    cases hstep : rlStep sc p ch with
    | goOn sc' =>
      rw [rlScan_goOn bs hstep]
      exact ih ((doomed_rlStep h).1 hstep)
    | done sc' =>
      rw [rlScan, hstep]
      exact .version ((doomed_rlStep h).2 hstep)
    | error code => exact stopped_of_error _ bs hstep

/-! ### What the scan gets past

One lemma for each state: the scan stops, or what is left of the text is what the grammar has
there.  A state that loops is an induction over the text. -/

theorem scan_almostDone {sc : RLScan} {p : ℕ} (hs : sc.state = .almostDone) (bs : Bytes) :
    Stopped (rlScan sc p bs) ∨ ∃ rest, bs = LF :: rest := by
  cases bs with
  | nil => exact Or.inl .more
  | cons ch bs =>
    by_cases hch : ch = LF
    · exact Or.inr ⟨bs, by rw [hch]⟩
    · left
      have hstep : rlStep sc p ch = .error 400 := by simp [rlStep, hs, hch]
      exact stopped_of_error _ bs hstep

theorem tailText_of_cr {rest : Bytes} : TailText (CR :: LF :: rest) :=
  ⟨0, [CR], rest, Or.inr rfl, rfl⟩

theorem tailText_of_lf {rest : Bytes} : TailText (LF :: rest) := ⟨0, [], rest, Or.inl rfl, rfl⟩

theorem TailText.space {t : Bytes} (h : TailText t) : TailText (SP :: t) := by
  obtain ⟨k, cr, rest, hcr, rfl⟩ := h
  exact ⟨k + 1, cr, rest, hcr, rfl⟩

theorem scan_spaceAfterVersion (bs : Bytes) : ∀ {sc : RLScan} {p : ℕ},
    sc.state = .spaceAfterVersion → Stopped (rlScan sc p bs) ∨ TailText bs := by
  induction bs with
  | nil => exact fun _ => Or.inl .more
  | cons ch bs ih =>
    intro sc p hs
    by_cases hsp : ch = SP
    · subst hsp
      have hstep : rlStep sc p SP = .goOn sc := by simp [rlStep, hs]
      rw [rlScan_goOn bs hstep]
      exact (ih hs).imp_right TailText.space
    · by_cases hcr : ch = CR
      · subst hcr
        have hne : CR ≠ SP := by decide
        have hstep : rlStep sc p CR = .goOn { sc with state := .almostDone } := by
          simp [rlStep, hs, hne]
        rw [rlScan_goOn bs hstep]
        refine (scan_almostDone rfl bs).imp_right ?_
        rintro ⟨rest, rfl⟩
        exact tailText_of_cr
      · by_cases hlf : ch = LF
        · subst hlf
          exact Or.inr tailText_of_lf
        · left
          have hstep : rlStep sc p ch = .error 400 := by simp [rlStep, hs, hsp, hcr, hlf]
          exact stopped_of_error _ bs hstep

/-- A second digit makes the number too large. -/
theorem le_of_isDigit {ch : UInt8} (h : isDigit ch = true) : (0 : ℤ) ≤ (ch.toNat : ℤ) - 48 := by
  simp only [isDigit, Bool.and_eq_true, decide_eq_true_eq] at h
  have hle : 48 ≤ ch.toNat := h.1
  omega

theorem scan_minor {sc : RLScan} {p : ℕ} (hs : sc.state = .minor) (hminor : sc.httpMinor = 1)
    (bs : Bytes) : Stopped (rlScan sc p bs) ∨ TailText bs := by
  cases bs with
  | nil => exact Or.inl .more
  | cons ch bs =>
    by_cases hdigit : isDigit ch = true
    · left
      have hpos := le_of_isDigit hdigit
      have hstep : rlStep sc p ch =
          .goOn { sc with httpMinor := sc.httpMinor * 10 + ((ch.toNat : ℤ) - 48) } := by
        simp [rlStep, hs, hdigit, hminor]
      rw [rlScan_goOn bs hstep]
      refine stopped_of_doomed bs (Or.inr ⟨?_, by simp [hs]⟩)
      simp only [hminor]
      omega
    · by_cases hcr : ch = CR
      · subst hcr
        have hstep : rlStep sc p CR = .goOn { sc with state := .almostDone } := by
          simp [rlStep, hs, hdigit]
        rw [rlScan_goOn bs hstep]
        refine (scan_almostDone rfl bs).imp_right ?_
        rintro ⟨rest, rfl⟩
        exact tailText_of_cr
      · by_cases hlf : ch = LF
        · subst hlf
          exact Or.inr tailText_of_lf
        · by_cases hsp : ch = SP
          · subst hsp
            have hstep : rlStep sc p SP = .goOn { sc with state := .spaceAfterVersion } := by
              simp [rlStep, hs, hdigit, hcr, hlf]
            rw [rlScan_goOn bs hstep]
            exact (scan_spaceAfterVersion bs rfl).imp_right TailText.space
          · left
            have hstep : rlStep sc p ch = .error 400 := by
              simp [rlStep, hs, hdigit, hsp, hcr, hlf]
            exact stopped_of_error _ bs hstep

/-- The byte `1`. -/
def ONE : UInt8 := 49

theorem scan_firstMinor {sc : RLScan} {p : ℕ} (hs : sc.state = .firstMinor) (bs : Bytes) :
    Stopped (rlScan sc p bs) ∨ ∃ t, bs = ONE :: t ∧ TailText t := by
  cases bs with
  | nil => exact Or.inl .more
  | cons ch bs =>
    by_cases hone : ch = ONE
    · subst hone
      have hstep : rlStep sc p ONE = .goOn { sc with httpMinor := 1, state := .minor } := by
        rw [rlStep, hs]
        rfl
      rw [rlScan_goOn bs hstep]
      exact (scan_minor rfl rfl bs).imp_right fun h => ⟨bs, rfl, h⟩
    · left
      have hone' : ch ≠ 49 := hone
      cases hdigit : isDigit ch with
      | true => exact stopped_of_error 505 bs (by simp [rlStep, hs, hdigit, hone'])
      | false => exact stopped_of_error 400 bs (by simp [rlStep, hs, hdigit])

theorem scan_major {sc : RLScan} {p : ℕ} (hs : sc.state = .major) (hmajor : sc.httpMajor = 1)
    (bs : Bytes) : Stopped (rlScan sc p bs) ∨ ∃ t, bs = DOT :: ONE :: t ∧ TailText t := by
  cases bs with
  | nil => exact Or.inl .more
  | cons ch bs =>
    by_cases hdot : ch = DOT
    · subst hdot
      have hstep : rlStep sc p DOT = .goOn { sc with state := .firstMinor } := by simp [rlStep, hs]
      rw [rlScan_goOn bs hstep]
      refine (scan_firstMinor rfl bs).imp_right ?_
      rintro ⟨t, rfl, ht⟩
      exact ⟨t, rfl, ht⟩
    · left
      cases hdigit : isDigit ch with
      | true =>
        have hpos := le_of_isDigit hdigit
        have hstep : rlStep sc p ch =
            .goOn { sc with httpMajor := sc.httpMajor * 10 + ((ch.toNat : ℤ) - 48) } := by
          simp [rlStep, hs, hdigit, hdot, hmajor]
        rw [rlScan_goOn bs hstep]
        refine stopped_of_doomed bs (Or.inl ⟨?_, by simp [hs]⟩)
        simp only [hmajor]
        omega
      | false => exact stopped_of_error 400 bs (by simp [rlStep, hs, hdigit, hdot])

theorem scan_firstMajor {sc : RLScan} {p : ℕ} (hs : sc.state = .firstMajor) (bs : Bytes) :
    Stopped (rlScan sc p bs) ∨ ∃ t, bs = ONE :: DOT :: ONE :: t ∧ TailText t := by
  cases bs with
  | nil => exact Or.inl .more
  | cons ch bs =>
    by_cases hone : ch = ONE
    · subst hone
      have hstep : rlStep sc p ONE = .goOn { sc with httpMajor := 1, state := .major } := by
        rw [rlStep, hs]
        rfl
      rw [rlScan_goOn bs hstep]
      refine (scan_major rfl rfl bs).imp_right ?_
      rintro ⟨t, rfl, ht⟩
      exact ⟨t, rfl, ht⟩
    · left
      have hone' : ch ≠ 49 := hone
      cases hdigit : isDigit ch with
      | true => exact stopped_of_error 505 bs (by simp [rlStep, hs, hdigit, hone'])
      | false => exact stopped_of_error 400 bs (by simp [rlStep, hs, hdigit])

/-- A state that waits for one character, in front of another state. -/
theorem scan_expect {sc : RLScan} {p : ℕ} {want : UInt8} {next : RLState} {Rest : Bytes → Prop}
    (hs : ∀ ch, rlStep sc p ch = rlExpect sc ch want next)
    (hnext : ∀ t, Stopped (rlScan { sc with state := next } (p + 1) t) ∨ Rest t) (bs : Bytes) :
    Stopped (rlScan sc p bs) ∨ ∃ t, bs = want :: t ∧ Rest t := by
  cases bs with
  | nil => exact Or.inl .more
  | cons ch bs =>
    by_cases hch : ch = want
    · subst hch
      rw [rlScan_goOn bs (by simp [hs, rlExpect] : rlStep sc p ch =
        .goOn { sc with state := next })]
      exact (hnext bs).imp_right fun h => ⟨bs, rfl, h⟩
    · left
      exact stopped_of_error 400 bs (by simp [hs, rlExpect, hch])

/-- The literal `HTTP/` but for its first character, and the version. -/
theorem scan_httpH {sc : RLScan} {p : ℕ} (hs : sc.state = .httpH) (bs : Bytes) :
    Stopped (rlScan sc p bs) ∨ ∃ t, bs = ascii "TTP/1.1" ++ t ∧ TailText t := by
  have hscan := scan_expect (p := p) (fun _ => by rw [rlStep, hs])
    (scan_expect (fun _ => rfl) (scan_expect (fun _ => rfl) (scan_expect (fun _ => rfl)
      (scan_firstMajor rfl)))) bs
  refine hscan.imp_right ?_
  rintro ⟨t₁, rfl, t₂, rfl, t₃, rfl, t₄, rfl, t, rfl, ht⟩
  exact ⟨t, rfl, ht⟩

theorem VersionText.space {t : Bytes} (h : VersionText t) : VersionText (SP :: t) := by
  obtain ⟨j, t', rfl, ht⟩ := h
  exact ⟨j + 1, t', rfl, ht⟩

theorem scan_http11 (bs : Bytes) : ∀ {sc : RLScan} {p : ℕ}, sc.state = .http11 →
    Stopped (rlScan sc p bs) ∨ VersionText bs := by
  induction bs with
  | nil => exact fun _ => Or.inl .more
  | cons ch bs ih =>
    intro sc p hs
    by_cases hsp : ch = SP
    · subst hsp
      have hstep : rlStep sc p SP = .goOn sc := by simp [rlStep, hs]
      rw [rlScan_goOn bs hstep]
      exact (ih hs).imp_right VersionText.space
    · by_cases hh : ch = 72
      · subst hh
        have hstep : rlStep sc p 72 = .goOn { sc with state := .httpH } := by
          rw [rlStep, hs]
          rfl
        rw [rlScan_goOn bs hstep]
        refine (scan_httpH rfl bs).imp_right ?_
        rintro ⟨t, rfl, ht⟩
        exact ⟨0, t, rfl, ht⟩
      · left
        by_cases hend : ch = CR ∨ ch = LF
        · exact stopped_of_error 400 bs (by simp [rlStep, hs, hsp, hend])
        · exact stopped_of_error 400 bs (by simp [rlStep, hs, hsp, hend, rlExpect, hh])

/-- A character that is not refused in a target, and is no space. -/
theorem isVisible_of_isUriChar {ch : UInt8} (h : isUriChar ch = true) (hsp : ch ≠ SP) :
    isVisible ch = true := by
  simp only [isUriChar, isVisible, Bool.and_eq_true, decide_eq_true_eq] at h ⊢
  refine ⟨?_, h.2⟩
  have hle : 32 ≤ ch.toNat := h.1
  have hne : ch.toNat ≠ 32 := fun heq => hsp (UInt8.toNat_inj.mp heq)
  show 33 ≤ ch.toNat
  omega

theorem UriText.cons {t : Bytes} {ch : UInt8} (hch : isVisible ch = true) (h : UriText t) :
    UriText (ch :: t) := by
  obtain ⟨uri, t', huri, rfl, ht⟩ := h
  refine ⟨ch :: uri, t', ?_, rfl, ht⟩
  intro b hb
  rcases List.mem_cons.mp hb with rfl | hb
  · exact hch
  · exact huri b hb

theorem scan_uri (bs : Bytes) : ∀ {sc : RLScan} {p : ℕ}, sc.state = .uri →
    Stopped (rlScan sc p bs) ∨ UriText bs := by
  induction bs with
  | nil => exact fun _ => Or.inl .more
  | cons ch bs ih =>
    intro sc p hs
    by_cases hsp : ch = SP
    · subst hsp
      have hstep : rlStep sc p SP = .goOn { sc with uriEnd := some p, state := .http11 } := by
        simp [rlStep, hs]
      rw [rlScan_goOn bs hstep]
      exact (scan_http11 bs rfl).imp_right fun h => ⟨[], bs, by simp, rfl, h⟩
    · by_cases hend : ch = CR ∨ ch = LF
      · exact Or.inl (stopped_of_error 400 bs (by simp [rlStep, hs, hsp, hend]))
      · cases huri : isUriChar ch with
        | true =>
          have hstep : rlStep sc p ch = .goOn sc := by simp [rlStep, hs, hsp, hend, huri]
          rw [rlScan_goOn bs hstep]
          exact (ih hs).imp_right (UriText.cons (isVisible_of_isUriChar huri hsp))
        | false =>
          exact Or.inl (stopped_of_error 400 bs (by simp [rlStep, hs, hsp, hend, huri]))

theorem TargetText.space {t : Bytes} (h : TargetText t) : TargetText (SP :: t) := by
  obtain ⟨i, b, t', hb, rfl, ht⟩ := h
  exact ⟨i + 1, b, t', hb, rfl, ht⟩

theorem scan_spaceBeforeUri (bs : Bytes) : ∀ {sc : RLScan} {p : ℕ}, sc.state = .spaceBeforeUri →
    Stopped (rlScan sc p bs) ∨ TargetText bs := by
  induction bs with
  | nil => exact fun _ => Or.inl .more
  | cons ch bs ih =>
    intro sc p hs
    by_cases hsp : ch = SP
    · subst hsp
      have hstep : rlStep sc p SP = .goOn sc := by simp [rlStep, hs]
      rw [rlScan_goOn bs hstep]
      exact (ih hs).imp_right TargetText.space
    · cases huri : isUriChar ch with
      | true =>
        have hstep : rlStep sc p ch = .goOn { sc with uriStart := some p, state := .uri } := by
          simp [rlStep, hs, hsp, huri]
        rw [rlScan_goOn bs hstep]
        exact (scan_uri bs rfl).imp_right fun h =>
          ⟨0, ch, bs, isVisible_of_isUriChar huri hsp, rfl, h⟩
      | false => exact Or.inl (stopped_of_error 400 bs (by simp [rlStep, hs, hsp, huri]))

theorem MethodText.cons {t : Bytes} {ch : UInt8} (hch : isTokenChar ch = true) (h : MethodText t) :
    MethodText (ch :: t) := by
  obtain ⟨method, t', hmethod, rfl, ht⟩ := h
  refine ⟨ch :: method, t', ?_, rfl, ht⟩
  intro b hb
  rcases List.mem_cons.mp hb with rfl | hb
  · exact hch
  · exact hmethod b hb

theorem scan_method (bs : Bytes) : ∀ {sc : RLScan} {p : ℕ}, sc.state = .method →
    Stopped (rlScan sc p bs) ∨ MethodText bs := by
  induction bs with
  | nil => exact fun _ => Or.inl .more
  | cons ch bs ih =>
    intro sc p hs
    by_cases hsp : ch = SP
    · subst hsp
      have hstep : rlStep sc p SP = .goOn { sc with
          methodEnd := some p
          state := .spaceBeforeUri } := by
        simp [rlStep, hs]
      rw [rlScan_goOn bs hstep]
      exact (scan_spaceBeforeUri bs rfl).imp_right fun h => ⟨[], bs, by simp, rfl, h⟩
    · cases htoken : isTokenChar ch with
      | true =>
        have hstep : rlStep sc p ch = .goOn sc := by simp [rlStep, hs, hsp, htoken]
        rw [rlScan_goOn bs hstep]
        exact (ih hs).imp_right (MethodText.cons htoken)
      | false => exact Or.inl (stopped_of_error 400 bs (by simp [rlStep, hs, hsp, htoken]))

/-- **What the scan gets past is of the grammar.** -/
theorem stopped_or_lineText (bs : Bytes) : ∀ {sc : RLScan} {p : ℕ}, sc.state = .start →
    Stopped (rlScan sc p bs) ∨ LineText bs := by
  induction bs with
  | nil => exact fun _ => Or.inl .more
  | cons ch bs ih =>
    intro sc p hs
    by_cases hnewline : ch = CR ∨ ch = LF
    · have hstep : rlStep sc p ch = .goOn sc := by simp [rlStep, hs, hnewline]
      rw [rlScan_goOn bs hstep]
      refine (ih hs).imp_right ?_
      rintro ⟨newlines, b, t', hnewlines, hb, rfl, ht⟩
      refine ⟨ch :: newlines, b, t', ?_, hb, rfl, ht⟩
      intro b' hb'
      rcases List.mem_cons.mp hb' with rfl | hb'
      · exact hnewline
      · exact hnewlines b' hb'
    · cases htoken : isTokenChar ch with
      | true =>
        have hstep : rlStep sc p ch = .goOn { sc with
            methodStart := some p
            state := .method } := by
          simp [rlStep, hs, hnewline, htoken]
        rw [rlScan_goOn bs hstep]
        exact (scan_method bs rfl).imp_right fun h => ⟨[], ch, bs, by simp, htoken, rfl, h⟩
      | false => exact Or.inl (stopped_of_error 400 bs (by simp [rlStep, hs, hnewline, htoken]))

/-! ### Lines of the grammar -/

/-- A text of the grammar has a request line at its front. -/
theorem LineText.isRequestLine {text : Bytes} (h : LineText text) :
    ∃ method uri n, IsRequestLine text method uri n := by
  obtain ⟨newlines, b, -, hnewlines, hb, rfl, method, -, hmethod, rfl, i, ch, -, hch, rfl, uri, -,
    huri, rfl, j, -, rfl, k, cr, rest, hcr, rfl⟩ := h
  refine ⟨b :: method, ch :: uri, _, by simp, ?_, by simp, ?_, newlines, cr, rest, i,
    j, k, hnewlines,
    hcr, ?_, (Nat.sub_add_cancel ?_).symm⟩
  · intro b' hb'
    rcases List.mem_cons.mp hb' with rfl | hb'
    · exact hb
    · exact hmethod b' hb'
  · intro b' hb'
    rcases List.mem_cons.mp hb' with rfl | hb'
    · exact hch
    · exact huri b' hb'
  · simp [List.replicate_succ]
  · simp only [List.length_append, List.length_cons]
    omega

/-- Characters that do not change the state of the scan. -/
theorem rlScan_loop {sc : RLScan} {xs : Bytes} (h : ∀ b ∈ xs, ∀ p, rlStep sc p b = .goOn sc) :
    ∀ (p : ℕ) (rest : Bytes), rlScan sc p (xs ++ rest) = rlScan sc (p + xs.length) rest := by
  induction xs with
  | nil => exact fun _ _ => rfl
  | cons b xs ih =>
    intro p rest
    rw [List.cons_append, rlScan_goOn _ (h b List.mem_cons_self p),
      ih (fun b' hb' => h b' (List.mem_cons_of_mem b hb')), List.length_cons]
    congr 1
    omega

theorem rlScan_spaces {sc : RLScan} (h : ∀ p, rlStep sc p SP = .goOn sc) (k p : ℕ) (rest : Bytes) :
    rlScan sc p (List.replicate k SP ++ rest) = rlScan sc (p + k) rest := by
  rw [rlScan_loop, List.length_replicate]
  intro b hb
  rwa [List.eq_of_mem_replicate hb]

/-- The state in which the line feed is read. -/
def lastState (k : ℕ) (cr : Bytes) : RLState :=
  if cr = [CR] then .almostDone else if k = 0 then .minor else .spaceAfterVersion

/-- The end of the line, behind the version. -/
theorem rlScan_tailText {sc : RLScan} (hs : sc.state = .minor) (k p : ℕ) {cr : Bytes}
    (hcr : cr = [] ∨ cr = [CR]) (rest : Bytes) :
    rlScan sc p (List.replicate k SP ++ (cr ++ LF :: rest)) =
      .line { sc with state := lastState k cr } (p + k + cr.length + 1) := by
  have hne : isDigit LF = false ∧ isDigit CR = false ∧ isDigit SP = false ∧ LF ≠ CR ∧ LF ≠ SP ∧
      CR ≠ SP ∧ SP ≠ CR ∧ SP ≠ LF := by decide
  obtain ⟨hlf, hcr', hsp, h₁, h₂, h₃, h₄, h₅⟩ := hne
  -- behind a carriage return there is only the line feed
  have hend : ∀ q, rlScan { sc with state := .almostDone } q (LF :: rest) =
      .line { sc with state := .almostDone } (q + 1) := fun q => by simp [rlScan, rlStep]
  cases k with
  | zero =>
    rw [List.replicate_zero, List.nil_append, Nat.add_zero]
    rcases hcr with rfl | rfl
    · have hstep : rlStep sc p LF = .done sc := by simp [rlStep, hs, hlf, h₁]
      have hstate : lastState 0 [] = sc.state := hs.symm
      rw [List.nil_append, rlScan, hstep, hstate]
      rfl
    · have hstep : rlStep sc p CR = .goOn { sc with state := .almostDone } := by
        simp [rlStep, hs, hcr']
      rw [List.singleton_append, rlScan_goOn _ hstep, hend]
      rfl
  | succ k =>
    have hspace : rlStep sc p SP = .goOn { sc with state := .spaceAfterVersion } := by
      simp [rlStep, hs, hsp, h₄, h₅]
    have hlength : p + 1 + k = p + (k + 1) := by omega
    rw [List.replicate_succ, List.cons_append, rlScan_goOn _ hspace,
      rlScan_spaces (fun _ => by simp [rlStep]), hlength]
    generalize p + (k + 1) = q
    rcases hcr with rfl | rfl
    · have hstep : rlStep { sc with state := .spaceAfterVersion } q LF =
          .done { sc with state := .spaceAfterVersion } := by simp [rlStep, h₁, h₂]
      rw [List.nil_append, rlScan, hstep]
      rfl
    · have hstep : rlStep { sc with state := .spaceAfterVersion } q CR =
          .goOn { sc with state := .almostDone } := by simp [rlStep, h₃]
      rw [List.singleton_append, rlScan_goOn _ hstep, hend]
      rfl

theorem slice_middle (front part behind : Bytes) :
    slice (front ++ (part ++ behind)) front.length (front.length + part.length) = part := by
  rw [slice, List.drop_left, Nat.add_sub_cancel_left, List.take_left]

theorem isUriChar_of_isVisible {ch : UInt8} (h : isVisible ch = true) :
    isUriChar ch = true ∧ ch ≠ SP ∧ ¬ (ch = CR ∨ ch = LF) := by
  simp only [isUriChar, isVisible, Bool.and_eq_true, decide_eq_true_eq] at h ⊢
  have hle : 33 ≤ ch.toNat := h.1
  refine ⟨⟨show 32 ≤ ch.toNat by omega, h.2⟩, ?_, ?_⟩
  · rintro rfl
    exact absurd hle (by decide)
  · rintro (rfl | rfl)
    · exact absurd hle (by decide)
    · exact absurd hle (by decide)

theorem ne_of_isTokenChar {ch : UInt8} (h : isTokenChar ch = true) :
    ch ≠ SP ∧ ¬ (ch = CR ∨ ch = LF) := by
  refine ⟨?_, ?_⟩
  · rintro rfl
    exact absurd h (by decide)
  · rintro (rfl | rfl)
    · exact absurd h (by decide)
    · exact absurd h (by decide)

/-- The method and the space behind it. -/
theorem rlScan_methodText {p : ℕ} {newlines method : Bytes}
    (hnewlines : ∀ b ∈ newlines, b = CR ∨ b = LF) (hne : method ≠ [])
    (htoken : ∀ b ∈ method, isTokenChar b = true) (rest : Bytes) :
    rlScan RLScan.init p (newlines ++ (method ++ SP :: rest)) =
      rlScan { RLScan.init with
        state := .spaceBeforeUri
        methodStart := some (p + newlines.length)
        methodEnd := some (p + newlines.length + method.length) }
        (p + newlines.length + method.length + 1) rest := by
  have hloop : ∀ b ∈ newlines, ∀ q, rlStep RLScan.init q b = .goOn RLScan.init := by
    intro b hb q
    simp [rlStep, RLScan.init, hnewlines b hb]
  rw [rlScan_loop hloop]
  generalize p + newlines.length = q
  obtain ⟨b, method, rfl⟩ := List.exists_cons_of_ne_nil hne
  have hb := htoken b List.mem_cons_self
  have hfirst : rlStep RLScan.init q b =
      .goOn { RLScan.init with state := .method, methodStart := some q } := by
    simp [rlStep, RLScan.init, hb, (ne_of_isTokenChar hb).2]
  have hspace : ∀ r, rlStep { RLScan.init with state := .method, methodStart := some q } r SP =
      .goOn { RLScan.init with
        state := .spaceBeforeUri, methodStart := some q, methodEnd := some r } :=
    fun r => by simp [rlStep]
  rw [List.cons_append, rlScan_goOn _ hfirst, rlScan_loop]
  · rw [rlScan_goOn rest (hspace _), List.length_cons]
    have hlength : q + 1 + method.length = q + (method.length + 1) := by omega
    rw [hlength]
  · intro b' hb' r
    have htoken' := htoken b' (List.mem_cons_of_mem b hb')
    simp [rlStep, htoken', (ne_of_isTokenChar htoken').1]

/-- Spaces, the target and the space behind it. -/
theorem rlScan_targetText {sc : RLScan} (hs : sc.state = .spaceBeforeUri) (i p : ℕ) {uri : Bytes}
    (hne : uri ≠ []) (hvisible : ∀ b ∈ uri, isVisible b = true) (rest : Bytes) :
    rlScan sc p (List.replicate i SP ++ (uri ++ SP :: rest)) =
      rlScan { sc with
        state := .http11
        uriStart := some (p + i)
        uriEnd := some (p + i + uri.length) } (p + i + uri.length + 1) rest := by
  rw [rlScan_spaces (fun _ => by simp [rlStep, hs])]
  generalize p + i = q
  obtain ⟨b, uri, rfl⟩ := List.exists_cons_of_ne_nil hne
  obtain ⟨hb, hsp, -⟩ := isUriChar_of_isVisible (hvisible b List.mem_cons_self)
  have hfirst : rlStep sc q b = .goOn { sc with state := .uri, uriStart := some q } := by
    simp [rlStep, hs, hb, hsp]
  have hspace : ∀ r, rlStep { sc with state := .uri, uriStart := some q } r SP =
      .goOn { sc with state := .http11, uriStart := some q, uriEnd := some r } :=
    fun r => by simp [rlStep]
  rw [List.cons_append, rlScan_goOn _ hfirst, rlScan_loop]
  · rw [rlScan_goOn rest (hspace _), List.length_cons]
    have hlength : q + 1 + uri.length = q + (uri.length + 1) := by omega
    rw [hlength]
  · intro b' hb' r
    obtain ⟨huri, hsp', hend⟩ := isUriChar_of_isVisible (hvisible b' (List.mem_cons_of_mem b hb'))
    simp [rlStep, huri, hsp', hend]

/-- The literal and the version. -/
theorem rlScan_versionText {sc : RLScan} (hs : sc.state = .http11) (j p : ℕ) (rest : Bytes) :
    rlScan sc p (List.replicate j SP ++ (ascii "HTTP/1.1" ++ rest)) =
      rlScan { sc with state := .minor, httpMajor := 1, httpMinor := 1 } (p + j + 8) rest := by
  rw [rlScan_spaces (fun _ => by simp [rlStep, hs])]
  obtain ⟨state, ms, me, us, ue, major, minor⟩ := sc
  subst hs
  rfl

/-- The marks that the scan of a request line leaves. -/
structure Marks (sc : RLScan) (text method uri : Bytes) : Prop where
  method : ∃ s e, sc.methodStart = some s ∧ sc.methodEnd = some e ∧ slice text s e = method
  uri : ∃ s, sc.uriStart = some s ∧ sc.uriEnd = some (s + uri.length) ∧
    slice text s (s + uri.length) = uri
  version : sc.httpMajor = 1 ∧ sc.httpMinor = 1

/-- **Where the scan of a line of the grammar puts its marks**, and where it ends. -/
theorem rlScan_lineText {text method uri : Bytes} {n : ℕ} (h : IsRequestLine text method uri n) :
    ∃ sc, rlScan RLScan.init 0 text = .line sc n ∧ Marks sc text method uri := by
  obtain ⟨hmethod, htoken, huri, hvisible, newlines, cr, rest, i, j, k, hnewlines, hcr,
    htext, hn⟩ := h
  have hsplit : text = newlines ++ (method ++ SP :: (List.replicate i SP ++ (uri ++ SP ::
      (List.replicate j SP ++ (ascii "HTTP/1.1" ++ (List.replicate k SP ++
        (cr ++ LF :: rest))))))) := by
    rw [htext]
    simp [List.replicate_succ]
  have hlength : n = 0 + newlines.length + method.length + 1 + i + uri.length + 1 + j + 8 + k +
      cr.length + 1 := by
    have htotal := congrArg List.length hsplit
    simp only [List.length_append, List.length_cons, List.length_replicate] at htotal
    have hliteral : (ascii "HTTP/1.1").length = 8 := rfl
    omega
  have hscan := (rlScan_methodText (p := 0) hnewlines hmethod htoken _).trans
    ((rlScan_targetText rfl i _ huri hvisible _).trans ((rlScan_versionText rfl j _ _).trans
      (rlScan_tailText rfl k _ hcr rest)))
  rw [← hsplit, ← hlength] at hscan
  refine ⟨_, hscan, ⟨_, _, rfl, rfl, ?_⟩, ⟨_, rfl, rfl, ?_⟩, rfl, rfl⟩
  · rw [hsplit, Nat.zero_add]
    exact slice_middle newlines method _
  · have hfront : text = (newlines ++ method ++ SP :: List.replicate i SP) ++ (uri ++ SP ::
        (List.replicate j SP ++ (ascii "HTTP/1.1" ++ (List.replicate k SP ++
          (cr ++ LF :: rest))))) := by
      rw [hsplit]
      simp
    have hstart : 0 + newlines.length + method.length + 1 + i =
        (newlines ++ method ++ SP :: List.replicate i SP).length := by
      simp only [List.length_append, List.length_cons, List.length_replicate]
      omega
    rw [hstart, hfront]
    exact slice_middle _ uri _

/-! ### The request line -/

section

variable {stat : StatAnswer} {c : Connection} {bs : Bytes}

theorem checkLine_of_stopped (h : Stopped (rlScan RLScan.init 0 bs)) :
    checkLine bs = .waits ∨ ∃ code, (code = 400 ∨ code = 505) ∧ checkLine bs = .refused code := by
  unfold checkLine
  split
  · exact Or.inl rfl
  · cases hscan : rlScan RLScan.init 0 bs with
    | more => exact Or.inl rfl
    | error code =>
      rw [hscan] at h
      cases h with
      | error hcode => exact Or.inr ⟨code, hcode, rfl⟩
    | line sc p =>
      rw [hscan] at h
      cases h with
      | version hversion =>
        have hcheck : (!(sc.httpMajor == 1 &&
          (sc.httpMinor == 0 || sc.httpMinor == 1))) = true := by
          rw [Bool.not_eq_true', Bool.eq_false_iff]
          simpa [RLScan.VersionOk] using hversion
        right
        dsimp only
        split
        · split_ifs
          · exact ⟨400, Or.inl rfl, rfl⟩
          · exact ⟨400, Or.inl rfl, rfl⟩
          · exact ⟨505, Or.inr rfl, rfl⟩
        · exact ⟨400, Or.inl rfl, rfl⟩

theorem parseRequestLine_of_waits (h : checkLine c.readBuffer.items = .waits) :
    parseRequestLine stat c = c := by
  unfold checkLine at h
  unfold parseRequestLine
  dsimp only
  split at h
  · next hempty => rw [if_pos hempty]
  · next hempty =>
    rw [if_neg hempty]
    cases hscan : rlScan RLScan.init 0 c.readBuffer.items with
    | more => rfl
    | error code =>
      rw [hscan] at h
      cases h
    | line sc p =>
      rw [hscan] at h
      dsimp only at h
      split at h
      · split_ifs at h
      · cases h

theorem parseRequestLine_of_refused {code : ℕ} (h : checkLine c.readBuffer.items = .refused code) :
    parseRequestLine stat c = { c with request := c.request.fail code } := by
  unfold checkLine at h
  unfold parseRequestLine
  dsimp only
  split at h
  · cases h
  · next hempty =>
    rw [if_neg hempty]
    cases hscan : rlScan RLScan.init 0 c.readBuffer.items with
    | more =>
      rw [hscan] at h
      cases h
    | error code' =>
      rw [hscan] at h
      cases h
      rfl
    | line sc p =>
      rw [hscan] at h
      dsimp only at h
      unfold finishRequestLine
      dsimp only
      -- the marks of the scan, and then the three checks, in the order of the source
      cases hms : sc.methodStart with
      | none =>
        rw [hms] at h
        cases h
        rfl
      | some ms =>
        cases hme : sc.methodEnd with
        | none =>
          rw [hms, hme] at h
          cases h
          rfl
        | some me =>
          cases hus : sc.uriStart with
          | none =>
            rw [hms, hme, hus] at h
            cases h
            rfl
          | some us =>
            rw [hms, hme, hus] at h
            dsimp only at h ⊢
            split_ifs at h with h₁ h₂ h₃
            · cases h
              rw [if_pos h₁]
            · cases h
              rw [if_neg h₁, if_pos h₂]
            · cases h
              rw [if_neg h₁, if_neg h₂, if_pos h₃]

variable {method uri : Bytes} {n : ℕ}

theorem IsRequestLine.ne_nil (h : IsRequestLine bs method uri n) : ¬ bs.isEmpty = true := by
  obtain ⟨newlines, cr, rest, i, j, k, -, -, htext, -⟩ := h.split
  rw [htext]
  simp

theorem IsRequestLine.checkLine_eq (h : IsRequestLine bs method uri n) :
    checkLine bs = .past method uri n := by
  obtain ⟨sc, hscan, ⟨s, e, hs, he, hmethod⟩, ⟨u, hu, hue, huri⟩, hmajor, hminor⟩ :=
    rlScan_lineText h
  unfold checkLine
  rw [if_neg h.ne_nil, hscan]
  simp [hs, he, hu, hue, hmajor, hminor, hmethod, huri]

theorem IsRequestLine.parseRequestLine_eq (h : IsRequestLine c.readBuffer.items method uri n) :
    parseRequestLine stat c = pastVersion stat c method uri n := by
  obtain ⟨sc, hscan, ⟨s, e, hs, he, hmethod⟩, ⟨u, hu, hue, huri⟩, hmajor, hminor⟩ :=
    rlScan_lineText h
  unfold parseRequestLine finishRequestLine pastVersion
  dsimp only
  rw [if_neg h.ne_nil, hscan]
  simp [hs, he, hu, hue, hmajor, hminor, hmethod, huri]

end

/-- **The machine accepts exactly its grammar.**  It gets past the check of the version on the
request lines, with the method, the target and the length they have; on any other text it waits,
and nothing is changed, or it refuses the request with 400 or 505. -/
theorem parseRequestLine_grammar (stat : StatAnswer) (c : Connection) :
    (∀ method uri n, checkLine c.readBuffer.items = .past method uri n ↔
      IsRequestLine c.readBuffer.items method uri n) ∧
    (∀ method uri n, IsRequestLine c.readBuffer.items method uri n →
      parseRequestLine stat c = pastVersion stat c method uri n) ∧
    ((∀ method uri n, ¬ IsRequestLine c.readBuffer.items method uri n) →
      parseRequestLine stat c = c ∨ ∃ code, (code = 400 ∨ code = 505) ∧
        parseRequestLine stat c = { c with request := c.request.fail code }) := by
  have hscan := @stopped_or_lineText c.readBuffer.items RLScan.init 0 rfl
  refine ⟨?_, fun method uri n => IsRequestLine.parseRequestLine_eq, ?_⟩
  · intro method uri n
    refine ⟨fun hpast => ?_, IsRequestLine.checkLine_eq⟩
    rcases hscan with hstopped | hline
    · rcases checkLine_of_stopped hstopped with h | ⟨code, -, h⟩
      · rw [h] at hpast
        cases hpast
      · rw [h] at hpast
        cases hpast
    · obtain ⟨method', uri', n', h⟩ := hline.isRequestLine
      rw [h.checkLine_eq] at hpast
      cases hpast
      exact h
  · intro hnone
    rcases hscan with hstopped | hline
    · rcases checkLine_of_stopped hstopped with h | ⟨code, hcode, h⟩
      · exact Or.inl (parseRequestLine_of_waits h)
      · exact Or.inr ⟨code, hcode, parseRequestLine_of_refused h⟩
    · obtain ⟨method, uri, n, h⟩ := hline.isRequestLine
      exact absurd h (hnone method uri n)

end Webserv

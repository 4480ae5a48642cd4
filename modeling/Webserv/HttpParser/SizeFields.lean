import Webserv.HttpParser.Body
import Webserv.HttpParser.Headers
import Webserv.Lib.Numeral

/-!
# Size fields

Content-Length and the size of a chunk are read digit by digit, with a bound: both loops are the
reader of numerals that gives up above a bound.  So a size is accepted when its value is within the
bound, and then it is that value; what is computed on the way fits in 64 bits.

## Main results

* `contentLengthLoop_eq`, `chunkSizeLoop_eq` — the loops are that reader.
* `sizeFields_spec` — **size fields are read exactly.**
-/

namespace Webserv

open Bytes

/-! ### Content-Length -/

/-- The values that the loop over Content-Length computes, before they are stored as a `size_t`. -/
def contentLengthFormed (maxBody cl : ℕ) : Bytes → List ℕ
  | [] => []
  | ch :: rest =>
      if !isDigit ch then []
      else
        let exact := cl * 10 + (ch.toNat - 48)
        let cl := exact % 2 ^ 64
        exact :: if cl > maxBody then [] else contentLengthFormed maxBody cl rest

/-- A value that is within the bound leaves room for one more digit. -/
theorem contentLength_step {maxBody cl : ℕ} {ch : UInt8} (hmax : maxBody ≤ 2147483647)
    (hcl : cl ≤ maxBody) (hch : isDigit ch = true) :
    (cl * 10 + (ch.toNat - 48)) % 2 ^ 64 = cl * 10 + (ch.toNat - 48) := by
  have hrange := isDigit_toNat hch
  exact Nat.mod_eq_of_lt (by omega)

/-- **The loop over Content-Length.** -/
theorem contentLengthLoop_eq {maxBody : ℕ} (hmax : maxBody ≤ 2147483647) :
    ∀ (s : Bytes) {cl : ℕ}, cl ≤ maxBody → (∀ b ∈ s, isDigit b = true) →
      contentLengthLoop maxBody cl s =
          (Numeral.readUpTo 10 maxBody cl (decimalDigits s)).elim (.error 413) .ok ∧
        contentLengthFormed maxBody cl s = Numeral.formed 10 maxBody cl (decimalDigits s) := by
  intro s
  induction s with
  | nil => exact fun _ _ => ⟨rfl, rfl⟩
  | cons ch s ih =>
    intro cl hcl hs
    rw [List.forall_mem_cons] at hs
    have hstep := contentLength_step hmax hcl hs.1
    simp only [contentLengthLoop, contentLengthFormed, hs.1, Bool.not_true, Bool.false_eq_true,
      if_false, hstep, decimalDigits, List.map_cons, Numeral.readUpTo, Numeral.formed]
    by_cases hbig : maxBody < cl * 10 + (ch.toNat - 48)
    · simp [hbig]
    · obtain ⟨hloop, hformed⟩ := @ih (cl * 10 + (ch.toNat - 48)) (by omega) hs.2
      simp only [gt_iff_lt, hbig, if_false]
      exact ⟨hloop, congrArg _ hformed⟩

theorem contentLengthLoop_digits {maxBody : ℕ} {digits : Bytes} (hmax : maxBody ≤ 2147483647)
    (hdigits : ∀ b ∈ digits, isDigit b = true) :
    contentLengthLoop maxBody 0 digits =
        (if decimalValue digits ≤ maxBody then .ok (decimalValue digits) else .error 413) ∧
      ∀ v ∈ contentLengthFormed maxBody 0 digits, v < 2 ^ 64 := by
  obtain ⟨hloop, hformed⟩ := contentLengthLoop_eq hmax digits (Nat.zero_le _) hdigits
  constructor
  · rw [hloop, Numeral.readUpTo_eq (by decide) (Nat.zero_le _), ← decimalValue]
    split <;> rfl
  · intro v hv
    rw [hformed] at hv
    have hlt := Numeral.lt_of_mem_formed (Nat.zero_le _) (lt_of_mem_decimalDigits hdigits) v hv
    omega

/-- What `_parseHeaders` does with a Content-Length. -/
theorem framing_contentLength {maxBody : ℕ} {req : HttpRequest} {digits : Bytes}
    (hmax : maxBody ≤ 2147483647) (hne : digits ≠ []) (hdigits : ∀ b ∈ digits, isDigit b = true)
    (hlength : req.headers[ascii "content-length"]? = some digits)
    (hcoding : req.headers[ascii "transfer-encoding"]? = none) :
    if decimalValue digits ≤ maxBody then
      (framing maxBody req).contentLength = decimalValue digits ∧
        ((framing maxBody req).parseState = .error → (framing maxBody req).errorCode = 411)
    else framing maxBody req = req.fail 413 := by
  have hloop := (contentLengthLoop_digits hmax hdigits).1
  have hempty : digits.isEmpty = false := by simpa using hne
  unfold framing
  rw [hlength, hcoding]
  dsimp only
  rw [hempty, hloop]
  by_cases hle : decimalValue digits ≤ maxBody
  · simp only [hle, if_true, Option.isSome_some, Option.isSome_none, Bool.and_false,
      Bool.false_eq_true, if_false, Option.any_none]
    split
    · split
      · exact ⟨rfl, fun _ => rfl⟩
      · exact ⟨rfl, nofun⟩
    · exact ⟨rfl, nofun⟩
  · simp [hle]

/-! ### The size of a chunk -/

/-- The values that the loop over a size line computes. -/
def chunkSizeFormed (chunkSz : ℕ) : Bytes → List ℕ
  | [] => []
  | c :: rest =>
      if c == SEMICOLON then []
      else
        match hexDigit? c with
        | none => []
        | some d =>
            if chunkSz > maxAllowedChunk / 16 then []
            else
              (chunkSz * 16 + d) ::
                if chunkSz * 16 + d > maxAllowedChunk then []
                else chunkSizeFormed (chunkSz * 16 + d) rest

/-- **The loop over a size line.**  Its first test refuses nothing that the second would not. -/
theorem chunkSizeLoop_eq : ∀ (s : Bytes) {chunkSz : ℕ} {valid : Bool},
    chunkSz ≤ maxAllowedChunk → (∀ b ∈ s, (hexDigit? b).isSome) →
      chunkSizeLoop chunkSz valid s =
          (Numeral.readUpTo 16 maxAllowedChunk chunkSz (hexDigits s)).elim (.error 413)
            (fun n => .ok (n, valid || !s.isEmpty, [])) ∧
        ∀ v ∈ chunkSizeFormed chunkSz s,
          v ∈ Numeral.formed 16 maxAllowedChunk chunkSz (hexDigits s) := by
  intro s
  induction s with
  | nil =>
    intro chunkSz valid _ _
    exact ⟨by simp [chunkSizeLoop, hexDigits, Numeral.readUpTo], by simp [chunkSizeFormed]⟩
  | cons c s ih =>
    intro chunkSz valid hsz hs
    rw [List.forall_mem_cons] at hs
    obtain ⟨d, hd⟩ := Option.isSome_iff_exists.mp hs.1
    have hc : (c == SEMICOLON) = false := by
      rw [beq_eq_false_iff_ne]
      rintro rfl
      simp [hexDigit?_SEMICOLON] at hd
    have hmax : maxAllowedChunk = 1073741824 := rfl
    simp only [chunkSizeLoop, chunkSizeFormed, hc, Bool.false_eq_true, if_false, hd,
      hexDigits, List.filterMap_cons_some hd, Numeral.readUpTo, Numeral.formed]
    by_cases hbig : maxAllowedChunk < chunkSz * 16 + d
    · by_cases hfar : chunkSz > maxAllowedChunk / 16
      · simp [hbig, hfar]
      · simp [hbig, hfar]
    · have hnear : ¬ chunkSz > maxAllowedChunk / 16 := by omega
      obtain ⟨hloop, hformed⟩ := @ih (chunkSz * 16 + d) true (by omega) hs.2
      simp only [gt_iff_lt, hbig, if_false, hnear]
      refine ⟨hloop.trans ?_, fun v hv => ?_⟩
      · simp [hexDigits]
      · rcases List.mem_cons.mp hv with rfl | hv
        · exact List.mem_cons_self
        · exact List.mem_cons_of_mem _ (hformed v hv)

theorem parseChunkSize_digits {digits : Bytes} (hne : digits ≠ [])
    (hdigits : ∀ b ∈ digits, (hexDigit? b).isSome) :
    hexValue digits = some (Numeral.valueFrom 16 0 (hexDigits digits)) ∧
      parseChunkSize digits =
        (if Numeral.valueFrom 16 0 (hexDigits digits) ≤ 2 ^ 30 then
          .ok (Numeral.valueFrom 16 0 (hexDigits digits)) else .error 413) ∧
      ∀ v ∈ chunkSizeFormed 0 digits, v < 2 ^ 64 := by
  obtain ⟨hloop, hformed⟩ := @chunkSizeLoop_eq digits 0 false (Nat.zero_le _) hdigits
  have hmax : maxAllowedChunk = 2 ^ 30 := rfl
  have hempty : digits.isEmpty = false := by simpa using hne
  refine ⟨by rw [hexValue, if_neg hne, hexValueFrom_eq digits hdigits], ?_, fun v hv => ?_⟩
  · rw [parseChunkSize, hempty, hloop, Numeral.readUpTo_eq (by decide) (Nat.zero_le _), ← hmax]
    by_cases hle : Numeral.valueFrom 16 0 (hexDigits digits) ≤ maxAllowedChunk
    · simp [hle, hne]
    · simp [hle]
  · have hlt := Numeral.lt_of_mem_formed (Nat.zero_le _) lt_of_mem_hexDigits v (hformed v hv)
    omega

/-- What `_parseChunked` does with a size line of digits. -/
theorem chunkRound_digits {buf : ByteQueue} {req : HttpRequest} {digits rest : Bytes} {n : ℕ}
    (hne : digits ≠ []) (hdigits : ∀ b ∈ digits, (hexDigit? b).isSome)
    (hvalue : hexValue digits = some n) (hbuf : buf.items = digits ++ crlf ++ rest)
    (htrailing : req.chunkTrailing = false) (hsize : req.chunkSize = 0) :
    chunkRound (buf, req) =
      if n ≤ 2 ^ 30 then
        .inl (⟨rest, buf.limit⟩, if n = 0 then { req with chunkDone := true, chunkTrailing := true }
          else { req with chunkSize := n })
      else .inr (.ok (⟨rest, buf.limit⟩, req.fail 413) ()) := by
  obtain ⟨hvalue', hparse, -⟩ := parseChunkSize_digits hne hdigits
  rw [hvalue, Option.some.injEq] at hvalue'
  rw [← hvalue'] at hparse
  have hCR : CR ∉ digits := fun hmem => by simpa [hexDigit?_CR] using hdigits CR hmem
  have hfind : findCrlf buf.items = some digits.length := by
    rw [hbuf]
    exact FirstMatch.find_append_cons hCR
  have htake : buf.items.take digits.length = digits := by
    rw [hbuf, List.append_assoc, List.take_left]
  have hrest : buf.consume (digits.length + 2) = ⟨rest, buf.limit⟩ :=
    Fifo.ext (by rw [Fifo.items_consume, hbuf]; exact List.drop_left' (by simp [crlf])) rfl
  simp only [chunkRound, htrailing, Bool.false_eq_true, if_false, hsize, if_true, hfind, htake,
    hrest, hparse]
  by_cases hle : n ≤ 2 ^ 30
  · rw [if_pos hle, if_pos hle]
    cases n with
    | zero => rfl
    | succ n => rfl
  · rw [if_neg hle, if_neg hle]

/-! ### Both -/

/-- **Size fields are read exactly**: a Content-Length up to the limit of the body, and the size of
a chunk up to 2³⁰.  Nothing that is computed on the way needs more than 64 bits. -/
theorem sizeFields_spec :
    (∀ (maxBody : ℕ) (digits : Bytes), 0 < maxBody → maxBody ≤ 2147483647 → digits ≠ [] →
      (∀ b ∈ digits, isDigit b = true) →
        contentLengthLoop maxBody 0 digits =
            (if decimalValue digits ≤ maxBody then .ok (decimalValue digits) else .error 413) ∧
          (∀ v ∈ contentLengthFormed maxBody 0 digits, v < 2 ^ 64) ∧
          ∀ req : HttpRequest, req.headers[ascii "content-length"]? = some digits →
            req.headers[ascii "transfer-encoding"]? = none →
              if decimalValue digits ≤ maxBody then
                (framing maxBody req).contentLength = decimalValue digits ∧
                  ((framing maxBody req).parseState = .error →
                    (framing maxBody req).errorCode = 411)
              else framing maxBody req = req.fail 413) ∧
    ∀ digits : Bytes, digits ≠ [] → (∀ b ∈ digits, (hexDigit? b).isSome) →
      ∃ n, hexValue digits = some n ∧
        parseChunkSize digits = (if n ≤ 2 ^ 30 then .ok n else .error 413) ∧
        (∀ v ∈ chunkSizeFormed 0 digits, v < 2 ^ 64) ∧
        ∀ (buf : ByteQueue) (req : HttpRequest) (rest : Bytes),
          buf.items = digits ++ crlf ++ rest → req.chunkTrailing = false → req.chunkSize = 0 →
            chunkRound (buf, req) =
              if n ≤ 2 ^ 30 then
                .inl (⟨rest, buf.limit⟩,
                  if n = 0 then { req with chunkDone := true, chunkTrailing := true }
                  else { req with chunkSize := n })
              else .inr (.ok (⟨rest, buf.limit⟩, req.fail 413) ()) := by
  refine ⟨fun maxBody digits _ hmax hne hdigits => ?_, fun digits hne hdigits => ?_⟩
  · obtain ⟨hloop, hformed⟩ := contentLengthLoop_digits hmax hdigits
    exact ⟨hloop, hformed, fun req => framing_contentLength hmax hne hdigits⟩
  · obtain ⟨hvalue, hparse, hformed⟩ := parseChunkSize_digits hne hdigits
    exact ⟨_, hvalue, hparse, hformed, fun buf req rest hbuf =>
      chunkRound_digits hne hdigits hvalue hbuf⟩

/-- Leading zeros, and the bounds themselves. -/
theorem sizeFields_bounds :
    contentLengthLoop 1000 0 (ascii "0001000") = .ok 1000 ∧
      ∃ n, hexValue (ascii "0040000000") = some n ∧
        parseChunkSize (ascii "0040000000") = if n ≤ 2 ^ 30 then .ok n else .error 413 := by
  have hdigits : ∀ b ∈ ascii "0001000", isDigit b = true := by decide +kernel
  have hhex : ∀ b ∈ ascii "0040000000", (hexDigit? b).isSome = true := by decide +kernel
  have hlength := (sizeFields_spec.1 1000 (ascii "0001000") (by decide) (by decide) (by decide)
    hdigits).1
  obtain ⟨n, hvalue, hparse, -⟩ := sizeFields_spec.2 (ascii "0040000000") (by decide) hhex
  exact ⟨hlength.trans (if_pos (by decide)), n, hvalue, hparse⟩

end Webserv

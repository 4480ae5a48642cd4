import Webserv.HttpParser.Text
import Webserv.Lib.Path

/-!
# Percent-decoding

`pctDecode` undoes every encoding of a path that leaves the slashes as they are, and it decodes a
path segment by segment: no slash comes out of an escape, and none is lost in one.

## Main results

* `pctDecode_append_slash` — an escape does not reach over a slash.
* `pctDecode_faithful` — **what is encoded is decoded, and segments stay segments.**
-/

namespace Webserv

open Bytes Path

/-- The percent sign. -/
def PERCENT : UInt8 := 37

/-- The text `t` is `s` with every byte but the slash written as an escape, its digits in either
case. -/
inductive PctEncodes : Bytes → Bytes → Prop
  | nil : PctEncodes [] []
  | slash {s t : Bytes} (h : PctEncodes s t) : PctEncodes (SLASH :: s) (SLASH :: t)
  | byte {b hi lo : UInt8} {s t : Bytes} (hb : b ≠ SLASH) (hhi : hexDigit? hi = some (b.toNat / 16))
      (hlo : hexDigit? lo = some (b.toNat % 16)) (h : PctEncodes s t) :
      PctEncodes (b :: s) (PERCENT :: hi :: lo :: t)

/-! ### One byte -/

/-- Any byte but the percent sign stands for itself. -/
theorem pctDecode_cons_of_ne {b : UInt8} (hb : b ≠ PERCENT) (rest : Bytes) :
    pctDecode (b :: rest) = b :: pctDecode rest := by
  rcases rest with - | ⟨hi, - | ⟨lo, rest⟩⟩
  · rfl
  · rfl
  · have hne : (b == 37) = false := beq_eq_false_iff_ne.mpr hb
    rw [pctDecode, hne]
    rfl

/-- Two digits behind it are an escape. -/
theorem pctDecode_escape {b hi lo : UInt8} (hb : b ≠ SLASH)
    (hhi : hexDigit? hi = some (b.toNat / 16))
    (hlo : hexDigit? lo = some (b.toNat % 16)) (rest : Bytes) :
    pctDecode (PERCENT :: hi :: lo :: rest) = b :: pctDecode rest := by
  have hval : (b.toNat / 16 * 16 + b.toNat % 16).toUInt8 = b := by
    rw [Nat.div_add_mod']
    exact UInt8.ofNat_toNat
  have hslash : (b == SLASH) = false := beq_eq_false_iff_ne.mpr hb
  rw [pctDecode]
  simp [isXDigit, hhi, hlo, hval, hslash, PERCENT]

theorem pctDecode_of_encodes {s t : Bytes} (h : PctEncodes s t) : pctDecode t = s := by
  induction h with
  | nil => rfl
  | slash _ ih => rw [pctDecode_cons_of_ne (by decide), ih]
  | byte hb hhi hlo _ ih => rw [pctDecode_escape hb hhi hlo, ih]

/-! ### Slashes -/

/-- A slash is no digit, so an escape does not reach over it. -/
theorem pctDecode_append_slash (s t : Bytes) :
    pctDecode (s ++ SLASH :: t) = pctDecode s ++ SLASH :: pctDecode t := by
  have hslash : isXDigit SLASH = false := by decide
  fun_induction pctDecode s with
  | case1 b hi lo rest hescape val hval ih =>
    rw [List.cons_append, List.cons_append, List.cons_append, pctDecode,
      if_pos hescape, if_pos hval]
    exact congrArg (b :: ·) ih
  | case2 b hi lo rest hescape val hval ih =>
    rw [List.cons_append, List.cons_append, List.cons_append, pctDecode,
      if_pos hescape, if_neg hval]
    exact congrArg (val :: ·) ih
  | case3 b hi lo rest hescape ih =>
    rw [List.cons_append, List.cons_append, List.cons_append, pctDecode, if_neg hescape]
    exact congrArg (b :: ·) ih
  | case4 b rest hshort ih =>
    rcases rest with - | ⟨hi, - | ⟨lo, rest⟩⟩
    · -- the slash stands where the first digit would
      cases t with
      | nil => rfl
      | cons lo t =>
        show pctDecode (b :: SLASH :: lo :: t) = _
        rw [pctDecode, hslash, Bool.and_false, Bool.false_and, if_neg Bool.false_ne_true,
          pctDecode_cons_of_ne (by decide)]
        rfl
    · -- or where the second would
      show pctDecode (b :: hi :: SLASH :: t) = _
      rw [pctDecode, hslash, Bool.and_false, if_neg Bool.false_ne_true]
      exact congrArg (b :: ·) ih
    · exact absurd rfl (hshort hi lo rest)
  | case5 => rw [List.nil_append, pctDecode_cons_of_ne (by decide)]; rfl

/-- No escape is decoded to a slash. -/
theorem slash_notMem_pctDecode {s : Bytes} (h : SLASH ∉ s) : SLASH ∉ pctDecode s := by
  fun_induction pctDecode s with
  | case1 b hi lo rest hescape val hval ih =>
    rw [List.mem_cons, not_or] at h ⊢
    exact ⟨h.1, ih h.2⟩
  | case2 b hi lo rest hescape val hval ih =>
    simp only [List.mem_cons, not_or] at h ⊢
    exact ⟨fun heq => hval (beq_iff_eq.mpr heq.symm), ih h.2.2.2⟩
  | case3 b hi lo rest hescape ih =>
    rw [List.mem_cons, not_or] at h ⊢
    exact ⟨h.1, ih h.2⟩
  | case4 b rest hshort ih =>
    rw [List.mem_cons, not_or] at h ⊢
    exact ⟨h.1, ih h.2⟩
  | case5 => exact h

/-- **What is encoded is decoded, and segments stay segments.** -/
theorem pctDecode_faithful : (∀ s t : Bytes, PctEncodes s t → pctDecode t = s) ∧
    ∀ t : Bytes, segments (pctDecode t) = (segments t).map pctDecode :=
  ⟨fun _ _ => pctDecode_of_encodes,
    segments_map pctDecode_append_slash fun _ => slash_notMem_pctDecode⟩

/-- A space and a slash, with digits in both cases. -/
theorem pctDecode_encoded : pctDecode (ascii "%7e/%4A%c3") = [126, SLASH, 74, 195] :=
  pctDecode_faithful.1 _ _ (.byte (by decide) (by decide) (by decide) (.slash (.byte (by decide)
    (by decide) (by decide) (.byte (by decide) (by decide) (by decide) .nil))))

end Webserv

import Mathlib.Data.Nat.Digits.Defs
import Mathlib.Data.Nat.Digits.Lemmas

/-!
# Byte strings

A `std::string` or a `char` array is a list of bytes.  This file has what the
C and C++ libraries do to single characters in the "C" locale and to numbers
when they are written in decimal or hexadecimal, and the reading of a hexadecimal
numeral that undoes the latter.
-/

/-- A string of bytes. -/
abbrev Bytes := List UInt8

namespace Bytes

instance : LawfulBEq Bytes := List.instLawfulBEq

/-- The bytes of an ASCII text. -/
def ascii (s : String) : Bytes := s.toByteArray.data.toList

theorem ascii_append (s t : String) : ascii (s ++ t) = ascii s ++ ascii t := by
  rw [ascii, String.toByteArray_append, ByteArray.data_append, Array.toList_append]
  rfl

theorem length_ascii (s : String) : (ascii s).length = s.utf8ByteSize := by
  rw [ascii, Array.length_toList]
  rfl

@[simp] theorem ascii_eq_nil {s : String} : ascii s = [] ↔ s = "" := by
  rw [← List.length_eq_zero_iff, length_ascii, String.utf8ByteSize_eq_zero_iff]

/-! ### Characters -/

/-- Carriage return. -/
def CR : UInt8 := 13

/-- Line feed. -/
def LF : UInt8 := 10

/-- Space. -/
def SP : UInt8 := 32

/-- Horizontal tab. -/
def HTAB : UInt8 := 9

/-- `/`. -/
def SLASH : UInt8 := 47

/-- `.`. -/
def DOT : UInt8 := 46

/-- `:`. -/
def COLON : UInt8 := 58

/-- `;`. -/
def SEMICOLON : UInt8 := 59

/-- The line end of HTTP. -/
def crlf : Bytes := [CR, LF]

/-- A line end and an empty line. -/
def crlfcrlf : Bytes := [CR, LF, CR, LF]

/-- A decimal digit. -/
def isDigit (b : UInt8) : Bool := 48 ≤ b && b ≤ 57

/-- An upper case letter. -/
def isUpper (b : UInt8) : Bool := 65 ≤ b && b ≤ 90

/-- A lower case letter. -/
def isLower (b : UInt8) : Bool := 97 ≤ b && b ≤ 122

/-- `std::tolower`. -/
def toLower (b : UInt8) : UInt8 := if isUpper b then b + 32 else b

/-- `std::toupper`. -/
def toUpper (b : UInt8) : UInt8 := if isLower b then b - 32 else b

/-- The value of a hexadecimal digit of either case. -/
def hexDigit? (b : UInt8) : Option ℕ :=
  if 48 ≤ b && b ≤ 57 then some (b.toNat - 48)
  else if 97 ≤ b && b ≤ 102 then some (b.toNat - 97 + 10)
  else if 65 ≤ b && b ≤ 70 then some (b.toNat - 65 + 10)
  else none

/-! ### Numerals -/

/-- The digit of a value below 16, in lower case. -/
def digitByte (d : ℕ) : UInt8 := if d < 10 then (48 + d).toUInt8 else (87 + d).toUInt8

/-- A number as `ostream` writes it in the given base. -/
def numeral (base n : ℕ) : Bytes :=
  if n = 0 then [digitByte 0] else ((Nat.digits base n).reverse).map digitByte

/-- `oss << n` for a non-negative `n`. -/
def decimal (n : ℕ) : Bytes := numeral 10 n

/-- `oss << n` for an `int`. -/
def decimalInt (n : ℤ) : Bytes := if n < 0 then 45 :: decimal n.natAbs else decimal n.natAbs

/-- `oss << std::hex << n`. -/
def hexadecimal (n : ℕ) : Bytes := numeral 16 n

/-- The number a string of hexadecimal digits denotes, most significant digit
first, from an accumulator. -/
def hexValueFrom (acc : ℕ) : Bytes → Option ℕ
  | [] => some acc
  | b :: bs =>
      match hexDigit? b with
      | none => none
      | some d => hexValueFrom (acc * 16 + d) bs

/-- The number a non-empty string of hexadecimal digits denotes. -/
def hexValue (bs : Bytes) : Option ℕ := if bs = [] then none else hexValueFrom 0 bs

theorem hexDigit?_digitByte {d : ℕ} (hd : d < 16) : hexDigit? (digitByte d) = some d := by
  revert d
  decide

theorem hexDigit?_lt {b : UInt8} {d : ℕ} (h : hexDigit? b = some d) : d < 16 := by
  have hall : ∀ n : Fin 256, ∀ d, hexDigit? (UInt8.ofNat n) = some d → d < 16 := by decide +kernel
  have hb : UInt8.ofNat b.toNat = b := UInt8.ofNat_toNat
  exact hall ⟨b.toNat, b.toNat_lt⟩ d (by simpa [hb] using h)

theorem hexValueFrom_append (acc : ℕ) (xs ys : Bytes) :
    hexValueFrom acc (xs ++ ys) = (hexValueFrom acc xs).bind fun n => hexValueFrom n ys := by
  induction xs generalizing acc with
  | nil => rfl
  | cons b xs ih =>
    simp only [List.cons_append, hexValueFrom]
    cases hexDigit? b with
    | none => rfl
    | some d => exact ih _

/-- Reading the digits of a number, most significant first, gives it back. -/
theorem hexValueFrom_digits : ∀ (ds : List ℕ), (∀ d ∈ ds, d < 16) →
    hexValueFrom 0 (ds.reverse.map digitByte) = some (Nat.ofDigits 16 ds) := by
  intro ds
  induction ds with
  | nil => intro _; rfl
  | cons d ds ih =>
    intro hds
    rw [List.reverse_cons, List.map_append, hexValueFrom_append,
      ih fun e he => hds e (List.mem_cons_of_mem _ he)]
    simp only [List.map_cons, List.map_nil, Option.bind_some, hexValueFrom,
      hexDigit?_digitByte (hds d List.mem_cons_self), Option.some.injEq, Nat.ofDigits_cons]
    ring

/-- More digits never make the value smaller. -/
theorem le_of_hexValueFrom : ∀ (bs : Bytes) {acc n : ℕ},
    hexValueFrom acc bs = some n → acc ≤ n := by
  intro bs
  induction bs with
  | nil =>
    intro acc n h
    rw [hexValueFrom, Option.some.injEq] at h
    exact Nat.le_of_eq h
  | cons b bs ih =>
    intro acc n h
    rw [hexValueFrom] at h
    cases hb : hexDigit? b with
    | none => rw [hb] at h; simp at h
    | some d =>
      rw [hb] at h
      have := ih h
      omega

theorem hexadecimal_ne_nil (n : ℕ) : hexadecimal n ≠ [] := by
  unfold hexadecimal numeral
  split
  · simp
  · next h => simpa [Nat.digits_ne_nil_iff_ne_zero] using h

/-- **Reading what was written in hexadecimal gives the number back.** -/
theorem hexValue_hexadecimal (n : ℕ) : hexValue (hexadecimal n) = some n := by
  rw [hexValue, if_neg (hexadecimal_ne_nil n)]
  unfold hexadecimal numeral
  split
  · next h => subst h; rfl
  · rw [hexValueFrom_digits _ fun d hd => Nat.digits_lt_base (by decide) hd,
      Nat.ofDigits_digits]

/-- Every character of a hexadecimal numeral is a hexadecimal digit. -/
theorem isSome_hexDigit?_of_hexValueFrom : ∀ (bs : Bytes) {acc n : ℕ},
    hexValueFrom acc bs = some n → ∀ b ∈ bs, (hexDigit? b).isSome := by
  intro bs
  induction bs with
  | nil => intro _ _ _ b hb; simp at hb
  | cons c bs ih =>
    intro acc n h b hb
    simp only [hexValueFrom] at h
    cases hc : hexDigit? c with
    | none => rw [hc] at h; simp at h
    | some d =>
      rw [hc] at h
      rcases List.mem_cons.mp hb with rfl | hb
      · simp [hc]
      · exact ih h b hb

theorem hexDigit?_CR : hexDigit? CR = none := by decide

theorem hexDigit?_SEMICOLON : hexDigit? SEMICOLON = none := by decide

/-! ### Decimal numerals -/

theorem digits_of_mem_numeral {n : ℕ} {b : UInt8} (h : b ∈ decimal n) :
    ∃ d < 10, b = digitByte d := by
  unfold decimal numeral at h
  split at h
  · exact ⟨0, by decide, List.mem_singleton.mp h⟩
  · obtain ⟨d, hd, rfl⟩ := List.mem_map.mp h
    exact ⟨d, Nat.digits_lt_base (by decide) (List.mem_reverse.mp hd), rfl⟩

/-- A decimal numeral has nothing but digits in it. -/
theorem notMem_decimal {b : UInt8} (hb : ∀ d < 10, b ≠ digitByte d) (n : ℕ) : b ∉ decimal n := by
  intro h
  obtain ⟨d, hd, heq⟩ := digits_of_mem_numeral h
  exact hb d hd heq

/-- The numeral of an integer may have a minus in it besides. -/
theorem notMem_decimalInt {b : UInt8} (hb : ∀ d < 10, b ≠ digitByte d) (hminus : b ≠ 45) (n : ℤ) :
    b ∉ decimalInt n := by
  unfold decimalInt
  split
  · rw [List.mem_cons, not_or]
    exact ⟨hminus, notMem_decimal hb _⟩
  · exact notMem_decimal hb _

/-- A decimal numeral has no line end in it. -/
theorem CR_notMem_decimal (n : ℕ) : CR ∉ decimal n := notMem_decimal (by decide) n

/-- Numbers are told apart by their numerals. -/
theorem decimal_injective {n m : ℕ} (h : decimal n = decimal m) : n = m := by
  have hdigits : ∀ k, (decimal k).map hexDigit? =
      (if k = 0 then [0] else (Nat.digits 10 k).reverse).map some := by
    intro k
    unfold decimal numeral
    split
    · rfl
    · rw [List.map_map]
      apply List.map_congr_left
      intro d hd
      have hlt := Nat.digits_lt_base (by decide : 1 < 10) (List.mem_reverse.mp hd)
      exact hexDigit?_digitByte (by omega)
  have hlists := (hdigits n).symm.trans ((congrArg (List.map hexDigit?) h).trans (hdigits m))
  have heq := List.map_injective_iff.mpr (Option.some_injective ℕ) hlists
  have hzero : ∀ k, k ≠ 0 → (Nat.digits 10 k).reverse ≠ [0] := by
    intro k hk hrev
    have hof := congrArg (Nat.ofDigits 10) (List.reverse_eq_iff.mp hrev)
    rw [Nat.ofDigits_digits] at hof
    exact hk (by simpa using hof)
  split at heq
  · next hn =>
    split at heq
    · next hm => exact hn.trans hm.symm
    · next hm => exact absurd heq.symm (hzero m hm)
  · next hn =>
    split at heq
    · exact absurd heq (hzero n hn)
    · exact Nat.digits_inj_iff.mp (List.reverse_injective heq)

end Bytes

import Mathlib.Tactic.IntervalCases
import Webserv.Lib.Gregorian
import Webserv.Lib.WhileLoop

/-!
# The clock of the log

The log stamps its lines with a date that `splitUtc` makes of the seconds since 1970: one loop
takes whole years off the days, another takes whole months.

## Main results

* `yearLoop_spec`, `monthLoop_spec` — what the loops leave.
* `splitUtc_spec` — **the date is that of the Gregorian calendar.**
-/

namespace Webserv

open Gregorian

/-- `INT_MAX`. -/
def intMax : ℕ := 2 ^ 31 - 1

/-- `isLeapYear`. -/
def isLeapYear (year : ℕ) : Bool :=
  if year % 400 = 0 then true
  else if year % 100 = 0 then false
  else year % 4 = 0

/-- One round of the loop over the years, on the year and the days; `none` is the overflow of the
year. -/
def yearRound (s : ℕ × ℕ) : ℕ × ℕ ⊕ Option (ℕ × ℕ) :=
  let diy := if isLeapYear s.1 then 366 else 365
  if diy ≤ s.2 then if s.1 = intMax then .inr none else .inl (s.1 + 1, s.2 - diy)
  else .inr (some s)

/-- The loop over the years. -/
def yearLoop (s : ℕ × ℕ) : Option (ℕ × ℕ) := WhileLoop.loop (·.2) yearRound (fun _ => none) s

/-- The days of the months of a common year. -/
def monthDays : List ℕ := [31, 28, 31, 30, 31, 30, 31, 31, 30, 31, 30, 31]

/-- One round of the loop over the months of a year, on the month and the days. -/
def monthRound (year : ℕ) (s : ℕ × ℕ) : ℕ × ℕ ⊕ ℕ × ℕ :=
  if s.1 < 12 then
    let dim := if s.1 = 1 ∧ isLeapYear year then 29 else monthDays.getD s.1 0
    if dim ≤ s.2 then .inl (s.1 + 1, s.2 - dim) else .inr s
  else .inr s

/-- The loop over the months. -/
def monthLoop (year : ℕ) (s : ℕ × ℕ) : ℕ × ℕ :=
  WhileLoop.loop (12 - ·.1) (monthRound year) id s

/-- What `splitUtc` writes to its arguments. -/
structure UtcFields where
  year : ℕ
  mon : ℕ
  mday : ℕ
  hour : ℕ
  min : ℕ
  sec : ℕ
  deriving DecidableEq, Repr

/-- `splitUtc`; `none` is the overflow of the year. -/
def splitUtc (t : ℤ) : Option UtcFields :=
  let seconds := if t < 0 then 0 else t.toNat
  let days := seconds / 86400
  let rem := seconds % 86400
  (yearLoop (1970, days)).map fun s =>
    let m := monthLoop s.1 (0, s.2)
    ⟨s.1, m.1, m.2 + 1, rem / 3600, rem % 3600 / 60, rem % 3600 % 60⟩

example : splitUtc 951868799 = some ⟨2000, 1, 29, 23, 59, 59⟩ := by decide +kernel

/-! ### The loops -/

theorem isLeapYear_iff (year : ℕ) : isLeapYear year = true ↔ IsLeap year := by
  unfold isLeapYear IsLeap
  split_ifs <;> simp <;> omega

theorem yearLength_eq (year : ℕ) : (if isLeapYear year then 366 else 365) = yearLength year := by
  simp only [yearLength, isLeapYear_iff]

theorem monthLength_eq {mon : ℕ} (hmon : mon < 12) (year : ℕ) :
    (if mon = 1 ∧ isLeapYear year then 29 else monthDays.getD mon 0) = monthLength year mon := by
  simp only [isLeapYear_iff]
  unfold monthLength
  by_cases hleap : IsLeap year
  · interval_cases mon <;> simp [monthDays, hleap]
  · interval_cases mon <;> simp [monthDays, hleap]

theorem yearRound_eq (s : ℕ × ℕ) : yearRound s =
    if yearLength s.1 ≤ s.2 then
      if s.1 = intMax then .inr none else .inl (s.1 + 1, s.2 - yearLength s.1)
    else .inr (some s) := by
  rw [← yearLength_eq]
  rfl

theorem yearRound_decreasing : WhileLoop.Decreasing (·.2) yearRound := by
  intro s s' h
  have hlength := le_yearLength s.1
  rw [yearRound_eq] at h
  split_ifs at h
  cases h
  dsimp only
  omega

theorem monthRound_eq {s : ℕ × ℕ} (hmon : s.1 < 12) (year : ℕ) : monthRound year s =
    if monthLength year s.1 ≤ s.2 then .inl (s.1 + 1, s.2 - monthLength year s.1) else .inr s := by
  rw [← monthLength_eq hmon, monthRound, if_pos hmon]

theorem monthRound_decreasing (year : ℕ) :
    WhileLoop.Decreasing (12 - ·.1) (monthRound year) := by
  intro s s' h
  by_cases hmon : s.1 < 12
  · rw [monthRound_eq hmon] at h
    split_ifs at h
    cases h
    dsimp only
    omega
  · rw [monthRound, if_neg hmon] at h
    cases h

/-- **What the loop over the years leaves**: a year, and a day in it, with the same number; there
is none where the day is behind the last year of an `int`. -/
theorem yearLoop_spec : ∀ s : ℕ × ℕ, s.1 ≤ intMax →
    (∀ t, yearLoop s = some t → t.1 ≤ intMax ∧ t.2 < yearLength t.1 ∧
      laid yearLength t.1 + t.2 = laid yearLength s.1 + s.2) ∧
    (yearLoop s = none → laid yearLength (intMax + 1) ≤ laid yearLength s.1 + s.2) := by
  refine WhileLoop.loop_induction (P := fun s r => s.1 ≤ intMax →
    (∀ t, r = some t → t.1 ≤ intMax ∧ t.2 < yearLength t.1 ∧
      laid yearLength t.1 + t.2 = laid yearLength s.1 + s.2) ∧
    (r = none → laid yearLength (intMax + 1) ≤ laid yearLength s.1 + s.2))
    yearRound_decreasing ?_ ?_
  · rintro ⟨year, days⟩ r hround hyear
    rw [yearRound_eq] at hround
    dsimp only at hround hyear ⊢
    split_ifs at hround with hdays hmax
    · cases hround
      constructor
      · intro t ht
        cases ht
      · intro _
        rw [laid_succ, ← hmax]
        omega
    · cases hround
      constructor
      · intro t ht
        cases ht
        exact ⟨hyear, Nat.lt_of_not_le hdays, rfl⟩
      · intro ht
        cases ht
  · rintro ⟨year, days⟩ s' hround ih hyear
    rw [yearRound_eq] at hround
    dsimp only at hround hyear ⊢
    split_ifs at hround with hdays hmax
    cases hround
    have hsum : laid yearLength (year + 1) + (days - yearLength year) =
        laid yearLength year + days := by
      rw [laid_succ]
      omega
    have hrest := ih (by dsimp only; omega)
    dsimp only at hrest
    rwa [hsum] at hrest

/-- **What the loop over the months leaves** of a day that is in the year. -/
theorem monthLoop_spec (year : ℕ) : ∀ s : ℕ × ℕ,
    laid (monthLength year) s.1 + s.2 < laid (monthLength year) 12 →
      (monthLoop year s).1 < 12 ∧ (monthLoop year s).2 < monthLength year (monthLoop year s).1 ∧
        laid (monthLength year) (monthLoop year s).1 + (monthLoop year s).2 =
          laid (monthLength year) s.1 + s.2 := by
  refine WhileLoop.loop_induction (P := fun s t =>
    laid (monthLength year) s.1 + s.2 < laid (monthLength year) 12 →
      t.1 < 12 ∧ t.2 < monthLength year t.1 ∧
        laid (monthLength year) t.1 + t.2 = laid (monthLength year) s.1 + s.2)
    (monthRound_decreasing year) ?_ ?_
  · rintro ⟨mon, days⟩ t hround hyear
    dsimp only at hyear ⊢
    have hmon : mon < 12 := by
      -- there is no day behind the last month
      by_contra hmon
      have hle := laid_mono (monthLength year) (Nat.le_of_not_lt hmon)
      omega
    rw [monthRound_eq hmon] at hround
    dsimp only at hround
    split_ifs at hround with hdays
    cases hround
    exact ⟨hmon, Nat.lt_of_not_le hdays, rfl⟩
  · rintro ⟨mon, days⟩ s' hround ih hyear
    dsimp only at hyear ⊢
    have hmon : mon < 12 := by
      by_contra hmon
      rw [monthRound, if_neg hmon] at hround
      cases hround
    rw [monthRound_eq hmon] at hround
    dsimp only at hround
    split_ifs at hround with hdays
    cases hround
    have hsum : laid (monthLength year) (mon + 1) + (days - monthLength year mon) =
        laid (monthLength year) mon + days := by
      rw [laid_succ]
      omega
    dsimp only at ih
    rw [hsum] at ih
    exact ih hyear

/-! ### The date -/

/-- The date that the fields stand for. -/
def UtcFields.date (f : UtcFields) : DateTime := ⟨f.year, f.mon, f.mday - 1, f.hour, f.min, f.sec⟩

/-- **The date is that of the Gregorian calendar**: for every second from 1970 to the end of the
last year of an `int`. -/
theorem splitUtc_spec {t : ℤ} (hpos : 0 ≤ t)
    (hyear : t < secondsBetween (newYear 1970) (newYear (intMax + 1))) :
    ∃ f, splitUtc t = some f ∧ f.year ≤ intMax ∧ f.mon < 12 ∧ 1 ≤ f.mday ∧
      f.mday ≤ monthLength f.year f.mon ∧ f.hour < 24 ∧ f.min < 60 ∧ f.sec < 60 ∧
        secondsBetween (newYear 1970) f.date = t := by
  obtain ⟨seconds, rfl⟩ := Int.eq_ofNat_of_zero_le hpos
  have hclamp : (if (seconds : ℤ) < 0 then 0 else (seconds : ℤ).toNat) = seconds := by
    rw [if_neg (Int.not_lt.mpr hpos), Int.toNat_natCast]
  obtain ⟨hsome, hnone⟩ := yearLoop_spec (1970, seconds / 86400)
    (by decide : 1970 ≤ intMax)
  have hfits : laid yearLength 1970 + seconds / 86400 < laid yearLength (intMax + 1) := by
    rw [secondsBetween, seconds_newYear, seconds_newYear] at hyear
    omega
  cases hloop : yearLoop (1970, seconds / 86400) with
  | none => exact absurd (hnone hloop) (Nat.not_le.mpr hfits)
  | some s =>
    obtain ⟨hint, hin, hyears⟩ := hsome s hloop
    have hzero : laid (monthLength s.1) 0 = 0 := rfl
    obtain ⟨hmon, hday, hmonths⟩ := monthLoop_spec s.1 (0, s.2) (by
      rw [sum_monthLength, hzero]
      dsimp only
      omega)
    dsimp only at hyears hmonths
    rw [hzero] at hmonths
    refine ⟨⟨s.1, (monthLoop s.1 (0, s.2)).1, (monthLoop s.1 (0, s.2)).2 + 1,
      seconds % 86400 / 3600, seconds % 86400 % 3600 / 60, seconds % 86400 % 3600 % 60⟩,
      by rw [splitUtc, hclamp, hloop]; rfl, hint, hmon, Nat.le_add_left _ _, hday, ?_⟩
    rw [secondsBetween, seconds_newYear]
    simp only [UtcFields.date, DateTime.seconds, DateTime.dayNumber, Nat.add_sub_cancel]
    omega

/-- The last second of a leap day. -/
theorem splitUtc_leap : ∃ f, splitUtc 951868799 = some f ∧ f.year ≤ intMax ∧ f.mon < 12 ∧
    1 ≤ f.mday ∧ f.mday ≤ monthLength f.year f.mon ∧ f.hour < 24 ∧ f.min < 60 ∧ f.sec < 60 ∧
      secondsBetween (newYear 1970) f.date = 951868799 := by
  refine splitUtc_spec (by decide) ?_
  have hstart : laid yearLength 1970 = 719528 := by decide +kernel
  have hend := le_laid le_yearLength (intMax + 1)
  rw [secondsBetween, seconds_newYear, seconds_newYear, hstart]
  have hmax : intMax + 1 = 2147483648 := rfl
  omega

end Webserv

import Mathlib.Algebra.BigOperators.Intervals
import Mathlib.Tactic.NormNum

/-!
# The Gregorian calendar

The proleptic calendar from the year zero on.  Years, months and days of a month are laid end to
end; months and the days of a month are counted from zero.

## Main results

* `laid_succ` — what one length adds to those laid end to end.
* `sum_monthLength` — the months of a year make up the year.
-/

namespace Gregorian

/-- Where the `n`th of some lengths begins, laid end to end from zero. -/
def laid (length : ℕ → ℕ) (n : ℕ) : ℕ := ∑ k ∈ Finset.range n, length k

theorem laid_succ (length : ℕ → ℕ) (n : ℕ) : laid length (n + 1) = laid length n + length n :=
  Finset.sum_range_succ length n

theorem laid_mono (length : ℕ → ℕ) : Monotone (laid length) :=
  monotone_nat_of_le_succ fun n => by rw [laid_succ]; exact Nat.le_add_right _ _

/-- Lengths that are bounded from below. -/
theorem le_laid {length : ℕ → ℕ} {least : ℕ} (h : ∀ n, least ≤ length n) (n : ℕ) :
    least * n ≤ laid length n := by
  induction n with
  | zero => exact Nat.zero_le _
  | succ n ih =>
    rw [laid_succ, Nat.mul_succ]
    exact Nat.add_le_add ih (h n)

/-- Every fourth year, but of the centuries only every fourth. -/
def IsLeap (year : ℕ) : Prop := 4 ∣ year ∧ (100 ∣ year → 400 ∣ year)

instance (year : ℕ) : Decidable (IsLeap year) := inferInstanceAs (Decidable (_ ∧ (_ → _)))

/-- The days of a year. -/
def yearLength (year : ℕ) : ℕ := if IsLeap year then 366 else 365

/-- The days of a month: thirty in April, June, September and November. -/
def monthLength (year mon : ℕ) : ℕ :=
  if mon = 1 then if IsLeap year then 29 else 28
  else if mon = 3 ∨ mon = 5 ∨ mon = 8 ∨ mon = 10 then 30
  else 31

/-- The months of a year make up the year. -/
theorem sum_monthLength (year : ℕ) : laid (monthLength year) 12 = yearLength year := by
  by_cases h : IsLeap year <;>
    simp [laid, Finset.sum_range_succ, monthLength, yearLength, h]

theorem le_yearLength (year : ℕ) : 365 ≤ yearLength year := by
  unfold yearLength
  split <;> omega

/-- A day and a time of day. -/
structure DateTime where
  year : ℕ
  mon : ℕ
  day : ℕ
  hour : ℕ
  min : ℕ
  sec : ℕ
  deriving DecidableEq, Repr

/-- A day that is in its month, and a time that is in its day. -/
structure DateTime.Valid (d : DateTime) : Prop where
  mon : d.mon < 12
  day : d.day < monthLength d.year d.mon
  hour : d.hour < 24
  min : d.min < 60
  sec : d.sec < 60

/-- The number of the day, from the first of the year zero. -/
def DateTime.dayNumber (d : DateTime) : ℕ :=
  laid yearLength d.year + laid (monthLength d.year) d.mon + d.day

/-- The number of the second, from the first of the year zero. -/
def DateTime.seconds (d : DateTime) : ℕ :=
  d.dayNumber * 86400 + d.hour * 3600 + d.min * 60 + d.sec

/-- The first second of a year. -/
def newYear (year : ℕ) : DateTime := ⟨year, 0, 0, 0, 0, 0⟩

theorem seconds_newYear (year : ℕ) : (newYear year).seconds = laid yearLength year * 86400 := by
  simp [newYear, DateTime.seconds, DateTime.dayNumber, laid]

/-- The seconds from one date to another. -/
def secondsBetween (d d' : DateTime) : ℤ := (d'.seconds : ℤ) - d.seconds

example : (newYear 5).dayNumber = 1827 := by decide

end Gregorian

/-
# Days and months

A timestamp is a month, a day of it and a time of that day, ordered in this
order of weight.  Its day and its month are prefixes, so both grow with it, and
whatever lies between two timestamps of one day or month belongs to that day or
month.  Days that are only numbered, from 1 January of the year 1, have the years
of the Gregorian calendar.
-/

import Mathlib.Data.Prod.Lex

namespace Finify.Foundations

abbrev Month := ℤ ×ₗ ℤ

abbrev Day := Month ×ₗ ℤ

abbrev Stamp := Day ×ₗ ℤ

/-- The date of a timestamp. -/
def Stamp.day (stamp : Stamp) : Day := (ofLex stamp).1

def Stamp.month (stamp : Stamp) : Month := (ofLex stamp.day).1

/-- Build a timestamp. -/
def Stamp.of (year month day time : ℤ) : Stamp :=
  toLex (toLex (toLex (year, month), day), time)

/-- The periods that rolling totals are kept for. -/
inductive Period
  | daily
  | monthly
  deriving DecidableEq, Repr

namespace Period

/-- Two timestamps of the same day, or of the same month. -/
def Same : Period → Stamp → Stamp → Prop
  | daily, first, second => first.day = second.day
  | monthly, first, second => first.month = second.month

instance (period : Period) (first second : Stamp) : Decidable (period.Same first second) :=
  match period with
  | daily => inferInstanceAs (Decidable (first.day = second.day))
  | monthly => inferInstanceAs (Decidable (first.month = second.month))

variable {period : Period} {first second third : Stamp}

theorem Same.refl (period : Period) (stamp : Stamp) : period.Same stamp stamp := by
  cases period <;> rfl

theorem Same.symm (hsame : period.Same first second) : period.Same second first := by
  cases period <;> exact Eq.symm hsame

theorem Same.trans (hfirst : period.Same first second) (hsecond : period.Same second third) :
    period.Same first third := by
  cases period <;> exact Eq.trans hfirst hsecond

/-- A day between two days of one period is of that period. -/
theorem Same.of_days_between (hsame : period.Same first third) (hfirst : first.day ≤ second.day)
    (hsecond : second.day ≤ third.day) : period.Same second third := by
  cases period with
  | daily => exact le_antisymm hsecond ((Eq.ge hsame).trans hfirst)
  | monthly =>
    have hmonth : first.month ≤ second.month := Prod.Lex.monotone_fst _ _ hfirst
    exact le_antisymm (Prod.Lex.monotone_fst _ _ hsecond) ((Eq.ge hsame).trans hmonth)

/-- Timestamps of one day or month are of one month. -/
theorem Same.monthly (hsame : period.Same first second) : monthly.Same first second := by
  cases period with
  | daily => exact congrArg (fun day : Day => (ofLex day).1) hsame
  | monthly => exact hsame

/-- One day is part of one month. -/
theorem same_of_day (period : Period) (hday : first.day = second.day) :
    period.Same first second := by
  cases period with
  | daily => exact hday
  | monthly => exact congrArg (fun day : Day => (ofLex day).1) hday

end Period

/-! ## Numbered days -/

/-- The number of the first day of a year. -/
def yearStart (year : ℤ) : ℤ :=
  365 * (year - 1) + (year - 1) / 4 - (year - 1) / 100 + (year - 1) / 400

/-- The year of a numbered day: the one that its share of 400 years gives, or the one before
or after. -/
def yearOf (day : ℤ) : ℤ :=
  let guess := day * 400 / 146097 + 1
  if day < yearStart guess then guess - 1
  else if yearStart (guess + 1) ≤ day then guess + 1
  else guess

/-- A day lies between the first day of its year and that of the next. -/
theorem yearOf_spec (day : ℤ) :
    yearStart (yearOf day) ≤ day ∧ day < yearStart (yearOf day + 1) := by
  simp only [yearOf]
  split
  · simp only [yearStart] at *
    omega
  · split
    · simp only [yearStart] at *
      omega
    · simp only [yearStart] at *
      omega

/-- The first day of the year 2026 is in it, and the day before is not. -/
example : yearOf 739616 = 2026 ∧ yearOf 739615 = 2025 := by decide

end Finify.Foundations

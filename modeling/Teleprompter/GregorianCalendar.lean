import Mathlib.Algebra.BigOperators.Intervals
import Mathlib.Algebra.Order.Ring.Int
import Mathlib.Order.SuccPred.IntervalSucc
import Mathlib.Data.Int.SuccPred
import Mathlib.Data.Nat.SuccPred
import Mathlib.Tactic.IntervalCases

/-!
# The Gregorian calendar

Dates of the calendar that is continued into the past by its own rule, and
their day numbers: a leap year is one that four divides, but a hundred only
together with four hundred. Days are counted from the first of January of any
year, by the lengths of the years and months between. The count has a closed
form in the years, it determines the date, and the next day has the next
number.
-/

namespace Teleprompter.GregorianCalendar

section Lengths

/-- The rule of the leap years. -/
def IsLeap (year : ℤ) : Prop := year % 4 = 0 ∧ (year % 100 = 0 → year % 400 = 0)

instance (year : ℤ) : Decidable (IsLeap year) := inferInstanceAs (Decidable (_ ∧ _))

/-- The days of a year. -/
def yearLength (year : ℤ) : ℕ := if IsLeap year then 366 else 365

/-- The days of a month, counted from one. -/
def monthLength (year : ℤ) (month : ℕ) : ℕ :=
  if month = 2 then if IsLeap year then 29 else 28
  else if month = 4 ∨ month = 6 ∨ month = 9 ∨ month = 11 then 30
  else 31

/-- The days of the months in front of a month. -/
def daysBeforeMonth (year : ℤ) (month : ℕ) : ℕ :=
  ∑ k ∈ Finset.range (month - 1), monthLength year (k + 1)

/-- The days from the beginning of one year to that of another one, negative
when the other one is earlier. -/
def daysBetween (origin year : ℤ) : ℤ :=
  (∑ k ∈ Finset.range (year - origin).toNat, (yearLength (origin + k) : ℤ)) -
    ∑ k ∈ Finset.range (origin - year).toNat, (yearLength (year + k) : ℤ)

theorem monthLength_pos (year : ℤ) (month : ℕ) : 0 < monthLength year month := by
  rw [monthLength]
  split
  · split <;> omega
  · split <;> omega

theorem daysBeforeMonth_one (year : ℤ) : daysBeforeMonth year 1 = 0 := rfl

theorem daysBeforeMonth_succ (year : ℤ) {month : ℕ} (h : 1 ≤ month) :
    daysBeforeMonth year (month + 1) = daysBeforeMonth year month + monthLength year month := by
  have hmore : month + 1 - 1 = month - 1 + 1 := by omega
  rw [daysBeforeMonth, daysBeforeMonth, hmore, Finset.sum_range_succ, Nat.sub_add_cancel h]

theorem monthLength_january (year : ℤ) : monthLength year 1 = 31 := rfl

theorem monthLength_february (year : ℤ) :
    monthLength year 2 = if IsLeap year then 29 else 28 := rfl

theorem daysBeforeMonth_two (year : ℤ) : daysBeforeMonth year 2 = 31 := by
  rw [daysBeforeMonth_succ year (Nat.le_refl 1), daysBeforeMonth_one, monthLength_january]

theorem daysBeforeMonth_le_succ (year : ℤ) (month : ℕ) :
    daysBeforeMonth year month ≤ daysBeforeMonth year (month + 1) := by
  cases month with
  | zero => rfl
  | succ month =>
    rw [daysBeforeMonth_succ year (Nat.succ_pos month)]
    exact Nat.le_add_right _ _

/-- The months fill the year. -/
theorem daysBeforeMonth_thirteen (year : ℤ) : daysBeforeMonth year 13 = yearLength year := by
  rw [yearLength]
  by_cases h : IsLeap year
  · simp [daysBeforeMonth, Finset.sum_range_succ, monthLength, h]
  · simp [daysBeforeMonth, Finset.sum_range_succ, monthLength, h]

end Lengths

section Years

theorem daysBetween_self (origin : ℤ) : daysBetween origin origin = 0 := by
  rw [daysBetween, sub_self]

/-- A year later is a year's length later. -/
theorem daysBetween_succ (origin year : ℤ) :
    daysBetween origin (year + 1) = daysBetween origin year + yearLength year := by
  by_cases hle : origin ≤ year
  · have hmore : (year + 1 - origin).toNat = (year - origin).toNat + 1 := by omega
    have hnone : (origin - year).toNat = 0 := by omega
    have hnone' : (origin - (year + 1)).toNat = 0 := by omega
    have hlast : origin + ((year - origin).toNat : ℤ) = year := by omega
    rw [daysBetween, daysBetween, hmore, hnone, hnone', Finset.sum_range_succ, hlast,
      Finset.sum_range_zero, Finset.sum_range_zero, sub_zero, sub_zero]
  · have hnone : (year - origin).toNat = 0 := by omega
    have hnone' : (year + 1 - origin).toNat = 0 := by omega
    have hmore : (origin - year).toNat = (origin - (year + 1)).toNat + 1 := by omega
    have hfirst : year + ((0 : ℕ) : ℤ) = year := by omega
    have hshift : ∀ k : ℕ, year + ((k + 1 : ℕ) : ℤ) = year + 1 + k := by omega
    rw [daysBetween, daysBetween, hmore, hnone, hnone', Finset.sum_range_succ', hfirst]
    simp only [hshift]
    omega

/-- The leap years up to a year, counted from the year zero. -/
def leapYears (year : ℤ) : ℤ := year / 4 - year / 100 + year / 400

theorem leapYears_succ (year : ℤ) :
    leapYears (year + 1) = leapYears year + (yearLength (year + 1) - 365) := by
  rw [leapYears, leapYears, yearLength]
  split
  · rename_i h
    rw [IsLeap] at h
    omega
  · rename_i h
    rw [IsLeap] at h
    omega

/-- The days between two years in closed form. -/
theorem daysBetween_eq (origin year : ℤ) :
    daysBetween origin year =
      365 * (year - origin) + (leapYears (year - 1) - leapYears (origin - 1)) := by
  have hstep : ∀ y, daysBetween origin y - (365 * (y - origin) + leapYears (y - 1)) =
      daysBetween origin (y + 1) - (365 * (y + 1 - origin) + leapYears (y + 1 - 1)) := by
    intro y
    have hleap := leapYears_succ (y - 1)
    rw [sub_add_cancel] at hleap
    rw [daysBetween_succ, add_sub_cancel_right, hleap]
    omega
  have hall : daysBetween origin year - (365 * (year - origin) + leapYears (year - 1)) =
      -leapYears (origin - 1) := by
    induction year using Int.inductionOn' (b := origin) with
    | zero =>
      rw [daysBetween_self]
      omega
    | succ y _ ih => rw [← hstep, ih]
    | pred y _ ih =>
      have hprevious := hstep (y - 1)
      rw [sub_add_cancel] at hprevious
      rw [hprevious, ih]
  omega

theorem daysBetween_le_succ (origin year : ℤ) :
    daysBetween origin year ≤ daysBetween origin (year + 1) := by
  rw [daysBetween_succ]
  omega

end Years

section Dates

/-- A date: a year, a month of it and a day of that month. -/
@[ext]
structure Date where
  /-- The year; the one before year one is zero. -/
  year : ℤ
  /-- The month, from one. -/
  month : ℕ
  /-- The day of the month, from one. -/
  day : ℕ
  /-- There is no month zero. -/
  one_le_month : 1 ≤ month
  /-- There are twelve months. -/
  month_le : month ≤ 12
  /-- There is no day zero. -/
  one_le_day : 1 ≤ day
  /-- The month has the day. -/
  day_le : day ≤ monthLength year month
  deriving DecidableEq

/-- The number of the day in its year, from zero. -/
def Date.dayOfYear (date : Date) : ℕ := daysBeforeMonth date.year date.month + (date.day - 1)

/-- The number of the day, counted from the first day of a year. -/
def Date.dayNumber (origin : ℤ) (date : Date) : ℤ := daysBetween origin date.year + date.dayOfYear

/-- In a sequence of stretches a place lies in one of them. -/
theorem eq_of_mem_stretch {α β : Type*} [LinearOrder α] [SuccOrder α] [Preorder β] {f : α → β}
    (hf : Monotone f) {a b : α} {x : β} (ha : f a ≤ x ∧ x < f (Order.succ a))
    (hb : f b ≤ x ∧ x < f (Order.succ b)) : a = b := by
  by_contra hne
  exact Set.disjoint_left.mp (hf.pairwise_disjoint_on_Ico_succ hne) ha hb

theorem Date.mem_month (date : Date) :
    daysBeforeMonth date.year date.month ≤ date.dayOfYear ∧
      date.dayOfYear < daysBeforeMonth date.year (date.month + 1) := by
  have hday := date.one_le_day
  have hlast := date.day_le
  rw [daysBeforeMonth_succ _ date.one_le_month, Date.dayOfYear]
  omega

theorem Date.dayOfYear_lt (date : Date) : date.dayOfYear < yearLength date.year := by
  have hmonth := date.month_le
  have hle := monotone_nat_of_le_succ (daysBeforeMonth_le_succ date.year)
    (by omega : date.month + 1 ≤ 13)
  rw [← daysBeforeMonth_thirteen]
  exact lt_of_lt_of_le date.mem_month.2 hle

theorem Date.mem_year (origin : ℤ) (date : Date) :
    daysBetween origin date.year ≤ date.dayNumber origin ∧
      date.dayNumber origin < daysBetween origin (date.year + 1) := by
  have hday := date.dayOfYear_lt
  rw [daysBetween_succ, Date.dayNumber]
  omega

/-- The number of a day determines its date. -/
theorem dayNumber_injective (origin : ℤ) {date other : Date}
    (h : date.dayNumber origin = other.dayNumber origin) : date = other := by
  have hyear : date.year = other.year := by
    have hdate := date.mem_year origin
    rw [h] at hdate
    exact eq_of_mem_stretch (monotone_int_of_le_succ (daysBetween_le_succ origin)) hdate
      (other.mem_year origin)
  have hdays : date.dayOfYear = other.dayOfYear := by
    rw [Date.dayNumber, Date.dayNumber, hyear] at h
    omega
  have hmonth : date.month = other.month := by
    have hdate := date.mem_month
    rw [hdays, hyear] at hdate
    exact eq_of_mem_stretch (monotone_nat_of_le_succ (daysBeforeMonth_le_succ other.year)) hdate
      other.mem_month
  have hday : date.day = other.day := by
    have hone := date.one_le_day
    have hother := other.one_le_day
    rw [Date.dayOfYear, Date.dayOfYear, hyear, hmonth] at hdays
    omega
  exact Date.ext hyear hmonth hday

theorem exists_date (origin year : ℤ) {month day : ℕ} (hmonth : month < 12)
    (hday : day < monthLength year (month + 1)) :
    ∃ date : Date, (date.year = year ∧ date.month = month + 1 ∧ date.day = day + 1) ∧
      date.dayNumber origin =
        daysBetween origin year + (daysBeforeMonth year (month + 1) + day : ℕ) :=
  ⟨⟨year, month + 1, day + 1, by omega, by omega, by omega, hday⟩, ⟨rfl, rfl, rfl⟩, rfl⟩

/-- The date of the following day. -/
def Date.next (date : Date) : Date :=
  if hday : date.day + 1 ≤ monthLength date.year date.month then
    { date with
      day := date.day + 1
      one_le_day := by omega
      day_le := hday }
  else if hmonth : date.month + 1 ≤ 12 then
    { year := date.year
      month := date.month + 1
      day := 1
      one_le_month := by omega
      month_le := hmonth
      one_le_day := Nat.le_refl 1
      day_le := monthLength_pos _ _ }
  else
    { year := date.year + 1
      month := 1
      day := 1
      one_le_month := Nat.le_refl 1
      month_le := by decide
      one_le_day := Nat.le_refl 1
      day_le := monthLength_pos _ _ }

/-- The following day has the following number. -/
theorem dayNumber_next (origin : ℤ) (date : Date) :
    date.next.dayNumber origin = date.dayNumber origin + 1 := by
  have hone := date.one_le_day
  have hlast := date.day_le
  rw [Date.next]
  split
  · rw [Date.dayNumber, Date.dayNumber, Date.dayOfYear, Date.dayOfYear]
    dsimp only
    omega
  · rename_i hday
    split
    · rw [Date.dayNumber, Date.dayNumber, Date.dayOfYear, Date.dayOfYear]
      dsimp only
      rw [daysBeforeMonth_succ _ date.one_le_month]
      omega
    · rename_i hmonth
      have hmonths := daysBeforeMonth_thirteen date.year
      have htwelve : date.month = 12 := by
        have hle := date.month_le
        omega
      rw [htwelve] at hlast hday
      rw [daysBeforeMonth_succ _ (by decide)] at hmonths
      rw [Date.dayNumber, Date.dayNumber, Date.dayOfYear, Date.dayOfYear, htwelve]
      dsimp only
      rw [daysBetween_succ, daysBeforeMonth_one, ← hmonths]
      omega

end Dates

section March

/-- The days from the first of March to the beginning of a month, the months
counted from March. -/
def marchDays (month : ℕ) : ℕ := (153 * month + 2) / 5

/-- From March on the lengths of the months do not depend on the year. -/
theorem monthLength_march (year : ℤ) {month : ℕ} (h : month ≤ 9) :
    marchDays month + monthLength year (month + 3) = marchDays (month + 1) := by
  interval_cases month <;> rfl

theorem daysBeforeMonth_march (year : ℤ) {month : ℕ} (h : month ≤ 10) :
    daysBeforeMonth year (month + 3) = daysBeforeMonth year 3 + marchDays month := by
  induction month with
  | zero => rfl
  | succ month ih =>
    have hlength := monthLength_march year (by omega : month ≤ 9)
    rw [Nat.add_right_comm, daysBeforeMonth_succ _ (by omega), ih (by omega)]
    omega

/-- The first of March is 306 days before the next year. -/
theorem daysBetween_march (origin year : ℤ) :
    daysBetween origin (year + 1) = daysBetween origin year + daysBeforeMonth year 3 + 306 := by
  have hmonths := daysBeforeMonth_march year (Nat.le_refl 10)
  have hlast : marchDays 10 = 306 := rfl
  rw [hlast, daysBeforeMonth_thirteen] at hmonths
  rw [daysBetween_succ, hmonths]
  omega

/-- A day from March to December. -/
theorem exists_date_march (origin year : ℤ) {month day : ℕ} (hmonth : month ≤ 9)
    (hday : marchDays month + day < marchDays (month + 1)) :
    ∃ date : Date, date.year = year ∧ date.month = month + 3 ∧ date.day = day + 1 ∧
      date.dayNumber origin = daysBetween origin (year + 1) - 306 + (marchDays month + day) := by
  have hlength : marchDays month + monthLength year (month + 2 + 1) = marchDays (month + 1) :=
    monthLength_march year hmonth
  have hbefore : daysBeforeMonth year (month + 2 + 1) = daysBeforeMonth year 3 + marchDays month :=
    daysBeforeMonth_march year (by omega)
  have hyear := daysBetween_march origin year
  obtain ⟨date, hfields, hnumber⟩ := exists_date origin year
    (by omega : month + 2 < 12) (by omega : day < monthLength year (month + 2 + 1))
  refine ⟨date, hfields.1, hfields.2.1, hfields.2.2, ?_⟩
  rw [hnumber]
  omega

end March

end Teleprompter.GregorianCalendar

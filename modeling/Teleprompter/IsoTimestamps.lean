import Teleprompter.GregorianCalendar

/-!
# Timestamps of an export

The exporter writes a timestamp in milliseconds as a date and a time of day.
Every arithmetic operation is checked against the range of its type: there is
no text when one of them leaves it. No timestamp makes that happen, and the
date is the one of the Gregorian calendar.
-/

namespace Teleprompter.IsoTimestamps

open GregorianCalendar

section Model

/-- The result of a signed operation, if it fits. -/
def checkedI64 (n : ℤ) : Option ℤ :=
  if -9223372036854775808 ≤ n ∧ n ≤ 9223372036854775807 then some n else none

/-- The result of an unsigned operation, if it fits. -/
def checkedU64 (n : ℤ) : Option ℕ :=
  if 0 ≤ n ∧ n ≤ 18446744073709551615 then some n.toNat else none

/-- The cast of a signed integer to an unsigned one. -/
def asU64 (n : ℤ) : ℕ := (n % 18446744073709551616).toNat

/-- The cast of an unsigned integer to a signed one. -/
def asI64 (n : ℕ) : ℤ := if n < 9223372036854775808 then n else n - 18446744073709551616

/-- The cast of an unsigned integer to half its width. -/
def asU32 (n : ℕ) : ℕ := n % 4294967296

/-- The year, the month and the day of a number of days since the epoch.
Divisions of signed integers cut off; they cannot overflow, for the divisors
are positive. -/
def civilFromDays (z : ℤ) : Option (ℤ × ℕ × ℕ) := do
  let z ← checkedI64 (z + 719468)
  let shifted ← (if 0 ≤ z then some z else checkedI64 (z - 146096))
  let era := shifted.tdiv 146097
  let eraDays ← checkedI64 (era * 146097)
  let doe := asU64 (← checkedI64 (z - eraDays))
  let withoutLeaps ← checkedU64 (doe - (doe / 1460 : ℕ))
  let withCenturies ← checkedU64 (withoutLeaps + (doe / 36524 : ℕ))
  let yearDays ← checkedU64 (withCenturies - (doe / 146096 : ℕ))
  let yoe := yearDays / 365
  let eraYears ← checkedI64 (era * 400)
  let y ← checkedI64 (asI64 yoe + eraYears)
  let commonDays ← checkedU64 (365 * yoe)
  let julianDays ← checkedU64 (commonDays + (yoe / 4 : ℕ))
  let doyStart ← checkedU64 (julianDays - (yoe / 100 : ℕ))
  let doy ← checkedU64 (doe - doyStart)
  let scaled ← checkedU64 (5 * doy)
  let mp := (← checkedU64 (scaled + 2)) / 153
  let monthScaled ← checkedU64 (153 * mp)
  let monthStart ← checkedU64 (monthScaled + 2)
  let dayIndex ← checkedU64 (doy - (monthStart / 5 : ℕ))
  let d := asU32 (← checkedU64 (dayIndex + 1))
  let m := asU32 (← (if mp < 10 then checkedU64 (mp + 3) else checkedU64 (mp - 9)))
  let year ← (if m ≤ 2 then checkedI64 (y + 1) else some y)
  return (year, m, d)

/-- An integer with zeros behind its sign up to a width. -/
def padZero (width : ℕ) (n : ℤ) : String :=
  let sign := if n < 0 then "-" else ""
  let digits := toString n.natAbs
  sign ++ String.ofList (List.replicate (width - sign.length - digits.length) '0') ++ digits

/-- The text of a timestamp. The remainders and the quotients of the first
four lines are those of the division that rounds down; no division by a
positive number can overflow. -/
def formatIso8601 (ms : Int64) : Option String := do
  let millis := ms.toInt % 1000
  let secsTotal := ms.toInt / 1000
  let days := secsTotal / 86400
  let secsOfDay := secsTotal % 86400
  let hour := secsOfDay.tdiv 3600
  let minute := (secsOfDay.tmod 3600).tdiv 60
  let second := secsOfDay.tmod 60
  let (year, month, day) ← civilFromDays days
  return padZero 4 year ++ "-" ++ padZero 2 month ++ "-" ++ padZero 2 day ++ "T" ++
    padZero 2 hour ++ ":" ++ padZero 2 minute ++ ":" ++ padZero 2 second ++ "." ++
    padZero 3 millis ++ "Z"

example : formatIso8601 1700000000000 = some "2023-11-14T22:13:20.000Z" := by decide +kernel

end Model

section Arithmetic

theorem checkedI64_bind {α : Type} {n : ℤ} {f : ℤ → Option α} (hlow : -9223372036854775808 ≤ n)
    (hhigh : n ≤ 9223372036854775807) : (checkedI64 n >>= f) = f n := by
  rw [checkedI64, if_pos ⟨hlow, hhigh⟩]
  rfl

theorem checkedU64_bind {α : Type} {n : ℤ} {f : ℕ → Option α} (k : ℕ) (h : n = k)
    (hhigh : k ≤ 18446744073709551615) : (checkedU64 n >>= f) = f k := by
  rw [checkedU64, if_pos ⟨by omega, by omega⟩, h, Int.toNat_natCast]
  rfl

theorem asU64_of_nonneg {n : ℤ} (k : ℕ) (h : n = k) (hhigh : k ≤ 18446744073709551615) :
    asU64 n = k := by
  rw [asU64, Int.emod_eq_of_lt (by omega) (by omega), h, Int.toNat_natCast]

theorem asI64_of_le {n : ℕ} (h : n ≤ 9223372036854775807) : asI64 n = n := by
  rw [asI64, if_pos (by omega)]

theorem asU32_of_le {n : ℕ} (h : n ≤ 4294967295) : asU32 n = n := by
  rw [asU32, Nat.mod_eq_of_lt (by omega)]

/-- The cut-off division of a shifted number rounds down. -/
theorem era_eq (z : ℤ) : (if 0 ≤ z then z else z - 146096).tdiv 146097 = z / 146097 := by
  split
  · rename_i h
    rw [Int.tdiv_eq_ediv_of_nonneg h]
  · rename_i h
    rw [Int.tdiv_eq_ediv]
    split
    · omega
    · rw [Int.sign_eq_one_of_pos (by decide)]
      omega

end Arithmetic

section Eras

/-- The year of a day in its era. -/
def yearOfEra (doe : ℕ) : ℕ := (doe - doe / 1460 + doe / 36524 - doe / 146096) / 365

/-- The days of an era in front of one of its years. -/
def startOfYear (yoe : ℕ) : ℕ := 365 * yoe + yoe / 4 - yoe / 100

/-- A day of an era by centuries, groups of four years, years and days: the
last day of a leap year is in the last year of its group, and the last group
of a century has it in the last century only. -/
theorem exists_parts {doe : ℕ} (h : doe < 146097) :
    ∃ c q j s, doe = 36524 * c + 1461 * q + 365 * j + s ∧ c ≤ 3 ∧ q ≤ 24 ∧ j ≤ 3 ∧ s ≤ 365 ∧
      (s = 365 → j = 3 ∧ (q = 24 → c = 3)) := by
  have hc : min (doe / 36524) 3 ≤ 3 := Nat.min_le_right _ _
  generalize hcentury : min (doe / 36524) 3 = c at hc
  have hq : (doe - 36524 * c) / 1461 ≤ 24 := by omega
  generalize hgroup : (doe - 36524 * c) / 1461 = q at hq
  have hj : min ((doe - 36524 * c - 1461 * q) / 365) 3 ≤ 3 := Nat.min_le_right _ _
  generalize hyear : min ((doe - 36524 * c - 1461 * q) / 365) 3 = j at hj
  exact ⟨c, q, j, doe - 36524 * c - 1461 * q - 365 * j, by omega, hc, hq, hj, by omega, by omega⟩

/-- The quotient by four years is one too large from some day of the fourth year on, which
the year does not notice. -/
theorem yearOfEra_parts {doe c q j s : ℕ} (h : doe = 36524 * c + 1461 * q + 365 * j + s)
    (hc : c ≤ 3) (hq : q ≤ 24) (hj : j ≤ 3) (hs : s ≤ 365)
    (hlast : s = 365 → j = 3 ∧ (q = 24 → c = 3)) : yearOfEra doe = 100 * c + 4 * q + j := by
  have hcenturies : c ≤ doe / 36524 := by omega
  have hsmall : doe / 36524 ≤ c + 1 := by omega
  have heras : doe / 146096 = doe / 36524 - c := by omega
  have hgroups : doe / 1460 = 25 * c + q ∨ doe / 1460 = 25 * c + q + 1 := by omega
  have hmore : doe / 1460 = 25 * c + q + 1 → 0 < s := by omega
  have hend : s = 365 → doe / 1460 = 25 * c + q + 1 := by omega
  rw [yearOfEra, heras]
  generalize doe / 1460 = groups at *
  generalize doe / 36524 = centuries at *
  omega

theorem startOfYear_parts {c q j : ℕ} (hq : q ≤ 24) (hj : j ≤ 3) :
    startOfYear (100 * c + 4 * q + j) = 36524 * c + 1461 * q + 365 * j := by
  rw [startOfYear]
  omega

/-- The year of a day has begun, and the day is one of its days: the last one
is there in front of a leap year only, for the years begin in March. -/
theorem yearOfEra_spec {doe : ℕ} (h : doe < 146097) :
    ∃ doy, doe = startOfYear (yearOfEra doe) + doy ∧ yearOfEra doe ≤ 399 ∧ doy ≤ 365 ∧
      (doy = 365 → IsLeap (yearOfEra doe + 1)) := by
  obtain ⟨c, q, j, s, hparts, hc, hq, hj, hs, hlast⟩ := exists_parts h
  rw [yearOfEra_parts hparts hc hq hj hs hlast, startOfYear_parts hq hj]
  refine ⟨s, hparts, by omega, hs, ?_⟩
  intro hday
  obtain ⟨hthird, hcentury⟩ := hlast hday
  rw [IsLeap]
  omega

/-- The years of an era are those of the calendar. -/
theorem daysBetween_era (era : ℤ) {yoe : ℕ} (h : yoe ≤ 399) :
    daysBetween 1970 (yoe + era * 400 + 1) - 306 =
      146097 * era + startOfYear yoe - 719468 := by
  rw [daysBetween_eq, leapYears, leapYears, startOfYear]
  omega

theorem isLeap_era {era year : ℤ} : IsLeap (year + era * 400) ↔ IsLeap year := by
  rw [IsLeap, IsLeap]
  omega

end Eras

section Civil

/-- The fields of a day of a year that begins in March. -/
def civilFields (y : ℤ) (doy : ℕ) : ℤ × ℕ × ℕ :=
  let mp := (5 * doy + 2) / 153
  let m := if mp < 10 then mp + 3 else mp - 9
  (if m ≤ 2 then y + 1 else y, m, doy - (153 * mp + 2) / 5 + 1)

/-- No operation leaves its range. -/
theorem civilFromDays_eq {z era : ℤ} {doe doy : ℕ} (hlow : -9223372036854775808 ≤ z)
    (hhigh : z ≤ 9223372036854775807 - 719468) (hera : z + 719468 = 146097 * era + doe)
    (hdoe : doe < 146097) (hdoy : doe = startOfYear (yearOfEra doe) + doy)
    (hyoe : yearOfEra doe ≤ 399) (hle : doy ≤ 365) :
    civilFromDays z = some (civilFields (yearOfEra doe + era * 400) doy) := by
  have hshifted : ∀ f : ℤ → Option (ℤ × ℕ × ℕ),
      ((if 0 ≤ z + 719468 then some (z + 719468) else checkedI64 (z + 719468 - 146096)) >>= f) =
        f (if 0 ≤ z + 719468 then z + 719468 else z + 719468 - 146096) := by
    intro f
    split
    · rfl
    · rw [checkedI64_bind (by omega) (by omega)]
  have hquotient : (z + 719468) / 146097 = era := by omega
  have hyear : (doe - doe / 1460 + doe / 36524 - doe / 146096) / 365 = yearOfEra doe := rfl
  rw [civilFromDays, checkedI64_bind (by omega) (by omega), hshifted, era_eq, hquotient,
    checkedI64_bind (by omega) (by omega), checkedI64_bind (by omega) (by omega),
    asU64_of_nonneg doe (by omega) (by omega)]
  dsimp only
  rw [checkedU64_bind (doe - doe / 1460) (by omega) (by omega),
    checkedU64_bind (doe - doe / 1460 + doe / 36524) (by omega) (by omega),
    checkedU64_bind (doe - doe / 1460 + doe / 36524 - doe / 146096) (by omega) (by omega), hyear]
  rw [startOfYear] at hdoy
  generalize yearOfEra doe = yoe at *
  rw [asI64_of_le (by omega), checkedI64_bind (by omega) (by omega),
    checkedI64_bind (by omega) (by omega), checkedU64_bind (365 * yoe) (by omega) (by omega),
    checkedU64_bind (365 * yoe + yoe / 4) (by omega) (by omega),
    checkedU64_bind (365 * yoe + yoe / 4 - yoe / 100) (by omega) (by omega),
    checkedU64_bind doy (by omega) (by omega)]
  rw [checkedU64_bind (5 * doy) (by omega) (by omega),
    checkedU64_bind (5 * doy + 2) (by omega) (by omega)]
  have hmonth : (5 * doy + 2) / 153 ≤ 11 := by omega
  have hstart : (153 * ((5 * doy + 2) / 153) + 2) / 5 ≤ doy := by omega
  rw [civilFields]
  generalize (5 * doy + 2) / 153 = mp at *
  rw [checkedU64_bind (153 * mp) (by omega) (by omega),
    checkedU64_bind (153 * mp + 2) (by omega) (by omega),
    checkedU64_bind (doy - (153 * mp + 2) / 5) (by omega) (by omega),
    checkedU64_bind (doy - (153 * mp + 2) / 5 + 1) (by omega) (by omega)]
  by_cases hmp : mp < 10
  · rw [if_pos hmp, if_pos hmp, checkedU64_bind (mp + 3) (by omega) (by omega),
      asU32_of_le (by omega), asU32_of_le (by omega), if_neg (by omega), if_neg (by omega)]
    rfl
  · rw [if_neg hmp, if_neg hmp, checkedU64_bind (mp - 9) (by omega) (by omega),
      asU32_of_le (by omega), asU32_of_le (by omega), if_pos (by omega), if_pos (by omega),
      checkedI64_bind (by omega) (by omega)]
    rfl

/-- The fields are those of a date, and its number is known; January and February are
months of the next year. -/
theorem exists_date_civilFields (origin : ℤ) {y : ℤ} {doy : ℕ} (hle : doy ≤ 365)
    (hleap : doy = 365 → IsLeap (y + 1)) :
    ∃ date : Date, civilFields y doy = (date.year, date.month, date.day) ∧
      date.dayNumber origin = daysBetween origin (y + 1) - 306 + doy := by
  have hstart : marchDays ((5 * doy + 2) / 153) ≤ doy := by
    rw [marchDays]
    omega
  have hend : doy < marchDays ((5 * doy + 2) / 153 + 1) := by
    rw [marchDays]
    omega
  have hmonth : (5 * doy + 2) / 153 ≤ 11 := by omega
  rw [civilFields]
  generalize (5 * doy + 2) / 153 = mp at *
  obtain ⟨day, hday⟩ := Nat.exists_eq_add_of_le hstart
  by_cases hmp : mp < 10
  · obtain ⟨date, hyear, hmonth, hdate, hnumber⟩ :=
      exists_date_march origin y (by omega : mp ≤ 9) (by omega : marchDays mp + day < _)
    refine ⟨date, ?_, by rw [hnumber, hday]; omega⟩
    rw [if_pos hmp, if_neg (by omega), hyear, hmonth, hdate, hday, marchDays,
      Nat.add_sub_cancel_left]
  · obtain rfl | rfl : mp = 10 ∨ mp = 11 := by omega
    · have hdays : marchDays 10 = 306 := rfl
      have hnext : marchDays (10 + 1) = 337 := rfl
      obtain ⟨date, ⟨hyear, hmonth, hdate⟩, hnumber⟩ := exists_date origin (y + 1)
        (by decide : 0 < 12) (by rw [monthLength_january]; omega : day < _)
      rw [Nat.zero_add, daysBeforeMonth_one] at hnumber
      refine ⟨date, ?_, by rw [hnumber]; omega⟩
      rw [if_neg hmp, if_pos (by decide), hyear, hmonth, hdate, hday, hdays,
        Nat.add_sub_cancel_left]
    · have hdays : marchDays 11 = 337 := rfl
      have hlength : day < monthLength (y + 1) (1 + 1) := by
        rw [monthLength_february]
        split
        · omega
        · rename_i hcommon
          have hshort : doy ≠ 365 := fun heq => hcommon (hleap heq)
          omega
      obtain ⟨date, ⟨hyear, hmonth, hdate⟩, hnumber⟩ := exists_date origin (y + 1)
        (by decide : 1 < 12) hlength
      rw [daysBeforeMonth_two] at hnumber
      refine ⟨date, ?_, by rw [hnumber]; omega⟩
      rw [if_neg hmp, if_pos (by decide), hyear, hmonth, hdate, hday, hdays,
        Nat.add_sub_cancel_left]

/-- The conversion gives the date of the day. -/
theorem civilFromDays_spec {z : ℤ} (hlow : -9223372036854775808 ≤ z)
    (hhigh : z ≤ 9223372036854775807 - 719468) :
    ∃ date : Date, civilFromDays z = some (date.year, date.month, date.day) ∧
      date.dayNumber 1970 = z := by
  obtain ⟨doe, hdoe⟩ : ∃ doe : ℕ, (z + 719468) % 146097 = doe :=
    Int.eq_ofNat_of_zero_le (by omega)
  obtain ⟨doy, hdoy, hyoe, hle, hleap⟩ := yearOfEra_spec (by omega : doe < 146097)
  have hrun := civilFromDays_eq hlow hhigh (by omega : _ = 146097 * ((z + 719468) / 146097) + _)
    (by omega) hdoy hyoe hle
  have hlast : doy = 365 → IsLeap (yearOfEra doe + (z + 719468) / 146097 * 400 + 1) := by
    intro hday
    rw [add_right_comm]
    exact isLeap_era.mpr (hleap hday)
  obtain ⟨date, hfields, hnumber⟩ := exists_date_civilFields 1970 hle hlast
  rw [hfields] at hrun
  refine ⟨date, hrun, ?_⟩
  rw [hnumber, daysBetween_era _ hyoe]
  omega

end Civil

section Timestamps

/-- A time of day. -/
structure TimeOfDay where
  /-- The hour. -/
  hour : ℕ
  /-- The minute of the hour. -/
  minute : ℕ
  /-- The second of the minute. -/
  second : ℕ
  /-- The millisecond of the second. -/
  millis : ℕ
  /-- A day has 24 hours. -/
  hour_lt : hour < 24
  /-- An hour has 60 minutes. -/
  minute_lt : minute < 60
  /-- A minute has 60 seconds. -/
  second_lt : second < 60
  /-- A second has a thousand milliseconds. -/
  millis_lt : millis < 1000

/-- The milliseconds since midnight. -/
def TimeOfDay.toMillis (time : TimeOfDay) : ℕ :=
  ((time.hour * 60 + time.minute) * 60 + time.second) * 1000 + time.millis

/-- The text of a date and a time of day. -/
def isoText (date : Date) (time : TimeOfDay) : String :=
  padZero 4 date.year ++ "-" ++ padZero 2 date.month ++ "-" ++ padZero 2 date.day ++ "T" ++
    padZero 2 time.hour ++ ":" ++ padZero 2 time.minute ++ ":" ++ padZero 2 time.second ++ "." ++
    padZero 3 time.millis ++ "Z"

/-- The day of a timestamp, counted from the epoch. -/
def daysOf (ms : Int64) : ℤ := ms.toInt / 1000 / 86400

/-- The fields of the time of day are the remainders. -/
theorem exists_timeOfDay (ms : Int64) :
    ∃ time : TimeOfDay, ms.toInt = daysOf ms * 86400000 + time.toMillis ∧
      (ms.toInt / 1000 % 86400).tdiv 3600 = time.hour ∧
      ((ms.toInt / 1000 % 86400).tmod 3600).tdiv 60 = time.minute ∧
      (ms.toInt / 1000 % 86400).tmod 60 = time.second ∧ ms.toInt % 1000 = time.millis := by
  obtain ⟨secs, hsecs⟩ : ∃ secs : ℕ, ms.toInt / 1000 % 86400 = secs :=
    Int.eq_ofNat_of_zero_le (by omega)
  obtain ⟨millis, hmillis⟩ : ∃ millis : ℕ, ms.toInt % 1000 = millis :=
    Int.eq_ofNat_of_zero_le (by omega)
  refine ⟨⟨secs / 3600, secs % 3600 / 60, secs % 60, millis, by omega, by omega, by omega,
    by omega⟩, ?_, ?_, ?_, ?_, hmillis⟩
  · rw [TimeOfDay.toMillis, daysOf]
    dsimp only
    omega
  · rw [hsecs]
    rfl
  · rw [hsecs]
    rfl
  · rw [hsecs]
    rfl

/-- Every timestamp has a text: that of the one date with the number of its
day. The next day has the next date. -/
theorem formatIso8601_spec (ms : Int64) :
    ∃ (date : Date) (time : TimeOfDay),
      formatIso8601 ms = some (isoText date time) ∧
      ms.toInt = daysOf ms * 86400000 + time.toMillis ∧
      civilFromDays (daysOf ms) = some (date.year, date.month, date.day) ∧
      (∀ other : Date, other.dayNumber 1970 = daysOf ms ↔ other = date) ∧
      civilFromDays (daysOf ms + 1) = some (date.next.year, date.next.month, date.next.day) := by
  have hlow := ms.le_toInt
  have hhigh := ms.toInt_lt
  have hdays : -106751991168 ≤ daysOf ms ∧ daysOf ms ≤ 106751991167 := by
    rw [daysOf]
    omega
  obtain ⟨date, hdate, hnumber⟩ := civilFromDays_spec (by omega : _ ≤ daysOf ms) (by omega)
  obtain ⟨following, hfollowing, hnext⟩ :=
    civilFromDays_spec (by omega : _ ≤ daysOf ms + 1) (by omega)
  obtain ⟨time, htime, hhour, hminute, hsecond, hmillis⟩ := exists_timeOfDay ms
  have hsame : following = date.next := by
    apply @dayNumber_injective 1970
    rw [hnext, dayNumber_next, hnumber]
  refine ⟨date, time, ?_, htime, hdate, ?_, ?_⟩
  · rw [daysOf] at hdate
    rw [formatIso8601, hdate]
    dsimp only
    rw [hhour, hminute, hsecond, hmillis]
    rfl
  · intro other
    constructor
    · intro hother
      exact dayNumber_injective 1970 (hother.trans hnumber.symm)
    · intro heq
      rw [heq, hnumber]
  · rw [hfollowing, hsame]

end Timestamps

end Teleprompter.IsoTimestamps

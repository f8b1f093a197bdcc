import Teleprompter.IsoTimestamps

/-!
# Displayed times

Besides the exporter, three programs convert timestamps by hand: the dashboard
of the relay prints milliseconds, the session list prints dates of old sessions
and the logs print times of day. They share the steps from the day of an era to
its date, in signed integers. No operation leaves its range, and all of them
agree with the exporter.
-/

namespace Teleprompter.DisplayedTimes

open GregorianCalendar IsoTimestamps

section Model

/-- The year, the month and the day of a day of an era, in signed integers. -/
def civilOfEra (era doe : ℤ) : Option (ℤ × ℤ × ℤ) := do
  let withoutLeaps ← checkedI64 (doe - doe.tdiv 1460)
  let withCenturies ← checkedI64 (withoutLeaps + doe.tdiv 36524)
  let yearDays ← checkedI64 (withCenturies - doe.tdiv 146096)
  let yoe := yearDays.tdiv 365
  let eraYears ← checkedI64 (era * 400)
  let y ← checkedI64 (yoe + eraYears)
  let commonDays ← checkedI64 (365 * yoe)
  let julianDays ← checkedI64 (commonDays + yoe.tdiv 4)
  let doyStart ← checkedI64 (julianDays - yoe.tdiv 100)
  let doy ← checkedI64 (doe - doyStart)
  let scaled ← checkedI64 (5 * doy)
  let mp := (← checkedI64 (scaled + 2)).tdiv 153
  let monthScaled ← checkedI64 (153 * mp)
  let monthStart ← checkedI64 (monthScaled + 2)
  let dayIndex ← checkedI64 (doy - monthStart.tdiv 5)
  let d ← checkedI64 (dayIndex + 1)
  let m ← (if mp < 10 then checkedI64 (mp + 3) else checkedI64 (mp - 9))
  let year ← (if m ≤ 2 then checkedI64 (y + 1) else some y)
  return (year, m, d)

/-- The date of a number of days in the session list. The division rounds down. -/
def civilFromDays (days : ℤ) : Option (ℤ × ℕ × ℕ) := do
  let z ← checkedI64 (days + 719468)
  let era := z / 146097
  let eraDays ← checkedI64 (era * 146097)
  let (year, m, d) ← civilOfEra era (← checkedI64 (z - eraDays))
  return (year, asU32 (asU64 m), asU32 (asU64 d))

/-- A timestamp as its date. -/
def isoDateUtc (epochMs : ℤ) : Option String := do
  let (year, month, day) ← civilFromDays (epochMs / 86400000)
  return padZero 4 year ++ "-" ++ padZero 2 month ++ "-" ++ padZero 2 day

/-- How long ago a session changed. -/
def formatAge (ageMs nowMs : ℤ) : Option String :=
  let seconds := ageMs / 1000
  let minutes := seconds / 60
  let hours := minutes / 60
  let days := hours / 24
  if seconds < 60 then some (toString seconds ++ "s ago")
  else if minutes < 60 then some (toString minutes ++ "m ago")
  else if hours < 24 then some (toString hours ++ "h ago")
  else if days < 7 then some (toString days ++ "d ago")
  else do isoDateUtc (← checkedI64 (nowMs - ageMs))

/-- A timestamp of the relay. The divisions of signed integers cut off. -/
def iso8601Millis (ms : UInt64) : Option String := do
  let totalSecs := ms.toNat / 1000
  let millis := ms.toNat % 1000
  let secs := totalSecs % 60
  let totalMins := totalSecs / 60
  let mins := totalMins % 60
  let totalHours := totalMins / 60
  let hours := totalHours % 24
  let days := totalHours / 24
  let z ← checkedI64 (asI64 days + 719468)
  let era := z.tdiv 146097
  let eraDays ← checkedI64 (era * 146097)
  let (year, month, day) ← civilOfEra era (← checkedI64 (z - eraDays))
  return padZero 4 year ++ "-" ++ padZero 2 month ++ "-" ++ padZero 2 day ++ "T" ++
    padZero 2 hours ++ ":" ++ padZero 2 mins ++ ":" ++ padZero 2 secs ++ "." ++
    padZero 3 millis ++ "Z"

/-- A timestamp as the time of its day, in the logs. -/
def formatTimeOfDay (epochMs : ℤ) : String :=
  let msOfDay := epochMs % 86400000
  let ms := msOfDay.tmod 1000
  let totalSecs := msOfDay.tdiv 1000
  let secs := totalSecs.tmod 60
  let totalMins := totalSecs.tdiv 60
  let mins := totalMins.tmod 60
  let hours := totalMins.tdiv 60
  padZero 2 hours ++ ":" ++ padZero 2 mins ++ ":" ++ padZero 2 secs ++ "." ++ padZero 3 ms

example : iso8601Millis 1700000000000 = some "2023-11-14T22:13:20.000Z" := by decide +kernel

end Model

section Dates

/-- A checked operation whose result is a natural number. -/
theorem checkedI64_natCast {α : Type} {n : ℤ} {f : ℤ → Option α} (k : ℕ) (h : n = k)
    (hhigh : k ≤ 9223372036854775807) : (checkedI64 n >>= f) = f k := by
  rw [checkedI64_bind (by omega) (by omega), h]

/-- The steps in signed integers give the fields that those in unsigned ones give. -/
theorem civilOfEra_eq {era : ℤ} {doe doy : ℕ} (hlow : -9223372036854775 ≤ era)
    (hhigh : era ≤ 9223372036854775) (hdoe : doe < 146097)
    (hdoy : doe = startOfYear (yearOfEra doe) + doy) (hyoe : yearOfEra doe ≤ 399)
    (hle : doy ≤ 365) :
    civilOfEra era doe = some ((civilFields (yearOfEra doe + era * 400) doy).1,
      ((civilFields (yearOfEra doe + era * 400) doy).2.1 : ℤ),
      ((civilFields (yearOfEra doe + era * 400) doy).2.2 : ℤ)) := by
  have hdiv : ∀ (a : ℕ) (b : ℤ), (a : ℤ).tdiv b = a / b :=
    fun a b => Int.tdiv_eq_ediv_of_nonneg (by omega)
  have hyear : ((doe - doe / 1460 + doe / 36524 - doe / 146096 : ℕ) : ℤ).tdiv 365 =
      yearOfEra doe := by
    rw [hdiv, yearOfEra]
    omega
  rw [civilOfEra, checkedI64_natCast (doe - doe / 1460) (by rw [hdiv]; omega) (by omega),
    checkedI64_natCast (doe - doe / 1460 + doe / 36524) (by rw [hdiv]; omega) (by omega),
    checkedI64_natCast (doe - doe / 1460 + doe / 36524 - doe / 146096)
      (by rw [hdiv]; omega) (by omega)]
  dsimp only
  rw [hyear]
  rw [startOfYear] at hdoy
  generalize yearOfEra doe = yoe at *
  rw [checkedI64_bind (by omega) (by omega), checkedI64_bind (by omega) (by omega),
    checkedI64_natCast (365 * yoe) (by omega) (by omega),
    checkedI64_natCast (365 * yoe + yoe / 4) (by rw [hdiv]; omega) (by omega),
    checkedI64_natCast (365 * yoe + yoe / 4 - yoe / 100) (by rw [hdiv]; omega) (by omega),
    checkedI64_natCast doy (by omega) (by omega),
    checkedI64_natCast (5 * doy) (by omega) (by omega),
    checkedI64_natCast (5 * doy + 2) (by omega) (by omega)]
  have hmonth : (5 * doy + 2) / 153 ≤ 11 := by omega
  have hstart : (153 * ((5 * doy + 2) / 153) + 2) / 5 ≤ doy := by omega
  have hcast : ((5 * doy + 2 : ℕ) : ℤ).tdiv 153 = ((5 * doy + 2) / 153 : ℕ) := by
    rw [hdiv]
    omega
  rw [hcast, civilFields]
  generalize (5 * doy + 2) / 153 = mp at *
  rw [checkedI64_natCast (153 * mp) (by omega) (by omega),
    checkedI64_natCast (153 * mp + 2) (by omega) (by omega),
    checkedI64_natCast (doy - (153 * mp + 2) / 5) (by rw [hdiv]; omega) (by omega),
    checkedI64_natCast (doy - (153 * mp + 2) / 5 + 1) (by omega) (by omega)]
  by_cases hmp : mp < 10
  · rw [if_pos (by omega), if_pos hmp, checkedI64_natCast (mp + 3) (by omega) (by omega),
      if_neg (by omega), if_neg (by omega)]
    rfl
  · rw [if_neg (by omega), if_neg hmp, checkedI64_natCast (mp - 9) (by omega) (by omega),
      if_pos (by omega), if_pos (by omega), checkedI64_bind (by omega) (by omega)]
    rfl

/-- The date of a day, counted from the beginning of the eras. -/
theorem civilOfEra_spec {z : ℤ} (hlow : -9223372036854775 ≤ z) (hhigh : z ≤ 9223372036854775) :
    ∃ date : Date, civilOfEra (z / 146097) (z - z / 146097 * 146097) =
        some (date.year, (date.month : ℤ), (date.day : ℤ)) ∧
      date.dayNumber 1970 = z - 719468 := by
  obtain ⟨doe, hdoe⟩ : ∃ doe : ℕ, z - z / 146097 * 146097 = doe :=
    Int.eq_ofNat_of_zero_le (by omega)
  obtain ⟨doy, hdoy, hyoe, hle, hleap⟩ := yearOfEra_spec (by omega : doe < 146097)
  have hlast : doy = 365 → IsLeap (yearOfEra doe + z / 146097 * 400 + 1) := by
    intro hday
    rw [add_right_comm]
    exact isLeap_era.mpr (hleap hday)
  obtain ⟨date, hfields, hnumber⟩ := exists_date_civilFields 1970 hle hlast
  refine ⟨date, ?_, ?_⟩
  · rw [hdoe, civilOfEra_eq (by omega) (by omega) (by omega) hdoy hyoe hle, hfields]
  · rw [hnumber, daysBetween_era _ hyoe]
    omega

/-- A date as the session list prints it. -/
def dateText (date : Date) : String :=
  padZero 4 date.year ++ "-" ++ padZero 2 date.month ++ "-" ++ padZero 2 date.day

theorem monthLength_le (year : ℤ) (month : ℕ) : monthLength year month ≤ 31 := by
  rw [monthLength]
  split_ifs <;> omega

/-- The session list prints the date of the day. -/
theorem isoDateUtc_spec {epochMs : ℤ} (hlow : -9223372036854775808 ≤ epochMs)
    (hhigh : epochMs ≤ 9223372036854775807) :
    ∃ date : Date, isoDateUtc epochMs = some (dateText date) ∧
      date.dayNumber 1970 = epochMs / 86400000 := by
  obtain ⟨date, hdate, hnumber⟩ := civilOfEra_spec
    (by omega : -9223372036854775 ≤ epochMs / 86400000 + 719468) (by omega)
  refine ⟨date, ?_, by rw [hnumber]; omega⟩
  have hmonth := date.month_le
  have hday := Nat.le_trans date.day_le (monthLength_le _ _)
  rw [isoDateUtc, civilFromDays, checkedI64_bind (by omega) (by omega),
    checkedI64_bind (by omega) (by omega), checkedI64_bind (by omega) (by omega), hdate]
  have hcast : ∀ n : ℕ, n ≤ 31 → asU32 (asU64 n) = n := by
    intro n hn
    rw [asU64_of_nonneg n rfl (by omega), asU32_of_le (by omega)]
  dsimp only [bind, Option.bind, pure]
  rw [hcast _ (by omega), hcast _ hday]
  rfl

end Dates

section Times

/-- A time of day as the logs print it. -/
def timeText (time : TimeOfDay) : String :=
  padZero 2 time.hour ++ ":" ++ padZero 2 time.minute ++ ":" ++ padZero 2 time.second ++ "." ++
    padZero 3 time.millis

theorem isoText_eq (date : Date) (time : TimeOfDay) :
    isoText date time = dateText date ++ "T" ++ timeText time ++ "Z" := by
  simp only [isoText, dateText, timeText, String.append_assoc]

/-- The fields of a time of day follow from its milliseconds. -/
theorem toMillis_injective {time other : TimeOfDay} (h : time.toMillis = other.toMillis) :
    time = other := by
  obtain ⟨hour, minute, second, millis, hhour, hminute, hsecond, hmillis⟩ := time
  obtain ⟨hour', minute', second', millis', hhour', hminute', hsecond', hmillis'⟩ := other
  rw [TimeOfDay.toMillis, TimeOfDay.toMillis] at h
  dsimp only at h
  obtain ⟨rfl, rfl, rfl, rfl⟩ : hour = hour' ∧ minute = minute' ∧ second = second' ∧
      millis = millis' := by omega
  rfl

/-- A number of milliseconds falls on one day and one time in one way. -/
theorem day_time_unique {date other : Date} {time time' : TimeOfDay}
    (h : date.dayNumber 1970 * 86400000 + time.toMillis =
      other.dayNumber 1970 * 86400000 + time'.toMillis) : date = other ∧ time = time' := by
  have hlt : ∀ t : TimeOfDay, t.toMillis < 86400000 := by
    intro t
    have hhour := t.hour_lt
    have hminute := t.minute_lt
    have hsecond := t.second_lt
    have hmillis := t.millis_lt
    rw [TimeOfDay.toMillis]
    omega
  have htime := hlt time
  have htime' := hlt time'
  exact ⟨dayNumber_injective 1970 (by omega), toMillis_injective (by omega)⟩

/-- The relay prints the date and the time of every timestamp. -/
theorem iso8601Millis_spec (ms : UInt64) :
    ∃ (date : Date) (time : TimeOfDay), iso8601Millis ms = some (isoText date time) ∧
      (ms.toNat : ℤ) = date.dayNumber 1970 * 86400000 + time.toMillis := by
  have hsize := ms.toNat_lt
  obtain ⟨date, hdate, hnumber⟩ := civilOfEra_spec
    (by omega : -9223372036854775 ≤ ((ms.toNat / 1000 / 60 / 60 / 24 : ℕ) : ℤ) + 719468)
    (by omega)
  refine ⟨date, ⟨ms.toNat / 1000 / 60 / 60 % 24, ms.toNat / 1000 / 60 % 60, ms.toNat / 1000 % 60,
    ms.toNat % 1000, by omega, by omega, by omega, by omega⟩, ?_, ?_⟩
  · rw [iso8601Millis, asI64_of_le (by omega), checkedI64_bind (by omega) (by omega)]
    dsimp only
    rw [Int.tdiv_eq_ediv_of_nonneg (by omega), checkedI64_bind (by omega) (by omega),
      checkedI64_bind (by omega) (by omega), hdate]
    rfl
  · rw [hnumber, TimeOfDay.toMillis]
    dsimp only
    omega

/-- The logs print the time of the day. -/
theorem formatTimeOfDay_spec (epochMs : ℤ) :
    ∃ time : TimeOfDay, formatTimeOfDay epochMs = timeText time ∧
      epochMs = epochMs / 86400000 * 86400000 + time.toMillis := by
  obtain ⟨ms, hms⟩ : ∃ ms : ℕ, epochMs % 86400000 = ms := Int.eq_ofNat_of_zero_le (by omega)
  refine ⟨⟨ms / 1000 / 60 / 60, ms / 1000 / 60 % 60, ms / 1000 % 60, ms % 1000, by omega, by omega,
    by omega, by omega⟩, ?_, ?_⟩
  · rw [formatTimeOfDay, hms]
    rfl
  · rw [TimeOfDay.toMillis]
    dsimp only
    omega

/-- An old session shows the date that it changed on. -/
theorem formatAge_of_old {ageMs nowMs : ℤ} (hold : 604800000 ≤ ageMs)
    (hlow : -9223372036854775808 ≤ nowMs - ageMs) (hhigh : nowMs - ageMs ≤ 9223372036854775807) :
    formatAge ageMs nowMs = isoDateUtc (nowMs - ageMs) := by
  rw [formatAge, if_neg (by omega), if_neg (by omega), if_neg (by omega), if_neg (by omega),
    checkedI64_bind hlow hhigh]

/-- Every timestamp has one date and one time of day, and all the programs print these: the
exporter and the relay both, the session list the date and the logs the time. -/
theorem displayed_times_agree (ms : Int64) :
    ∃ (date : Date) (time : TimeOfDay),
      ms.toInt = date.dayNumber 1970 * 86400000 + time.toMillis ∧
      formatIso8601 ms = some (dateText date ++ "T" ++ timeText time ++ "Z") ∧
      (∀ relayMs : UInt64, (relayMs.toNat : ℤ) = ms.toInt →
        iso8601Millis relayMs = some (dateText date ++ "T" ++ timeText time ++ "Z")) ∧
      (∀ ageMs : ℤ, 604800000 ≤ ageMs →
        formatAge ageMs (ms.toInt + ageMs) = some (dateText date)) ∧
      formatTimeOfDay ms.toInt = timeText time := by
  obtain ⟨date, time, hiso, hmillis, hdate, hunique, -⟩ := formatIso8601_spec ms
  have hnumber : date.dayNumber 1970 = daysOf ms := (hunique date).mpr rfl
  have hlow := ms.le_toInt
  have hhigh := ms.toInt_lt
  have hsum : ms.toInt = date.dayNumber 1970 * 86400000 + time.toMillis := by
    rw [hnumber, ← hmillis]
  refine ⟨date, time, hsum, by rw [hiso, isoText_eq], ?_, ?_, ?_⟩
  · intro relayMs hrelay
    obtain ⟨date', time', htext, hsum'⟩ := iso8601Millis_spec relayMs
    obtain ⟨rfl, rfl⟩ := day_time_unique (hsum.symm.trans (hrelay.symm.trans hsum'))
    rw [htext, isoText_eq]
  · intro ageMs hold
    obtain ⟨date', htext, hday⟩ := isoDateUtc_spec (by omega) (by omega : ms.toInt ≤ _)
    have hsame : date' = date := by
      refine dayNumber_injective 1970 ?_
      rw [hday, hnumber, daysOf]
      omega
    rw [formatAge_of_old hold (by omega) (by omega), Int.add_sub_cancel, htext, hsame]
  · obtain ⟨time', htext, hsum'⟩ := formatTimeOfDay_spec ms.toInt
    have hsame : time' = time := by
      refine toMillis_injective ?_
      rw [hnumber, daysOf] at hsum
      omega
    rw [htext, hsame]

end Times

end Teleprompter.DisplayedTimes

import OpenALE.Library.Calendar
import OpenALE.Library.Decimal
import OpenALE.Library.FloatArith
import OpenALE.Word.Basic

/-!
# Position reports

Model of `src/Protocol/Message/ale_gpr.cpp`. The arithmetic of `double` is a `FloatArith`; a
coordinate is the rational it stands for, `time_t` an integer. `std::stoi`, `std::stod` and the
source's own digit arithmetic are the value of the digits, where the source has checked that there
is nothing else.

Results:
* `daysFromCivil_civilFromDays`, `civilFromDays_daysFromCivil`: day numbers and dates are inverse.
* `coordinateField_eq`, `parseCoordinate_field`: a coordinate is rounded, and read back.
* `parseAltitude_field`, `parseTimestamp_field`: the altitude of six digits and the time of a
  four-digit year are read back; `of_parseAltitude`, `fourDigitYear_of_parse`: no others are.
-/

namespace OpenALE

namespace Gpr

/-! ## The calendar -/

/-- `days_from_civil`. The month is unsigned: it wraps where the source adds `-3`. -/
def daysFromCivil (y : ℤ) (m d : ℕ) : ℤ :=
  let y := if m ≤ 2 then y - 1 else y
  let era := (if 0 ≤ y then y else y - 399).tdiv 400
  let yoe := (y - era * 400).toNat
  let doy := (153 * ((m + if 2 < m then 2 ^ 32 - 3 else 9) % 2 ^ 32) + 2) / 5 + d - 1
  let doe := yoe * 365 + yoe / 4 - yoe / 100 + doy
  era * 146097 + doe - 719468

/-- `civil_from_days`. The year is converted to `int`. -/
def civilFromDays (z : ℤ) : ℤ × ℕ × ℕ :=
  let z := z + 719468
  let era := (if 0 ≤ z then z else z - 146096).tdiv 146097
  let doe := (z - era * 146097).toNat
  let yoe := (doe - doe / 1460 + doe / 36524 - doe / 146096) / 365
  let yi : ℤ := yoe + era * 400
  let doy := doe - (365 * yoe + yoe / 4 - yoe / 100)
  let mp := (5 * doy + 2) / 153
  let d := doy - (153 * mp + 2) / 5 + 1
  let m := (mp + if mp < 10 then 3 else 2 ^ 32 - 9) % 2 ^ 32
  ((yi + if m ≤ 2 then 1 else 0).bmod (2 ^ 32), m, d)

/-- `is_leap_year`. -/
def isLeapYear (y : ℤ) : Bool := (y.tmod 4 == 0 && y.tmod 100 != 0) || y.tmod 400 == 0

/-- `days_in_month`. -/
def daysInMonth (y m : ℤ) : ℤ :=
  if m < 1 ∨ 12 < m then 0
  else if m = 2 ∧ isLeapYear y then 29
  else [31, 28, 31, 30, 31, 30, 31, 31, 30, 31, 30, 31].getD (m - 1).toNat 0

/-- The month of the calendar, of the year that begins in March. -/
def monthOf (mp : ℕ) : ℕ := if mp < 10 then mp + 3 else mp - 9

/-- The calendar year, of the cycle and the year in it. -/
def yearOf (era : ℤ) (y mp : ℕ) : ℤ := y + era * 400 + if mp < 10 then 0 else 1

/-- The day number of a date of the cycle. -/
theorem daysFromCivil_eq {era : ℤ} {y mp d : ℕ} (hy : y < 400) (hmp : mp < 12) (hd : 1 ≤ d) :
    daysFromCivil (yearOf era y mp) (monthOf mp) d =
      era * 146097 + Calendar.yearStart y + Calendar.monthStart mp + d - 719469 := by
  have hmonth : (monthOf mp + if 2 < monthOf mp then 2 ^ 32 - 3 else 9) % 2 ^ 32 = mp := by
    unfold monthOf
    split_ifs <;> omega
  have hyear : (if monthOf mp ≤ 2 then yearOf era y mp - 1 else yearOf era y mp) = y + era * 400 := by
    unfold monthOf yearOf
    split_ifs <;> omega
  have hera : (if 0 ≤ (y : ℤ) + era * 400 then (y : ℤ) + era * 400
      else (y : ℤ) + era * 400 - 399).tdiv 400 = era := by
    split_ifs with hneg
    · rw [Int.tdiv_eq_ediv_of_nonneg hneg]
      omega
    · have hnonpos : 0 ≤ -((y : ℤ) + era * 400 - 399) := by omega
      rw [← neg_neg ((y : ℤ) + era * 400 - 399), Int.neg_tdiv, Int.tdiv_eq_ediv_of_nonneg hnonpos]
      omega
  have hyoe : ((y : ℤ) + era * 400 - era * 400).toNat = y := by omega
  unfold daysFromCivil
  simp only [hyear, hera, hyoe, hmonth]
  unfold Calendar.yearStart Calendar.monthStart
  omega

/-- The date of a day number. -/
theorem civilFromDays_eq (z : ℤ) : ∃ (era : ℤ) (y mp d : ℕ), y < 400 ∧ mp < 12 ∧ 1 ≤ d ∧
    z = era * 146097 + Calendar.yearStart y + Calendar.monthStart mp + d - 719469 ∧
    Calendar.monthStart mp + d ≤ (if Calendar.IsLeap ((y : ℤ) + 1) then 366 else 365) ∧
    Calendar.monthStart mp + d ≤ Calendar.monthStart (mp + 1) ∧
    civilFromDays z = ((yearOf era y mp).bmod (2 ^ 32), monthOf mp, d) := by
  have hera : (if 0 ≤ z + 719468 then z + 719468 else z + 719468 - 146096).tdiv 146097 =
      (z + 719468) / 146097 := by
    split_ifs with hneg
    · rw [Int.tdiv_eq_ediv_of_nonneg hneg]
    · have hnonpos : 0 ≤ -(z + 719468 - 146096) := by omega
      rw [← neg_neg (z + 719468 - 146096), Int.neg_tdiv, Int.tdiv_eq_ediv_of_nonneg hnonpos]
      omega
  obtain ⟨doe, hdoe, hdoeLt⟩ : ∃ doe : ℕ,
      (z + 719468 - (z + 719468) / 146097 * 146097).toNat = doe ∧ doe < 146097 := ⟨_, rfl, by omega⟩
  obtain ⟨y, hy, hstart, hnext⟩ := Calendar.exists_year hdoeLt
  have hyoe : (doe - doe / 1460 + doe / 36524 - doe / 146096) / 365 = y :=
    Calendar.year_of_day hy hstart hnext
  have hfull : 365 * y + y / 4 - y / 100 = Calendar.yearStart y := by
    unfold Calendar.yearStart
    omega
  have hlen := Calendar.length_year y hy
  have hdoy : doe - Calendar.yearStart y < 366 := by
    split_ifs at hlen <;> omega
  obtain ⟨mp, hmp, hmonth, hmonthNext, hmpEq⟩ := Calendar.exists_month hdoy
  have hmpStart : (153 * mp + 2) / 5 = Calendar.monthStart mp := rfl
  refine ⟨(z + 719468) / 146097, y, mp, doe - Calendar.yearStart y - Calendar.monthStart mp + 1, hy,
    hmp, by omega, by omega, ?_, by omega, ?_⟩
  · split_ifs at hlen ⊢ <;> omega
  · have hm : (mp + if mp < 10 then 3 else 2 ^ 32 - 9) % 2 ^ 32 = monthOf mp := by
      unfold monthOf
      split_ifs <;> omega
    have hyear : (y : ℤ) + (z + 719468) / 146097 * 400 + (if monthOf mp ≤ 2 then 1 else 0) =
        yearOf ((z + 719468) / 146097) y mp := by
      unfold monthOf yearOf
      split_ifs <;> omega
    unfold civilFromDays
    simp only [hera, hdoe, hyoe, hfull, ← hmpEq, hmpStart, hm, hyear]

/-- A day lies before the first of January of the years behind its own, and of no others. -/
theorem lt_january_iff {era : ℤ} {y mp d : ℕ} (hy : y < 400) (hmp : mp < 12) (hd : 1 ≤ d)
    (hlen : Calendar.monthStart mp + d ≤ if Calendar.IsLeap ((y : ℤ) + 1) then 366 else 365)
    (hnext : Calendar.monthStart mp + d ≤ Calendar.monthStart (mp + 1)) (n : ℤ) :
    era * 146097 + Calendar.yearStart y + Calendar.monthStart mp + d - 719469 < daysFromCivil n 1 1 ↔
      yearOf era y mp < n := by
  obtain ⟨era₀, y₀, hy₀, hn⟩ : ∃ (era₀ : ℤ) (y₀ : ℕ), y₀ < 400 ∧ n = yearOf era₀ y₀ 10 :=
    ⟨(n - 1) / 400, ((n - 1) % 400).toNat, by omega, by simp only [yearOf]; omega⟩
  have hjan : daysFromCivil n 1 1 = era₀ * 146097 + Calendar.yearStart y₀ + 306 + 1 - 719469 := by
    rw [hn]
    exact daysFromCivil_eq (d := 1) hy₀ (by decide) le_rfl
  have hyear := Calendar.length_year y hy
  have hyear₀ := Calendar.length_year y₀ hy₀
  have hle : Calendar.yearStart y + (Calendar.monthStart mp + d) ≤ Calendar.yearStart (y + 1) := by
    omega
  have hge : Calendar.yearStart y₀ + 365 ≤ Calendar.yearStart (y₀ + 1) := by
    split_ifs at hyear₀ <;> omega
  rw [hjan, hn]
  unfold yearOf
  obtain hlt | heq | hgt : y + era * 400 < y₀ + era₀ * 400 ∨ era = era₀ ∧ y = y₀ ∨
      y₀ + era₀ * 400 < y + era * 400 := by omega
  · have hafter := Calendar.yearStart_le hy hlt hy₀
    refine iff_of_true (by omega) ?_
    split_ifs <;> omega
  · obtain ⟨rfl, rfl⟩ := heq
    unfold Calendar.monthStart at hnext ⊢
    split_ifs <;> omega
  · have hafter := Calendar.yearStart_le hy₀ hgt hy
    refine iff_of_false (by omega) ?_
    split_ifs <;> omega

/-- The days of the years that an `int` holds. -/
def InRange (z : ℤ) : Prop := daysFromCivil (-2 ^ 31) 1 1 ≤ z ∧ z ≤ daysFromCivil (2 ^ 31 - 1) 12 31

/-! Valid dates -/

theorem isLeapYear_iff (y : ℤ) : isLeapYear y = true ↔ Calendar.IsLeap y := by
  have htmod (n : ℤ) : y.tmod n = 0 ↔ y % n = 0 := by
    rw [← Int.dvd_iff_tmod_eq_zero, Int.dvd_iff_emod_eq_zero]
  simp [isLeapYear, Calendar.IsLeap, htmod]

theorem daysInMonth_eq (era : ℤ) (y : ℕ) {mp : ℕ} (hmp : mp < 12) :
    daysInMonth (yearOf era y mp) (monthOf mp) + Calendar.monthStart mp =
      min (Calendar.monthStart (mp + 1)) (if Calendar.IsLeap ((y : ℤ) + 1) then 366 else 365) := by
  have hleap : isLeapYear (yearOf era y 11) = true ↔ Calendar.IsLeap ((y : ℤ) + 1) := by
    rw [isLeapYear_iff]
    unfold yearOf Calendar.IsLeap
    omega
  have hlen : 365 ≤ if Calendar.IsLeap ((y : ℤ) + 1) then 366 else 365 := by split_ifs <;> decide
  by_cases hfeb : mp = 11
  · subst hfeb
    have hmonth : daysInMonth (yearOf era y 11) (monthOf 11) =
        if Calendar.IsLeap ((y : ℤ) + 1) then 29 else 28 := by
      have htwo : (monthOf 11 : ℤ) = 2 := by decide
      rw [daysInMonth, htwo, if_neg (by decide)]
      simp [hleap]
    rw [hmonth]
    split_ifs <;> decide
  · have hother : daysInMonth (yearOf era y mp) (monthOf mp) + Calendar.monthStart mp =
        Calendar.monthStart (mp + 1) := by
      have hnot : ¬ ((monthOf mp : ℤ) = 2 ∧ isLeapYear (yearOf era y mp) = true) := by
        unfold monthOf
        split_ifs <;> omega
      unfold daysInMonth
      rw [if_neg hnot]
      clear hnot hlen hleap
      interval_cases mp <;> first | rfl | exact absurd rfl hfeb
    have hle : Calendar.monthStart (mp + 1) ≤ 365 := by
      unfold Calendar.monthStart
      omega
    rw [hother, min_eq_left (by omega)]

/-- A date of the calendar. -/
def ValidDate (y m d : ℤ) : Prop := (1 ≤ m ∧ m ≤ 12) ∧ 1 ≤ d ∧ d ≤ daysInMonth y m

/-- A valid date in its cycle. -/
theorem ValidDate.exists_cycle {y : ℤ} {m d : ℕ} (h : ValidDate y m d) :
    ∃ (era : ℤ) (y₀ mp : ℕ), y₀ < 400 ∧ mp < 12 ∧ y = yearOf era y₀ mp ∧ m = monthOf mp ∧ 1 ≤ d ∧
      Calendar.monthStart mp + d ≤ (if Calendar.IsLeap ((y₀ : ℤ) + 1) then 366 else 365) ∧
      Calendar.monthStart mp + d ≤ Calendar.monthStart (mp + 1) := by
  obtain ⟨⟨hm1, hm12⟩, hd1, hd⟩ := h
  obtain ⟨mp, hmp, hm⟩ : ∃ mp < 12, m = monthOf mp := by
    refine ⟨if 2 < m then m - 3 else m + 9, ?_, ?_⟩
    · split_ifs <;> omega
    · unfold monthOf
      split_ifs <;> omega
  obtain ⟨era, y₀, hy₀, hy⟩ : ∃ (era : ℤ) (y₀ : ℕ), y₀ < 400 ∧ y = yearOf era y₀ mp := by
    by_cases hten : mp < 10
    · exact ⟨y / 400, (y % 400).toNat, by omega, by simp only [yearOf, if_pos hten]; omega⟩
    · exact ⟨(y - 1) / 400, ((y - 1) % 400).toNat, by omega,
        by simp only [yearOf, if_neg hten]; omega⟩
  have hlen := daysInMonth_eq era y₀ hmp
  rw [← hy, ← hm] at hlen
  exact ⟨era, y₀, mp, hy₀, hmp, hy, hm, by omega, by omega, by omega⟩

theorem year_fits {z era : ℤ} {y mp d : ℕ} (h : InRange z) (hy : y < 400) (hmp : mp < 12)
    (hd : 1 ≤ d)
    (hz : z = era * 146097 + Calendar.yearStart y + Calendar.monthStart mp + d - 719469)
    (hlen : Calendar.monthStart mp + d ≤ if Calendar.IsLeap ((y : ℤ) + 1) then 366 else 365)
    (hnext : Calendar.monthStart mp + d ≤ Calendar.monthStart (mp + 1)) :
    (yearOf era y mp).bmod (2 ^ 32) = yearOf era y mp := by
  have hhigh : daysFromCivil (2 ^ 31 - 1) 12 31 < daysFromCivil (2 ^ 31) 1 1 := by decide
  have hlow : -2 ^ 31 ≤ yearOf era y mp := by
    rw [← not_lt, ← lt_january_iff hy hmp hd hlen hnext, ← hz]
    exact not_lt.mpr h.1
  have hupp : yearOf era y mp < 2 ^ 31 := by
    rw [← lt_january_iff hy hmp hd hlen hnext, ← hz]
    exact h.2.trans_lt hhigh
  exact Int.bmod_eq_of_le (by omega) (by omega)

/-- **The day number of a day's date.** -/
theorem daysFromCivil_civilFromDays {z : ℤ} (h : InRange z) :
    daysFromCivil (civilFromDays z).1 (civilFromDays z).2.1 (civilFromDays z).2.2 = z := by
  obtain ⟨era, y, mp, d, hy, hmp, hd, hz, hlen, hnext, heq⟩ := civilFromDays_eq z
  rw [heq, year_fits h hy hmp hd hz hlen hnext, daysFromCivil_eq hy hmp hd, hz]

/-- **The date of a day is one of the calendar.** -/
theorem civilFromDays_valid {z : ℤ} (h : InRange z) :
    ValidDate (civilFromDays z).1 (civilFromDays z).2.1 (civilFromDays z).2.2 := by
  obtain ⟨era, y, mp, d, hy, hmp, hd, hz, hlen, hnext, heq⟩ := civilFromDays_eq z
  have hdays := daysInMonth_eq era y hmp
  rw [heq, year_fits h hy hmp hd hz hlen hnext]
  refine ⟨?_, by exact_mod_cast hd, ?_⟩
  · unfold monthOf
    dsimp only
    split_ifs <;> omega
  · dsimp only
    split_ifs at hlen hdays <;> omega

/-- **The date of a valid date's day number.** -/
theorem civilFromDays_daysFromCivil {y : ℤ} {m d : ℕ} (hy : -2 ^ 31 ≤ y ∧ y < 2 ^ 31)
    (h : ValidDate y m d) : civilFromDays (daysFromCivil y m d) = (y, m, d) := by
  obtain ⟨era, y₀, mp, hy₀, hmp, rfl, rfl, hd, hlen, hnext⟩ := h.exists_cycle
  obtain ⟨era', y', mp', d', hy', hmp', hd', hz, hlen', hnext', heq⟩ :=
    civilFromDays_eq (daysFromCivil (yearOf era y₀ mp) (monthOf mp) d)
  rw [daysFromCivil_eq hy₀ hmp hd] at hz
  have hyear := Calendar.length_year y₀ hy₀
  have hyear' := Calendar.length_year y' hy'
  -- The same day lies in the same year, and in it in the same month.
  obtain ⟨rfl, rfl⟩ : era = era' ∧ y₀ = y' := by
    obtain hlt | hsame | hgt : y₀ + era * 400 < y' + era' * 400 ∨ era = era' ∧ y₀ = y' ∨
        y' + era' * 400 < y₀ + era * 400 := by omega
    · have hafter := Calendar.yearStart_le hy₀ hlt hy'
      omega
    · exact hsame
    · have hafter := Calendar.yearStart_le hy' hgt hy₀
      omega
  obtain rfl : mp = mp' := by
    unfold Calendar.monthStart at hz hnext hnext'
    omega
  obtain rfl : d = d' := by omega
  rw [heq, Int.bmod_eq_of_le (by omega) (by omega)]

/-! ## Reading the fields -/

/-- `parse_latitude` and `parse_longitude`: the width and the bound of the degrees, and the letters
of the two hemispheres. -/
def parseCoordinate (a : FloatArith) (width limit : ℕ) (plus minus : Char) (raw : Str) : Option ℚ :=
  if raw.length < width + 2 then none
  else if (raw.take width).all Char.isDigit = false then none
  else
    let hemi := raw.getD width '\x00'
    if hemi ≠ plus ∧ hemi ≠ minus then none
    else if (raw.drop (width + 1)).all Char.isDigit = false then none
    else
      let degrees := Decimal.value (raw.take width)
      if limit < degrees then none
      else
        let digits := raw.drop (width + 1)
        let fraction := a.rnd (Decimal.value digits / 10 ^ digits.length)
        let value := a.rnd (degrees + fraction)
        if limit < value then none else some (if hemi = minus then -value else value)

/-- `parse_latitude`. -/
def parseLatitude (a : FloatArith) : Str → Option ℚ := parseCoordinate a 2 90 'N' 'S'

/-- `parse_longitude`. -/
def parseLongitude (a : FloatArith) : Str → Option ℚ := parseCoordinate a 3 180 'E' 'W'

/-- `parse_altitude`. -/
def parseAltitude (a : FloatArith) (raw : Str) : Option (ℚ × Char) :=
  if raw.length < 2 then none
  else
    let unit := raw.getLastD '\x00'
    if unit ≠ 'M' ∧ unit ≠ 'F' then none
    else if raw.dropLast.all Char.isDigit = false then none
    else some (a.rnd (Decimal.value raw.dropLast), unit)

/-- `parse_timestamp`. -/
def parseTimestamp (raw : Str) : Option (ℤ × Char) :=
  if raw.length ≠ 15 then none
  else if (raw.take 8).all Char.isDigit = false then none
  else
    let tz := raw.getD 8 '\x00'
    if tz < 'A' ∨ 'Z' < tz then none
    else if (raw.drop 9).all Char.isDigit = false then none
    else
      let field (from_ len : ℕ) : ℤ := Decimal.value ((raw.drop from_).take len)
      let year := field 0 4
      let month := field 4 2
      let day := field 6 2
      let hour := field 9 2
      let minute := field 11 2
      let second := field 13 2
      if month < 1 ∨ 12 < month then none
      else if day < 1 ∨ daysInMonth year month < day then none
      else if hour < 0 ∨ 23 < hour then none
      else if minute < 0 ∨ 59 < minute then none
      else if second < 0 ∨ 59 < second then none
      else
        let days := daysFromCivil year month.toNat day.toNat
        some (days * 86400 + hour * 3600 + minute * 60 + second, tz)

/-- `is_allowed_object_char`. -/
def isAllowedObjectChar (c : Char) : Bool :=
  ('A' ≤ c && c ≤ 'Z') || ('0' ≤ c && c ≤ '9') || c == ' ' || c == '#'

/-! ## `parse_gpr` -/

/-- `AleGpr`. -/
structure AleGpr where
  raw : Str
  object : Str := []
  comment : Str := []
  latitudeRaw : Str := []
  longitudeRaw : Str := []
  altitudeRaw : Str := []
  timeRaw : Str := []
  hasLatitude : Bool := false
  latitudeDeg : ℚ := 0
  hasLongitude : Bool := false
  longitudeDeg : ℚ := 0
  hasAltitude : Bool := false
  altitude : ℚ := 0
  altitudeUnit : Char := '\x00'
  hasTimestamp : Bool := false
  timestampUtc : ℤ := 0
  timezoneCode : Char := '\x00'
  validGprStructure : Bool := false
  validPosition : Bool := false
  validTimestamp : Bool := false
  manualOrInvalidPosition : Bool := false
  errors : List Str := []

/-- `is_gpr`. -/
def isGpr (amdText : Str) : Bool := amdText.takeWhile (· != '*') == ['G', 'P', 'R']

/-- What a field that may be marked with `#` gives. -/
inductive Reading (α : Type) where
  | value (v : α)
  | marked
  | invalid

namespace Reading

variable {α : Type}

/-- A field, with what its parser makes of it. -/
def ofField (raw : Str) (parsed : Option α) : Reading α :=
  if raw.contains '#' then marked
  else match parsed with
    | none => invalid
    | some v => value v

def isValue : Reading α → Bool
  | value _ => true
  | _ => false

def getD (default : α) : Reading α → α
  | value v => v
  | _ => default

/-- The message of an unparsable field. -/
def error (name raw : Str) : Reading α → List Str
  | invalid => ["invalid ".toList ++ name ++ " field: \"".toList ++ raw ++ ['"']]
  | _ => []

end Reading

/-- The messages about the object field. -/
def objectErrors (object : Str) : List Str :=
  (if object.length < 3 ∨ 15 < object.length then
    ["object field length out of range [3,15]: ".toList ++ Decimal.digits object.length] else []) ++
  if object.all isAllowedObjectChar = false then
    ["object field contains a disallowed character".toList] else []

/-- `parse_gpr` behind the split: the checks of the six fields. Every error clears `strict_ok`. -/
def readFields (a : FloatArith) (amdText : Str) (strict : Bool)
    (object latitudeRaw longitudeRaw altitudeRaw timeRaw comment : Str) : AleGpr :=
  let latitude := Reading.ofField latitudeRaw
    (if 9 < latitudeRaw.length then none else parseLatitude a latitudeRaw)
  let longitude := Reading.ofField longitudeRaw
    (if 10 < longitudeRaw.length then none else parseLongitude a longitudeRaw)
  let altitude := Reading.ofField altitudeRaw
    (if 7 < altitudeRaw.length then none else parseAltitude a altitudeRaw)
  let time := Reading.ofField timeRaw (parseTimestamp timeRaw)
  let errors := objectErrors object ++ latitude.error "latitude".toList latitudeRaw ++
    longitude.error "longitude".toList longitudeRaw ++
    altitude.error "altitude".toList altitudeRaw ++ time.error "time".toList timeRaw ++
    if 25 < comment.length then ["comment field exceeds 25 characters".toList] else []
  { raw := amdText, object, comment, latitudeRaw, longitudeRaw, altitudeRaw, timeRaw
    hasLatitude := latitude.isValue
    latitudeDeg := latitude.getD 0
    hasLongitude := longitude.isValue
    longitudeDeg := longitude.getD 0
    hasAltitude := altitude.isValue
    altitude := (altitude.getD (0, '\x00')).1
    altitudeUnit := (altitude.getD (0, '\x00')).2
    hasTimestamp := time.isValue
    timestampUtc := (time.getD (0, '\x00')).1
    timezoneCode := (time.getD (0, '\x00')).2
    validGprStructure := !strict || errors.isEmpty
    validPosition := latitude.isValue && longitude.isValue
    validTimestamp := time.isValue
    manualOrInvalidPosition := !latitude.isValue || !longitude.isValue || !altitude.isValue ||
      !time.isValue
    errors }

/-- `parse_gpr`. -/
def parseGpr (a : FloatArith) (amdText : Str) (strict : Bool) : AleGpr :=
  match amdText.splitOn '*' with
  | [] => { raw := amdText }
  | first :: rest =>
    if first ≠ ['G', 'P', 'R'] then
      { raw := amdText, errors := ["not an ALE-GPR message (missing \"GPR\" prefix)".toList] }
    else
      match rest with
      | [object, latitudeRaw, longitudeRaw, altitudeRaw, timeRaw, comment] =>
        readFields a amdText strict object latitudeRaw longitudeRaw altitudeRaw timeRaw comment
      | _ =>
        { raw := amdText
          errors := ["invalid ALE-GPR structure: expected 7 fields, got ".toList ++
            Decimal.digits (rest.length + 1)] }

/-! ## `generate_gpr` -/

/-- `std::to_string`. -/
def toString (value : ℤ) : Str :=
  if value < 0 then '-' :: Decimal.digits (-value).toNat else Decimal.digits value.toNat

/-- `zero_pad`. -/
def zeroPad (value : ℤ) (width : ℕ) : Str :=
  List.replicate (width - (toString value).length) '0' ++ toString value

/-- `strip_delimiter`. -/
def stripDelimiter (s : Str) : Str := s.map fun c => if c = '*' then '#' else c

/-- The latitude and the longitude field: the width of the degrees and the letters of the two
hemispheres. -/
def coordinateField (a : FloatArith) (width : ℕ) (plus minus : Char) (deg : ℚ) : Str :=
  let hemi := if deg < 0 then minus else plus
  let degrees := ⌊|deg|⌋
  let frac := a.lround (a.rnd (a.rnd (|deg| - degrees) * 1000000))
  let carry := 1000000 ≤ frac
  zeroPad (if carry then degrees + 1 else degrees) width ++ hemi ::
    zeroPad (if carry then frac - 1000000 else frac) 6

/-- `lat_field`. -/
def latField (a : FloatArith) : ℚ → Str := coordinateField a 2 'N' 'S'

/-- `lon_field`. -/
def lonField (a : FloatArith) : ℚ → Str := coordinateField a 3 'E' 'W'

/-- What is reported: the arguments of `generate_gpr`. -/
structure Report where
  object : Str
  latDeg : ℚ
  lonDeg : ℚ
  hasAltitude : Bool
  altitude : ℚ
  altitudeUnit : Char
  timestampUtc : ℤ
  timezoneCode : Char
  comment : Str

/-- `alt_unit`. -/
def Report.altUnit (r : Report) : Char := if r.altitudeUnit = '\x00' then 'M' else r.altitudeUnit

/-- `tz`. -/
def Report.tz (r : Report) : Char := if r.timezoneCode = '\x00' then 'Z' else r.timezoneCode

/-- `alt_field`. -/
def altField (a : FloatArith) (r : Report) : Str :=
  if r.hasAltitude then zeroPad (a.lround r.altitude) 6 ++ [r.altUnit] else ['#', r.altUnit]

/-- The day and the second of the day; `rem` is made non-negative. -/
def dayOf (timestamp : ℤ) : ℤ × ℤ :=
  let days := timestamp.tdiv 86400
  let rem := timestamp.tmod 86400
  if rem < 0 then (days - 1, rem + 86400) else (days, rem)

/-- `time_field`. -/
def timeField (r : Report) : Str :=
  let (days, rem) := dayOf r.timestampUtc
  let (y, mo, d) := civilFromDays days
  zeroPad y 4 ++ zeroPad mo 2 ++ zeroPad d 2 ++ [r.tz] ++ zeroPad (rem.tdiv 3600) 2 ++
    zeroPad ((rem.tmod 3600).tdiv 60) 2 ++ zeroPad (rem.tmod 60) 2

/-- The object and the comment: without delimiters, cut to a length. -/
def freeText (s : Str) (length : ℕ) : Str := (stripDelimiter s).take length

/-- `generate_gpr`. -/
def generateGpr (a : FloatArith) (r : Report) : Str :=
  List.intercalate ['*'] [['G', 'P', 'R'], freeText r.object 15, latField a r.latDeg,
    lonField a r.lonDeg, altField a r, timeField r, freeText r.comment 25]

/-! ## Numbers in a field -/

theorem zeroPad_natCast (n w : ℕ) : zeroPad (n : ℤ) w = Decimal.pad n w := by
  have hstr : toString (n : ℤ) = Decimal.digits n := by
    rw [toString, if_neg (by omega), Int.toNat_natCast]
  rw [zeroPad, hstr, Decimal.pad]

theorem zeroPad_of_nonneg {k : ℤ} (h : 0 ≤ k) (w : ℕ) : zeroPad k w = Decimal.pad k.toNat w := by
  rw [← zeroPad_natCast, Int.toNat_of_nonneg h]

theorem mem_zeroPad {k : ℤ} {w : ℕ} {c : Char} (h : c ∈ zeroPad k w) : c.isDigit = true ∨ c = '-' := by
  obtain h | h := List.mem_append.mp h
  · rw [List.eq_of_mem_replicate h]
    exact .inl (by decide)
  · unfold toString at h
    split at h
    · obtain rfl | h := List.mem_cons.mp h
      · exact .inr rfl
      · exact .inl (Decimal.isDigit_of_mem h)
    · exact .inl (Decimal.isDigit_of_mem h)

theorem minus_mem_zeroPad {k : ℤ} (h : k < 0) (w : ℕ) : '-' ∈ zeroPad k w := by
  rw [zeroPad, toString, if_pos h]
  simp

theorem all_isDigit_pad (n w : ℕ) : (Decimal.pad n w).all Char.isDigit = true :=
  List.all_eq_true.mpr fun _ h => Decimal.isDigit_of_mem_pad h

/-! ## Coordinates -/

section coordinates

variable (a : FloatArith) {deg : ℚ} {width limit : ℕ} {plus minus hemi : Char} {whole frac : ℕ}

/-- The value of a coordinate field, without its sign. -/
def coordinateValue (whole frac : ℕ) : ℚ := a.rnd (whole + a.rnd (frac / 1000000))

/-- **The field of a coordinate**: the coordinate in millionths of a degree, rounded. -/
theorem coordinateField_eq (width : ℕ) (plus minus : Char) (h : |deg| ≤ limit)
    (hlimit : limit ≤ 180) : ∃ whole frac : ℕ,
    coordinateField a width plus minus deg =
      Decimal.pad whole width ++ (if deg < 0 then minus else plus) :: Decimal.pad frac 6 ∧
    frac < 10 ^ 6 ∧ whole ≤ limit ∧ (whole = limit → frac = 0) ∧
    |(whole * 1000000 + frac : ℚ) - |deg| * 1000000| ≤ 1 / 2 + 1 / 2 ^ 30 := by
  have hfloor := Int.floor_le |deg|
  have hfloor' := Int.lt_floor_add_one |deg|
  obtain ⟨w, hw⟩ : ∃ w : ℕ, ⌊|deg|⌋ = w :=
    Int.eq_ofNat_of_zero_le (Int.floor_nonneg.mpr (abs_nonneg deg))
  rw [hw, Int.cast_natCast] at hfloor hfloor'
  have hwl : w ≤ limit := by exact_mod_cast hfloor.trans h
  -- What is behind the point, and its millionths.
  have hf0 : 0 ≤ |deg| - w := by linarith
  have hf1 : |deg| - w ≤ (1 : ℕ) := by push_cast; linarith
  obtain ⟨hr0, hr1⟩ := a.rnd_mem (by norm_num) hf0 hf1
  have hrnear := a.rnd_near (by norm_num) hf0 hf1
  set r := a.rnd (|deg| - w) with hr
  have hp0 : 0 ≤ r * 1000000 := by positivity
  have hp1 : r * 1000000 ≤ (1000000 : ℕ) := by
    push_cast at hr1 ⊢
    linarith
  obtain ⟨hq0, hq1⟩ := a.rnd_mem (by norm_num) hp0 hp1
  have hqnear := a.rnd_near (by norm_num) hp0 hp1
  set q := a.rnd (r * 1000000) with hq
  push_cast at hq1 hr1 hrnear hqnear
  have hqabs : |q| < 2 ^ 31 - 1 := by
    rw [abs_of_nonneg hq0]
    exact hq1.trans_lt (by norm_num)
  have hround := halfAway_near q
  rw [← a.lround_eq q hqabs] at hround
  obtain ⟨n, hn⟩ : ∃ n : ℕ, a.lround q = n := by
    refine Int.eq_ofNat_of_zero_le ?_
    rw [a.lround_eq q hqabs, halfAway_nonneg_iff]
    linarith
  have hnle : n ≤ 1000000 := by
    have hlt : halfAway q < (1000001 : ℕ) := (halfAway_lt_iff (by norm_num)).mpr (by
      push_cast
      linarith)
    rw [← a.lround_eq q hqabs, hn] at hlt
    omega
  rw [hn, Int.cast_natCast] at hround
  have hfull : w = limit → n = 0 := by
    rintro rfl
    have hzero : a.rnd 0 = 0 := by exact_mod_cast a.rnd_natCast (n := 0) (Nat.zero_le _)
    have hr' : r = 0 := by rw [hr, le_antisymm h hfloor, sub_self, hzero]
    have hq' : q = 0 := by rw [hq, hr', zero_mul, hzero]
    rw [hq', a.lround_eq 0 (by norm_num), halfAway_zero] at hn
    omega
  have herr : |(w * 1000000 + n : ℚ) - |deg| * 1000000| ≤ 1 / 2 + 1 / 2 ^ 30 := by
    rw [abs_le] at hround hrnear hqnear ⊢
    constructor <;> linarith
  have hfield : coordinateField a width plus minus deg =
      zeroPad (if (1000000 : ℤ) ≤ n then w + 1 else w) width ++
        (if deg < 0 then minus else plus) ::
          zeroPad (if (1000000 : ℤ) ≤ n then n - 1000000 else n) 6 := by
    simp only [coordinateField, hw, Int.cast_natCast, ← hr, ← hq, hn]
  by_cases hcarry : 1000000 ≤ n
  · obtain rfl : n = 1000000 := by omega
    refine ⟨w + 1, 0, ?_, by norm_num, ?_, fun _ => rfl, ?_⟩
    · rw [hfield, ← zeroPad_natCast, ← zeroPad_natCast]
      rfl
    · have hne : w ≠ limit := fun heq => by simpa using hfull heq
      omega
    · push_cast at herr ⊢
      convert herr using 2
      ring
  · refine ⟨w, n, ?_, by omega, hwl, hfull, herr⟩
    have hnot : ¬ (1000000 : ℤ) ≤ n := by omega
    rw [hfield, ← zeroPad_natCast, ← zeroPad_natCast]
    simp only [if_neg hnot]

theorem coordinateValue_spec (hfrac : frac < 10 ^ 6) (hwhole : whole ≤ limit) (hlimit : limit ≤ 180)
    (hfull : whole = limit → frac = 0) :
    0 ≤ coordinateValue a whole frac ∧ coordinateValue a whole frac ≤ limit ∧
      |coordinateValue a whole frac - (whole * 1000000 + frac) / 1000000| ≤ 1 / 2 ^ 44 := by
  have hfrac' : (frac : ℚ) < 1000000 := by exact_mod_cast hfrac
  have hf0 : (0 : ℚ) ≤ frac / 1000000 := by positivity
  have hf1 : (frac / 1000000 : ℚ) ≤ (1 : ℕ) := by
    rw [div_le_iff₀ (by norm_num)]
    push_cast
    linarith
  obtain ⟨hr0, hr1⟩ := a.rnd_mem (by norm_num) hf0 hf1
  have hrnear := a.rnd_near (by norm_num) hf0 hf1
  have hsum : (whole + a.rnd (frac / 1000000) : ℚ) ≤ limit := by
    obtain rfl | hlt := hwhole.eq_or_lt
    · have hzero : a.rnd 0 = 0 := by exact_mod_cast a.rnd_natCast (n := 0) (Nat.zero_le _)
      rw [hfull rfl, Nat.cast_zero, zero_div, hzero, add_zero]
    · have hle : (whole : ℚ) + 1 ≤ limit := by exact_mod_cast hlt
      push_cast at hr1
      linarith
  have hsum0 : (0 : ℚ) ≤ whole + a.rnd (frac / 1000000) := by positivity
  have hlim : (limit : ℚ) ≤ 180 := by exact_mod_cast hlimit
  obtain ⟨hv0, hv1⟩ := a.rnd_mem (n := limit) (hlimit.trans (by norm_num)) hsum0 hsum
  have hvnear := a.rnd_near (n := limit) (hlimit.trans (by norm_num)) hsum0 hsum
  refine ⟨hv0, hv1, ?_⟩
  have hexact : ((whole * 1000000 + frac) / 1000000 : ℚ) = whole + frac / 1000000 := by ring
  rw [hexact]
  unfold coordinateValue
  rw [abs_le] at hrnear hvnear ⊢
  push_cast at hrnear
  have hsmall : (limit / 2 ^ 53 : ℚ) ≤ 180 / 2 ^ 53 := by gcongr
  constructor <;> linarith

/-- **The field of a coordinate is read back.** -/
theorem parseCoordinate_field (hw : 0 < width) (hwidth : limit < 10 ^ width) (hlimit : limit ≤ 180)
    (hfrac : frac < 10 ^ 6) (hwhole : whole ≤ limit) (hfull : whole = limit → frac = 0)
    (hhemi : hemi = plus ∨ hemi = minus) :
    parseCoordinate a width limit plus minus (Decimal.pad whole width ++ hemi :: Decimal.pad frac 6) =
      some (if hemi = minus then -coordinateValue a whole frac else coordinateValue a whole frac) := by
  have hlen := Decimal.length_pad hw (hwhole.trans_lt hwidth)
  have hlen6 := Decimal.length_pad (by decide) hfrac
  set raw := Decimal.pad whole width ++ hemi :: Decimal.pad frac 6 with hraw
  have hrawLen : raw.length = width + 7 := by
    rw [hraw, List.length_append, List.length_cons, hlen, hlen6]
  have htake : raw.take width = Decimal.pad whole width := List.take_left' hlen
  have hdrop : raw.drop (width + 1) = Decimal.pad frac 6 := by
    rw [← List.drop_drop, hraw, List.drop_left' hlen]
    rfl
  have hget : raw.getD width '\x00' = hemi := by
    rw [hraw, List.getD_append_right _ _ _ _ hlen.le, hlen, Nat.sub_self]
    rfl
  obtain ⟨-, hle, -⟩ := coordinateValue_spec a hfrac hwhole hlimit hfull
  have hnot : ¬ (hemi ≠ plus ∧ hemi ≠ minus) := by tauto
  unfold parseCoordinate
  rw [if_neg (by omega), htake, if_neg (by rw [all_isDigit_pad]; decide)]
  dsimp only
  rw [hget, if_neg hnot, hdrop, if_neg (by rw [all_isDigit_pad]; decide), Decimal.value_pad,
    if_neg (not_lt.mpr hwhole), Decimal.value_pad, hlen6]
  have hpow : ((10 : ℚ) ^ 6) = 1000000 := by norm_num
  rw [hpow]
  exact if_neg (not_lt.mpr hle)

end coordinates

/-! ## The altitude -/

section altitude

variable (a : FloatArith) {n : ℕ} {unit : Char} {raw : Str}

theorem parseAltitude_field (hn : n < 10 ^ 6) (hunit : unit = 'M' ∨ unit = 'F') :
    parseAltitude a (Decimal.pad n 6 ++ [unit]) = some ((n : ℚ), unit) := by
  have hlen := Decimal.length_pad (by decide) hn
  have hnot : ¬ (unit ≠ 'M' ∧ unit ≠ 'F') := by tauto
  have hlast : (Decimal.pad n 6 ++ [unit]).getLastD '\x00' = unit := by simp
  have hinit : (Decimal.pad n 6 ++ [unit]).dropLast = Decimal.pad n 6 := List.dropLast_concat
  have hlong : ¬ (Decimal.pad n 6 ++ [unit]).length < 2 := by
    rw [List.length_append, hlen, List.length_singleton]
    decide
  have hbig : n ≤ 2 ^ 53 := hn.le.trans (by norm_num)
  unfold parseAltitude
  rw [if_neg hlong]
  dsimp only
  rw [hlast, if_neg hnot, hinit, if_neg (by rw [all_isDigit_pad]; decide), Decimal.value_pad,
    a.rnd_natCast hbig]

/-- A field that is accepted and not too long stands for a number of six digits. -/
theorem of_parseAltitude {k : ℤ} {v : ℚ × Char} (hlen : (zeroPad k 6 ++ [unit]).length ≤ 7)
    (h : parseAltitude a (zeroPad k 6 ++ [unit]) = some v) :
    (0 ≤ k ∧ k < 10 ^ 6) ∧ (unit = 'M' ∨ unit = 'F') := by
  have hlast : (zeroPad k 6 ++ [unit]).getLastD '\x00' = unit := by simp
  have hinit : (zeroPad k 6 ++ [unit]).dropLast = zeroPad k 6 := List.dropLast_concat
  unfold parseAltitude at h
  dsimp only at h
  rw [hlast, hinit] at h
  split_ifs at h with hshort hunit hdigits
  refine ⟨?_, by tauto⟩
  have hpos : 0 ≤ k := by
    by_contra hneg
    have hmem := minus_mem_zeroPad (not_le.mp hneg) 6
    have hall : ∀ c ∈ zeroPad k 6, c.isDigit = true := by simpa using hdigits
    exact absurd (hall _ hmem) (by decide)
  refine ⟨hpos, ?_⟩
  rw [List.length_append, List.length_singleton, zeroPad_of_nonneg hpos, Decimal.pad,
    List.length_append] at hlen
  have hdigitsLen : (Decimal.digits k.toNat).length ≤ 6 := by omega
  have hlt := (Decimal.length_digits_le (by decide)).mp hdigitsLen
  omega

end altitude

/-! ## The time -/

/-- The times of the years of four digits. -/
def FourDigitYear (ts : ℤ) : Prop :=
  daysFromCivil 0 1 1 * 86400 ≤ ts ∧ ts < daysFromCivil 10000 1 1 * 86400

theorem dayOf_eq (ts : ℤ) : dayOf ts = (ts / 86400, ts % 86400) := by
  unfold dayOf
  dsimp only
  rw [Int.tmod_def]
  obtain hpos | hneg := le_or_gt 0 ts
  · rw [Int.tdiv_eq_ediv_of_nonneg hpos, if_neg (by omega), Prod.mk.injEq]
    omega
  · have hnonneg : 0 ≤ -ts := by omega
    have hdiv : ts.tdiv 86400 = -(-ts / 86400) := by
      conv_lhs => rw [← neg_neg ts, Int.neg_tdiv, Int.tdiv_eq_ediv_of_nonneg hnonneg]
    rw [hdiv]
    split_ifs <;> rw [Prod.mk.injEq] <;> omega

/-- The day of a time of a four-digit year, and its date. -/
theorem date_of_fourDigitYear {ts : ℤ} (h : FourDigitYear ts) : ∃ y m d : ℕ,
    civilFromDays (ts / 86400) = ((y : ℤ), m, d) ∧ y < 10000 ∧ ValidDate y m d ∧
      daysFromCivil y m d = ts / 86400 := by
  obtain ⟨hlow, hhigh⟩ := h
  have hfirst : daysFromCivil (-2 ^ 31) 1 1 < daysFromCivil 0 1 1 := by decide
  have hlast : daysFromCivil 10000 1 1 < daysFromCivil (2 ^ 31 - 1) 12 31 := by decide
  have hday0 : daysFromCivil 0 1 1 ≤ ts / 86400 := by omega
  have hday1 : ts / 86400 < daysFromCivil 10000 1 1 := by omega
  have hrange : InRange (ts / 86400) := ⟨by omega, by omega⟩
  have hvalid := civilFromDays_valid hrange
  have hinv := daysFromCivil_civilFromDays hrange
  obtain ⟨era, y, mp, d, hy, hmp, hd, hz, hlen, hnext, heq⟩ := civilFromDays_eq (ts / 86400)
  have hyear : 0 ≤ yearOf era y mp ∧ yearOf era y mp < 10000 := by
    rw [← not_lt, ← lt_january_iff hy hmp hd hlen hnext, ← lt_january_iff hy hmp hd hlen hnext, ← hz]
    exact ⟨not_lt.mpr hday0, hday1⟩
  rw [year_fits hrange hy hmp hd hz hlen hnext] at heq
  obtain ⟨n, hn⟩ := Int.eq_ofNat_of_zero_le hyear.1
  rw [hn] at heq hyear
  rw [heq] at hvalid hinv
  exact ⟨n, monthOf mp, d, heq, by omega, hvalid, hinv⟩

/-- The day numbers of the four-digit years. -/
theorem daysFromCivil_mem {y m d : ℕ} (hy : y < 10000) (h : ValidDate y m d) :
    daysFromCivil 0 1 1 ≤ daysFromCivil y m d ∧ daysFromCivil y m d < daysFromCivil 10000 1 1 := by
  obtain ⟨era, y₀, mp, hy₀, hmp, hyear, rfl, hd, hlen, hnext⟩ := h.exists_cycle
  rw [hyear, daysFromCivil_eq hy₀ hmp hd, lt_january_iff hy₀ hmp hd hlen hnext, ← hyear, ← not_lt,
    lt_january_iff hy₀ hmp hd hlen hnext, ← hyear]
  omega

/-- What is read as a time is one of a four-digit year. -/
theorem fourDigitYear_of_parse {raw : Str} {ts : ℤ} {tz : Char}
    (h : parseTimestamp raw = some (ts, tz)) :
    FourDigitYear ts ∧ 'A' ≤ raw.getD 8 '\x00' ∧ raw.getD 8 '\x00' ≤ 'Z' := by
  unfold parseTimestamp at h
  dsimp only at h
  split_ifs at h with hlen hfront htz hback hmonth hday hhour hminute hsecond
  rw [Option.some.injEq, Prod.mk.injEq, List.drop_zero, Int.toNat_natCast, Int.toNat_natCast] at h
  rw [List.drop_zero] at hday
  have hyear : Decimal.value (raw.take 4) < 10000 := by
    have hdigits : ∀ c ∈ raw.take 4, c.isDigit = true := by
      intro c hc
      have hall : (raw.take 8).all Char.isDigit = true := by simpa using hfront
      refine List.all_eq_true.mp hall c (List.mem_of_mem_take (i := 4) ?_)
      rwa [List.take_take]
    have hlt := Decimal.value_lt hdigits
    have hfour : (raw.take 4).length = 4 := by
      rw [List.length_take]
      omega
    rwa [hfour] at hlt
  have hvalid : ValidDate (Decimal.value (raw.take 4)) (Decimal.value ((raw.drop 4).take 2))
      (Decimal.value ((raw.drop 6).take 2)) := ⟨by omega, by omega⟩
  obtain ⟨hlow, hhigh⟩ := daysFromCivil_mem hyear hvalid
  refine ⟨⟨by omega, by omega⟩, ?_⟩
  rwa [not_or, not_lt, not_lt] at htz

/-- The field of a time of a four-digit year. -/
theorem timeField_eq {r : Report} (h : FourDigitYear r.timestampUtc) : ∃ y m d hh mm ss : ℕ,
    timeField r = Decimal.pad y 4 ++ Decimal.pad m 2 ++ Decimal.pad d 2 ++ [r.tz] ++
      Decimal.pad hh 2 ++ Decimal.pad mm 2 ++ Decimal.pad ss 2 ∧
    y < 10000 ∧ ValidDate y m d ∧ hh < 24 ∧ mm < 60 ∧ ss < 60 ∧
    daysFromCivil y m d * 86400 + hh * 3600 + mm * 60 + ss = r.timestampUtc := by
  obtain ⟨y, m, d, hdate, hy, hvalid, hdays⟩ := date_of_fourDigitYear h
  obtain ⟨rem, hrem, hlt⟩ : ∃ rem : ℕ, r.timestampUtc % 86400 = rem ∧ rem < 86400 :=
    ⟨(r.timestampUtc % 86400).toNat, by omega, by omega⟩
  refine ⟨y, m, d, rem / 3600, rem % 3600 / 60, rem % 60, ?_, hy, hvalid, by omega, by omega,
    by omega, by omega⟩
  unfold timeField
  rw [dayOf_eq]
  dsimp only
  rw [hdate, hrem]
  dsimp only
  have hhour : (rem : ℤ).tdiv 3600 = ((rem / 3600 : ℕ) : ℤ) := rfl
  have hminute : ((rem : ℤ).tmod 3600).tdiv 60 = ((rem % 3600 / 60 : ℕ) : ℤ) := rfl
  have hsecond : (rem : ℤ).tmod 60 = ((rem % 60 : ℕ) : ℤ) := rfl
  rw [hhour, hminute, hsecond]
  simp only [zeroPad_natCast]

theorem daysInMonth_le (y m : ℤ) : daysInMonth y m ≤ 31 := by
  unfold daysInMonth
  split_ifs with hout
  · decide
  · decide
  · obtain ⟨k, hk, hlt⟩ : ∃ k : ℕ, (m - 1).toNat = k ∧ k < 12 := ⟨_, rfl, by omega⟩
    rw [hk]
    clear hk
    interval_cases k <;> decide

/-- **The field of a time is read back.** -/
theorem parseTimestamp_field {y m d hh mm ss : ℕ} {tz : Char} (hy : y < 10000)
    (hvalid : ValidDate y m d) (hhh : hh < 24) (hmm : mm < 60) (hss : ss < 60)
    (htz : 'A' ≤ tz ∧ tz ≤ 'Z') :
    parseTimestamp (Decimal.pad y 4 ++ Decimal.pad m 2 ++ Decimal.pad d 2 ++ [tz] ++
      Decimal.pad hh 2 ++ Decimal.pad mm 2 ++ Decimal.pad ss 2) =
      some (daysFromCivil y m d * 86400 + hh * 3600 + mm * 60 + ss, tz) := by
  obtain ⟨⟨hm1, hm12⟩, hd1, hd⟩ := hvalid
  have hd31 := hd.trans (daysInMonth_le y m)
  obtain ⟨y1, y2, y3, y4, hyear⟩ := List.length_eq_four.mp (Decimal.length_pad (w := 4) (by decide) hy)
  have htwo {n : ℕ} (h : n < 100) : ∃ c1 c2, Decimal.pad n 2 = [c1, c2] :=
    List.length_eq_two.mp (Decimal.length_pad (by decide) h)
  obtain ⟨m1, m2, hmonth⟩ := htwo (n := m) (by omega)
  obtain ⟨d1, d2, hday⟩ := htwo (n := d) (by omega)
  obtain ⟨h1, h2, hhour⟩ := htwo (n := hh) (by omega)
  obtain ⟨n1, n2, hminute⟩ := htwo (n := mm) (by omega)
  obtain ⟨s1, s2, hsecond⟩ := htwo (n := ss) (by omega)
  have hfront : (Decimal.pad y 4 ++ Decimal.pad m 2 ++ Decimal.pad d 2).all Char.isDigit = true := by
    simp only [List.all_append, all_isDigit_pad, Bool.and_self]
  have hback : (Decimal.pad hh 2 ++ Decimal.pad mm 2 ++ Decimal.pad ss 2).all Char.isDigit = true := by
    simp only [List.all_append, all_isDigit_pad, Bool.and_self]
  have hyv := Decimal.value_pad y 4
  have hmv := Decimal.value_pad m 2
  have hdv := Decimal.value_pad d 2
  have hhv := Decimal.value_pad hh 2
  have hnv := Decimal.value_pad mm 2
  have hsv := Decimal.value_pad ss 2
  rw [hyear] at hyv hfront
  rw [hmonth] at hmv hfront
  rw [hday] at hdv hfront
  rw [hhour] at hhv hback
  rw [hminute] at hnv hback
  rw [hsecond] at hsv hback
  rw [hyear, hmonth, hday, hhour, hminute, hsecond]
  simp only [List.cons_append, List.nil_append] at hfront hback ⊢
  simp only [parseTimestamp, List.length_cons, List.length_nil, List.take_succ_cons, List.take_zero,
    List.drop_succ_cons, List.drop_zero, hfront, hback, hyv, hmv, hdv, hhv, hnv, hsv]
  have hget : [y1, y2, y3, y4, m1, m2, d1, d2, tz, h1, h2, n1, n2, s1, s2].getD 8 '\x00' = tz := rfl
  have hnot : ¬ (tz < 'A' ∨ 'Z' < tz) := by
    rw [not_or, not_lt, not_lt]
    exact htz
  rw [if_neg (by decide), if_neg (by decide), hget, if_neg hnot, if_neg (by decide),
    if_neg (by omega), if_neg (by omega), if_neg (by omega), if_neg (by omega), if_neg (by omega),
    Int.toNat_natCast, Int.toNat_natCast]

end Gpr

end OpenALE

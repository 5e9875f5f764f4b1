import OpenALE.Library.Text
import OpenALE.Message.Gpr

/-!
# Position reports are read back

The round trip of `generate_gpr` and `parse_gpr`. A negative altitude is printed with its sign
between the leading zeros, and one of seven digits does not fit its field; neither is read back.
-/

namespace OpenALE

namespace Gpr

variable (a : FloatArith) {r : Report}

/-- A coordinate comes back in millionths of a degree, rounded, with its sign. -/
def Rounds (deg v : ℚ) : Prop :=
  (∃ n : ℤ, |n - deg * 1000000| ≤ 1 / 2 + 1 / 2 ^ 30 ∧ |v - n / 1000000| ≤ 1 / 2 ^ 44) ∧
    (deg < 0 → v ≤ 0) ∧ (0 ≤ deg → 0 ≤ v)

/-- An altitude comes back as a whole number, rounded, with its sign. -/
def RoundsAltitude (altitude v : ℚ) : Prop :=
  (∃ n : ℤ, v = n ∧ |n - altitude| ≤ 1 / 2) ∧ (altitude < 0 → v ≤ 0) ∧ (0 ≤ altitude → 0 ≤ v)

/-- The report comes back: structurally valid, with the same callsign, coordinates, altitude and
time, and with the comment as far as it was sent; the text fits an orderwire message, and the
calendar's two conversions are inverse. -/
structure Restored (r : Report) (text : Str) (g : AleGpr) : Prop where
  structure_valid : g.validGprStructure = true
  object : g.object = r.object
  latitude : g.hasLatitude = true ∧ Rounds r.latDeg g.latitudeDeg
  longitude : g.hasLongitude = true ∧ Rounds r.lonDeg g.longitudeDeg
  altitude : r.hasAltitude = true →
    g.hasAltitude = true ∧ RoundsAltitude r.altitude g.altitude ∧ g.altitudeUnit = r.altUnit
  noAltitude : r.hasAltitude = false → g.hasAltitude = false
  time : g.hasTimestamp = true ∧ g.timestampUtc = r.timestampUtc ∧ g.timezoneCode = r.tz
  comment : g.comment = freeText r.comment 25
  length : text.length ≤ 90
  days : ∀ z, InRange z →
    daysFromCivil (civilFromDays z).1 (civilFromDays z).2.1 (civilFromDays z).2.2 = z
  dates : ∀ (y : ℤ) (m d : ℕ), -2 ^ 31 ≤ y ∧ y < 2 ^ 31 → ValidDate y m d →
    civilFromDays (daysFromCivil y m d) = (y, m, d)

/-- What a report can carry: a callsign that fits, an altitude that rounds to a number of at most
six digits, in metres or feet, a time of a four-digit year with a letter for its zone. -/
structure Admits (r : Report) : Prop where
  object : r.object.length ≤ 15 ∧ '*' ∉ r.object
  altitude : r.hasAltitude = true →
    (-1 / 2 < r.altitude ∧ r.altitude < 1000000 - 1 / 2) ∧ (r.altUnit = 'M' ∨ r.altUnit = 'F')
  unit : r.hasAltitude = false → r.altUnit ≠ '*'
  time : FourDigitYear r.timestampUtc
  zone : 'A' ≤ r.tz ∧ r.tz ≤ 'Z'

/-! ## The fields of the text -/

theorem star_not_mem_freeText (s : Str) (n : ℕ) : '*' ∉ freeText s n := by
  intro h
  obtain ⟨c, -, hc⟩ := List.mem_map.mp (List.mem_of_mem_take h)
  split_ifs at hc with hstar
  · revert hc
    decide
  · exact hstar hc

theorem freeText_eq_iff {s : Str} {n : ℕ} : freeText s n = s ↔ s.length ≤ n ∧ '*' ∉ s := by
  constructor
  · intro h
    have hlen : (freeText s n).length ≤ n := List.length_take_le n _
    have hstar := star_not_mem_freeText s n
    rw [h] at hlen hstar
    exact ⟨hlen, hstar⟩
  · rintro ⟨hlen, hstar⟩
    have hmap : stripDelimiter s = s := by
      unfold stripDelimiter
      conv_rhs => rw [← List.map_id s]
      refine List.map_congr_left fun c hc => if_neg ?_
      rintro rfl
      exact hstar hc
    rw [freeText, hmap, List.take_of_length_le hlen]

theorem star_not_mem_coordinateField {deg : ℚ} {width limit : ℕ} {plus minus : Char}
    (h : |deg| ≤ limit) (hlimit : limit ≤ 180) (hplus : plus ≠ '*') (hminus : minus ≠ '*') :
    '*' ∉ coordinateField a width plus minus deg := by
  obtain ⟨whole, frac, heq, -⟩ := coordinateField_eq a width plus minus h hlimit
  have hdigit {n w : ℕ} : '*' ∉ Decimal.pad n w := fun hc =>
    absurd (Decimal.isDigit_of_mem_pad hc) (by decide)
  have hhemi : '*' ≠ if deg < 0 then minus else plus := by
    split_ifs
    · exact hminus.symm
    · exact hplus.symm
  rw [heq, List.mem_append, List.mem_cons]
  rintro (hc | hc | hc)
  · exact hdigit hc
  · exact hhemi hc
  · exact hdigit hc

theorem star_mem_altField : '*' ∈ altField a r ↔ r.altUnit = '*' := by
  have hpad {k : ℤ} {w : ℕ} : '*' ∉ zeroPad k w := fun hc => by
    obtain hd | hd := mem_zeroPad hc <;> revert hd <;> decide
  unfold altField
  split_ifs
  · simp [hpad, eq_comm]
  · simp [eq_comm]

theorem star_mem_timeField : '*' ∈ timeField r ↔ r.tz = '*' := by
  have hpad {k : ℤ} {w : ℕ} : '*' ∉ zeroPad k w := fun hc => by
    obtain hd | hd := mem_zeroPad hc <;> revert hd <;> decide
  simp [timeField, hpad, eq_comm]

/-- A text is split into as many fields as it has delimiters, and one. -/
theorem length_splitOn (s : Str) : (s.splitOn '*').length = s.count '*' + 1 := by
  rw [List.splitOn_eq_splitOnP]
  induction s with
  | nil => rfl
  | cons c s ih =>
    rw [List.splitOnP_cons_eq_if_modifyHead, List.count_cons]
    split_ifs with hc
    · rw [List.length_cons, ih]
    · rw [List.length_modifyHead, ih, Nat.add_zero]

/-- The field of a coordinate is accepted, and what it stands for is the coordinate, rounded. -/
theorem reading_coordinateField {deg : ℚ} {width limit : ℕ} {plus minus : Char} (hw : 0 < width)
    (hwidth : limit < 10 ^ width) (hlimit : limit ≤ 180) (h : |deg| ≤ limit) (hne : plus ≠ minus)
    (hplus : plus ≠ '#') (hminus : minus ≠ '#') : ∃ v,
    Reading.ofField (coordinateField a width plus minus deg)
      (if width + 7 < (coordinateField a width plus minus deg).length then none
        else parseCoordinate a width limit plus minus (coordinateField a width plus minus deg)) =
      .value v ∧ Rounds deg v := by
  obtain ⟨whole, frac, heq, hfrac, hwhole, hfull, hnear⟩ := coordinateField_eq a width plus minus
    h hlimit
  obtain ⟨hpos, -, hvalue⟩ := coordinateValue_spec a hfrac hwhole hlimit hfull
  have hlen := Decimal.length_pad hw (hwhole.trans_lt hwidth)
  have hlen6 := Decimal.length_pad (w := 6) (by decide) hfrac
  have hhemi : (if deg < 0 then minus else plus) = plus ∨ (if deg < 0 then minus else plus) = minus := by
    split_ifs <;> simp
  have hmark : (coordinateField a width plus minus deg).contains '#' = false := by
    have hdigit {n w : ℕ} : '#' ∉ Decimal.pad n w := fun hc =>
      absurd (Decimal.isDigit_of_mem_pad hc) (by decide)
    have hside : '#' ≠ if deg < 0 then minus else plus := by
      split_ifs
      · exact hminus.symm
      · exact hplus.symm
    rw [heq, Bool.eq_false_iff, Ne, List.contains_iff_mem, List.mem_append, List.mem_cons]
    rintro (hc | hc | hc)
    · exact hdigit hc
    · exact hside hc
    · exact hdigit hc
  have hshort : ¬ width + 7 < (coordinateField a width plus minus deg).length := by
    rw [heq, List.length_append, List.length_cons, hlen, hlen6]
    omega
  unfold Reading.ofField
  rw [hmark, if_neg (by decide), if_neg hshort, heq,
    parseCoordinate_field a hw hwidth hlimit hfrac hwhole hfull hhemi]
  refine ⟨_, rfl, ?_⟩
  by_cases hneg : deg < 0
  · rw [if_pos hneg, if_pos rfl]
    rw [abs_of_neg hneg] at hnear
    refine ⟨⟨-(whole * 1000000 + frac : ℤ), ?_, ?_⟩, fun _ => by linarith,
      fun h0 => absurd h0 (not_le.mpr hneg)⟩
    · rw [abs_le] at hnear ⊢
      push_cast
      constructor <;> linarith
    · rw [abs_le] at hvalue ⊢
      push_cast
      constructor <;> linarith
  · rw [if_neg hneg, if_neg hne]
    rw [abs_of_nonneg (not_lt.mp hneg)] at hnear
    refine ⟨⟨whole * 1000000 + frac, ?_, ?_⟩, fun h0 => absurd h0 hneg, fun _ => hpos⟩
    · push_cast
      exact hnear
    · push_cast
      exact hvalue

/-- The width of a coordinate's field. -/
theorem length_coordinateField {deg : ℚ} {width limit : ℕ} {plus minus : Char} (hw : 0 < width)
    (hwidth : limit < 10 ^ width) (hlimit : limit ≤ 180) (h : |deg| ≤ limit) :
    (coordinateField a width plus minus deg).length = width + 7 := by
  obtain ⟨whole, frac, heq, hfrac, hwhole, -⟩ := coordinateField_eq a width plus minus
    h hlimit
  have hlen := Decimal.length_pad hw (hwhole.trans_lt hwidth)
  have hlen6 := Decimal.length_pad (w := 6) (by decide) hfrac
  rw [heq, List.length_append, List.length_cons, hlen, hlen6]

section inRange

variable (hlat : |r.latDeg| ≤ (90 : ℕ)) (hlon : |r.lonDeg| ≤ (180 : ℕ))
include hlat hlon

theorem splitOn_generateGpr (hunit : r.altUnit ≠ '*') (htz : r.tz ≠ '*') :
    (generateGpr a r).splitOn '*' = [['G', 'P', 'R'], freeText r.object 15, latField a r.latDeg,
      lonField a r.lonDeg, altField a r, timeField r, freeText r.comment 25] := by
  refine List.splitOn_intercalate '*' ?_ (List.cons_ne_nil _ _)
  simp only [List.mem_cons, List.not_mem_nil, or_false, forall_eq_or_imp, forall_eq]
  refine ⟨by decide, star_not_mem_freeText _ _, ?_, ?_, ?_, ?_, star_not_mem_freeText _ _⟩
  · exact star_not_mem_coordinateField a hlat (by decide) (by decide) (by decide)
  · exact star_not_mem_coordinateField a hlon (by decide) (by decide) (by decide)
  · rwa [star_mem_altField]
  · rwa [star_mem_timeField]

omit hlat hlon in
/-- A message that is structurally valid has seven fields. -/
theorem length_of_valid {s : Str} {strict : Bool}
    (h : (parseGpr a s strict).validGprStructure = true) : (s.splitOn '*').length = 7 := by
  unfold parseGpr at h
  split at h
  · cases h
  · rename_i first rest hsplit
    rw [hsplit]
    split_ifs at h
    split at h
    · rfl
    · cases h

omit hlat hlon in
/-- A delimiter for a unit or a zone leaves no message. -/
theorem ne_star_of_valid {strict : Bool}
    (h : (parseGpr a (generateGpr a r) strict).validGprStructure = true) :
    r.altUnit ≠ '*' ∧ r.tz ≠ '*' := by
  have hlen := length_of_valid a h
  rw [length_splitOn] at hlen
  have hcount : (altField a r).count '*' = 0 ∧ (timeField r).count '*' = 0 := by
    simp only [generateGpr, List.intercalate_cons_cons, List.intercalate_singleton, List.count_append,
      List.count_singleton_self] at hlen
    omega
  rw [List.count_eq_zero, List.count_eq_zero, star_mem_altField, star_mem_timeField] at hcount
  exact hcount

/-! ## What is read from the text -/

/-- The fields of a text are read each for itself. -/
theorem parseGpr_generateGpr (hunit : r.altUnit ≠ '*') (htz : r.tz ≠ '*') :
    parseGpr a (generateGpr a r) false = readFields a (generateGpr a r) false (freeText r.object 15)
      (latField a r.latDeg) (lonField a r.lonDeg) (altField a r) (timeField r)
      (freeText r.comment 25) := by
  unfold parseGpr
  rw [splitOn_generateGpr a hlat hlon hunit htz]
  dsimp only
  rw [if_neg (not_not.mpr rfl)]

omit hlon in
theorem reading_latField : ∃ v, Reading.ofField (latField a r.latDeg)
    (if 9 < (latField a r.latDeg).length then none else parseLatitude a (latField a r.latDeg)) =
    .value v ∧ Rounds r.latDeg v :=
  reading_coordinateField a (by decide) (by decide) (by decide) hlat (by decide) (by decide)
    (by decide)

omit hlat in
theorem reading_lonField : ∃ v, Reading.ofField (lonField a r.lonDeg)
    (if 10 < (lonField a r.lonDeg).length then none else parseLongitude a (lonField a r.lonDeg)) =
    .value v ∧ Rounds r.lonDeg v :=
  reading_coordinateField a (by decide) (by decide) (by decide) hlon (by decide) (by decide)
    (by decide)

/-! ## The altitude and the time -/

omit hlat hlon in
theorem reading_altField (halt : r.hasAltitude = true)
    (hrange : -1 / 2 < r.altitude ∧ r.altitude < 1000000 - 1 / 2)
    (hunit : r.altUnit = 'M' ∨ r.altUnit = 'F') : ∃ v,
    Reading.ofField (altField a r)
      (if 7 < (altField a r).length then none else parseAltitude a (altField a r)) =
      .value (v, r.altUnit) ∧ RoundsAltitude r.altitude v := by
  have habs : |r.altitude| < 2 ^ 31 - 1 := by
    rw [abs_lt]
    constructor <;> linarith
  have hround := halfAway_near r.altitude
  obtain ⟨n, hn⟩ := Int.eq_ofNat_of_zero_le (halfAway_nonneg_iff.mpr hrange.1)
  have hlt : n < 10 ^ 6 := by
    have hsix : halfAway r.altitude < (1000000 : ℕ) := (halfAway_lt_iff (by norm_num)).mpr (by
      push_cast
      exact hrange.2)
    rw [hn] at hsix
    exact_mod_cast hsix
  have hfield : altField a r = Decimal.pad n 6 ++ [r.altUnit] := by
    rw [altField, if_pos halt, a.lround_eq _ habs, hn, zeroPad_natCast]
  have hlen := Decimal.length_pad (w := 6) (by decide) hlt
  have hmark : (Decimal.pad n 6 ++ [r.altUnit]).contains '#' = false := by
    rw [Bool.eq_false_iff, Ne, List.contains_iff_mem, List.mem_append, List.mem_singleton]
    rintro (hc | hc)
    · exact absurd (Decimal.isDigit_of_mem_pad hc) (by decide)
    · obtain h | h := hunit <;> rw [h] at hc <;> exact absurd hc (by decide)
  refine ⟨n, ?_, ⟨n, rfl, ?_⟩, fun hneg => ?_, fun _ => Nat.cast_nonneg n⟩
  · unfold Reading.ofField
    rw [hfield, hmark, if_neg (by decide), if_neg, parseAltitude_field a hlt hunit]
    rw [List.length_append, hlen, List.length_singleton]
    exact lt_irrefl 7
  · rw [hn, Int.cast_natCast] at hround
    exact_mod_cast hround
  · -- an altitude below zero that is accepted rounds to zero
    rw [hn, Int.cast_natCast, abs_le] at hround
    have hone : (n : ℚ) < 1 := by linarith
    have hzero : n = 0 := by
      have hnat : n < 1 := by exact_mod_cast hone
      omega
    rw [hzero, Nat.cast_zero]

omit hlat hlon in
theorem of_reading_altField (halt : r.hasAltitude = true)
    {v : ℚ × Char} (hread : Reading.ofField (altField a r)
      (if 7 < (altField a r).length then none else parseAltitude a (altField a r)) = .value v)
    (hrounds : RoundsAltitude r.altitude v.1) :
    (-1 / 2 < r.altitude ∧ r.altitude < 1000000 - 1 / 2) ∧ (r.altUnit = 'M' ∨ r.altUnit = 'F') := by
  have hfield : altField a r = zeroPad (a.lround r.altitude) 6 ++ [r.altUnit] := by
    rw [altField, if_pos halt]
  unfold Reading.ofField at hread
  rw [hfield] at hread
  split_ifs at hread with hmark hlong
  split at hread
  · cases hread
  · rename_i w hparse
    cases hread
    obtain ⟨⟨h0, h1⟩, hunit⟩ := of_parseAltitude a (not_lt.mp hlong) hparse
    obtain ⟨n, hn⟩ := Int.eq_ofNat_of_zero_le h0
    have hlt : n < 10 ^ 6 := by omega
    rw [hn, zeroPad_natCast, parseAltitude_field a hlt hunit] at hparse
    cases hparse
    obtain ⟨⟨m, hm, hnear⟩, -, -⟩ := hrounds
    have hlt' : (n : ℚ) < 1000000 := by exact_mod_cast hlt
    rw [← hm, abs_le] at hnear
    have habs : |r.altitude| < 2 ^ 31 - 1 := by
      rw [abs_lt]
      have hpos : (0 : ℚ) ≤ n := Nat.cast_nonneg n
      constructor <;> linarith
    rw [a.lround_eq _ habs] at h0 h1
    have hsix : halfAway r.altitude < (1000000 : ℕ) := by
      push_cast
      omega
    refine ⟨⟨halfAway_nonneg_iff.mp h0, ?_⟩, hunit⟩
    have hupper := (halfAway_lt_iff (by norm_num)).mp hsix
    exact_mod_cast hupper

omit hlat hlon in
theorem hash_not_mem_timeField {y m d hh mm ss : ℕ} {tz : Char} (htz : 'A' ≤ tz) :
    (Decimal.pad y 4 ++ Decimal.pad m 2 ++ Decimal.pad d 2 ++ [tz] ++ Decimal.pad hh 2 ++
      Decimal.pad mm 2 ++ Decimal.pad ss 2).contains '#' = false := by
  have hdigit {n w : ℕ} : '#' ∉ Decimal.pad n w := fun hc =>
    absurd (Decimal.isDigit_of_mem_pad hc) (by decide)
  have hzone : '#' ≠ tz := by
    rintro rfl
    revert htz
    decide
  rw [Bool.eq_false_iff, Ne, List.contains_iff_mem]
  simp [hdigit, hzone]

omit hlat hlon in
theorem reading_timeField (h : FourDigitYear r.timestampUtc) (hzone : 'A' ≤ r.tz ∧ r.tz ≤ 'Z') :
    Reading.ofField (timeField r) (parseTimestamp (timeField r)) =
      .value (r.timestampUtc, r.tz) := by
  obtain ⟨y, m, d, hh, mm, ss, hfield, hy, hvalid, hhh, hmm, hss, hts⟩ := timeField_eq h
  unfold Reading.ofField
  rw [hfield, hash_not_mem_timeField hzone.1, if_neg (by decide),
    parseTimestamp_field hy hvalid hhh hmm hss hzone, hts]

omit hlat hlon in
theorem of_reading_timeField {v : ℤ × Char}
    (hread : Reading.ofField (timeField r) (parseTimestamp (timeField r)) = .value v)
    (hts : v.1 = r.timestampUtc) : FourDigitYear r.timestampUtc ∧ 'A' ≤ r.tz ∧ r.tz ≤ 'Z' := by
  unfold Reading.ofField at hread
  split_ifs at hread with hmark
  split at hread
  · cases hread
  · rename_i w hparse
    cases hread
    obtain ⟨ts, tz⟩ := v
    obtain ⟨hyear, hletter⟩ := fourDigitYear_of_parse hparse
    dsimp only at hts
    rw [hts] at hyear
    refine ⟨hyear, ?_⟩
    obtain ⟨y, m, d, hh, mm, ss, hfield, hy, hvalid, hhh, hmm, hss, -⟩ := timeField_eq hyear
    have hlen4 := Decimal.length_pad (w := 4) (by decide) hy
    have hd31 := hvalid.2.2.trans (daysInMonth_le y m)
    have hlen2 := Decimal.length_pad (n := m) (w := 2) (by decide) (by have := hvalid.1.2; omega)
    have hlen2' := Decimal.length_pad (n := d) (w := 2) (by decide) (by omega)
    have hget : (timeField r).getD 8 '\x00' = r.tz := by
      have hfront : (Decimal.pad y 4 ++ Decimal.pad m 2 ++ Decimal.pad d 2).length = 8 := by
        rw [List.length_append, List.length_append, hlen4, hlen2, hlen2']
      rw [hfield, List.append_assoc, List.append_assoc, List.append_assoc,
        List.getD_append_right _ _ _ _ hfront.le, hfront]
      rfl
    rwa [hget] at hletter

/-! ## The report -/

/-- The text fits an orderwire message. -/
theorem length_generateGpr (h : Admits r) : (generateGpr a r).length ≤ 90 := by
  have hlatLen : (latField a r.latDeg).length = 9 := length_coordinateField a (by decide) (by decide)
    (by decide) hlat
  have hlonLen : (lonField a r.lonDeg).length = 10 := length_coordinateField a (by decide) (by decide)
    (by decide) hlon
  have haltLen : (altField a r).length ≤ 7 := by
    cases halt : r.hasAltitude with
    | false =>
      rw [altField, halt]
      simp
    | true =>
      obtain ⟨v, hread, -⟩ := reading_altField a halt (h.altitude halt).1 (h.altitude halt).2
      by_contra hlong
      rw [if_pos (not_le.mp hlong)] at hread
      unfold Reading.ofField at hread
      split_ifs at hread
  have htimeLen : (timeField r).length = 15 := by
    have hread := reading_timeField h.time h.zone
    by_contra hlen
    rw [parseTimestamp, if_pos hlen] at hread
    unfold Reading.ofField at hread
    split_ifs at hread
  have hobject : (freeText r.object 15).length ≤ 15 := List.length_take_le 15 _
  have hcomment : (freeText r.comment 25).length ≤ 25 := List.length_take_le 25 _
  simp only [generateGpr, List.intercalate_cons_cons, List.intercalate_singleton, List.length_append,
    List.length_cons, List.length_nil, hlatLen, hlonLen, htimeLen]
  omega

theorem admits_of_restored
    (h : Restored r (generateGpr a r) (parseGpr a (generateGpr a r) false)) : Admits r := by
  obtain ⟨hunit, htz⟩ := ne_star_of_valid a h.structure_valid
  rw [parseGpr_generateGpr a hlat hlon hunit htz] at h
  have hobject : freeText r.object 15 = r.object := h.object
  obtain ⟨htime, hts, -⟩ := h.time
  obtain ⟨hyear, hzone⟩ : FourDigitYear r.timestampUtc ∧ 'A' ≤ r.tz ∧ r.tz ≤ 'Z' := by
    cases hread : Reading.ofField (timeField r) (parseTimestamp (timeField r)) with
    | value v =>
      simp only [readFields, hread, Reading.getD] at hts
      exact of_reading_timeField hread hts
    | marked =>
      simp only [readFields, hread, Reading.isValue, Bool.false_eq_true] at htime
    | invalid =>
      simp only [readFields, hread, Reading.isValue, Bool.false_eq_true] at htime
  refine ⟨freeText_eq_iff.mp hobject, fun halt => ?_, fun _ => hunit, hyear, hzone⟩
  obtain ⟨hhas, hrounds, -⟩ := h.altitude halt
  cases hread : Reading.ofField (altField a r)
      (if 7 < (altField a r).length then none else parseAltitude a (altField a r)) with
  | value v =>
    simp only [readFields, hread, Reading.getD] at hrounds
    exact of_reading_altField a halt hread hrounds
  | marked =>
    simp only [readFields, hread, Reading.isValue, Bool.false_eq_true] at hhas
  | invalid =>
    simp only [readFields, hread, Reading.isValue, Bool.false_eq_true] at hhas

theorem restored_of_admits (h : Admits r) :
    Restored r (generateGpr a r) (parseGpr a (generateGpr a r) false) := by
  have hunit : r.altUnit ≠ '*' := by
    cases halt : r.hasAltitude with
    | false => exact h.unit halt
    | true =>
      obtain hu | hu := (h.altitude halt).2 <;> rw [hu] <;> decide
  have htz : r.tz ≠ '*' := by
    intro hstar
    have hzone := h.zone.1
    rw [hstar] at hzone
    revert hzone
    decide
  obtain ⟨lat, hlatRead, hlatRounds⟩ := reading_latField a hlat
  obtain ⟨lon, hlonRead, hlonRounds⟩ := reading_lonField a hlon
  have htime := reading_timeField h.time h.zone
  rw [parseGpr_generateGpr a hlat hlon hunit htz]
  exact {
    structure_valid := rfl
    object := freeText_eq_iff.mpr h.object
    latitude := by simp only [readFields, hlatRead]; exact ⟨rfl, hlatRounds⟩
    longitude := by simp only [readFields, hlonRead]; exact ⟨rfl, hlonRounds⟩
    altitude := fun halt => by
      obtain ⟨v, hread, hrounds⟩ := reading_altField a halt (h.altitude halt).1 (h.altitude halt).2
      simp only [readFields, hread]
      exact ⟨rfl, hrounds, rfl⟩
    noAltitude := fun halt => by
      have hread : altField a r = ['#', r.altUnit] := by
        rw [altField, halt]
        rfl
      simp only [readFields, hread]
      rfl
    time := by simp only [readFields, htime]; exact ⟨rfl, rfl, rfl⟩
    comment := rfl
    length := length_generateGpr a hlat hlon h
    days := fun z => daysFromCivil_civilFromDays
    dates := fun y m d => civilFromDays_daysFromCivil }

end inRange

/-- A station 3 m above sea level. -/
def sample : Report where
  object := ['K', 'Q', '6', 'X', 'A']
  latDeg := 37654321 / 1000000
  lonDeg := -122987654 / 1000000
  hasAltitude := true
  altitude := 3
  altitudeUnit := 'M'
  timestampUtc := 1124632355
  timezoneCode := 'Z'
  comment := ['F', 'I', 'N', 'E']

end Gpr

end OpenALE

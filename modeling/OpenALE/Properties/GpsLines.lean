import OpenALE.App.Gps

/-!
# What the position parsers make of a line

A coordinate is degrees, two digits of minutes and a point with any digits behind it. Of such
coordinates the NMEA parsers make degrees and minutes over 60, if the numbers are in the range of
`std::stod`. Anything else in the place of a coordinate is not refused: without a point it is the
position 0, and otherwise what `std::stod` makes of it, an exception where there is no number.

Results:
* `nmeaCoord_eq`: what is made of a coordinate.
* `tpv_iff`, `gga_iff`, `rmc_iff`: the lines that a parser treats as it should.
* `right_iff`: the lines that all of them do.
-/

namespace OpenALE.Gps

open Strtod

variable {D : Type} {E : Arithmetic D} {n : Nat} {coord hemi s : Str}

/-! ## Coordinates -/

/-- Degrees of `n` digits, minutes of two, a point and digits behind it. -/
def IsCoord (n : Nat) (coord : Str) : Prop :=
  ∃ deg min frac : Str, coord = deg ++ min ++ '.' :: frac ∧ deg.length = n ∧ min.length = 2 ∧
    ∀ c ∈ deg ++ min ++ frac, c.isDigit = true

def degrees (n : Nat) (coord : Str) : ℚ := Decimal.value (coord.take n)

def minutes (n : Nat) (coord : Str) : ℚ := fixed ((coord.drop n).take 2) (coord.drop (n + 3))

/-- Degrees plus minutes over 60 with the sign of the hemisphere. -/
def position (E : Arithmetic D) (n : Nat) (coord hemi : Str) : D :=
  let magnitude := E.add (E.ofRat (degrees n coord)) (E.div (E.ofRat (minutes n coord)) (E.ofRat 60))
  if hemi = ['S'] ∨ hemi = ['W'] then E.neg magnitude else magnitude

/-- Degrees and minutes are in the range of `std::stod`. -/
def InRange (E : Arithmetic D) (n : Nat) (coord : Str) : Prop :=
  E.inRange (degrees n coord) = true ∧ E.inRange (minutes n coord) = true

/-- The first point stands behind the digits. -/
theorem idxOf?_point {ds rest : Str} (h : ∀ c ∈ ds, c.isDigit = true) :
    (ds ++ '.' :: rest).idxOf? '.' = some ds.length := by
  induction ds with
  | nil => rfl
  | cons d ds ih =>
    rw [List.forall_mem_cons] at h
    have hne : (d == '.') = false := by
      rw [beq_eq_false_iff_ne]
      rintro rfl
      exact absurd h.1 (by decide)
    rw [List.cons_append, List.idxOf?_cons, hne, ih h.2]
    rfl

/-- **What is made of a coordinate.** -/
theorem nmeaCoord_eq (h : IsCoord n coord) (hn : 2 ≤ n) (hemi : Str) :
    (InRange E n coord → nmeaCoord E coord hemi = some (position E n coord hemi)) ∧
      (¬ InRange E n coord → nmeaCoord E coord hemi = none) := by
  obtain ⟨deg, min, frac, hcoord, hdeg, hmin, hdigits⟩ := h
  have hdegDigits : ∀ c ∈ deg, c.isDigit = true := fun c hc => hdigits c (by simp [hc])
  have hminDigits : ∀ c ∈ min, c.isDigit = true := fun c hc => hdigits c (by simp [hc])
  have hfracDigits : ∀ c ∈ frac, c.isDigit = true := fun c hc => hdigits c (by simp [hc])
  have hlen : ¬ coord.length < 5 := by
    rw [hcoord]
    simp
    omega
  have hdot : coord.idxOf? '.' = some (n + 2) := by
    have hfront : ∀ c ∈ deg ++ min, c.isDigit = true := fun c hc =>
      hdigits c (List.mem_append_left _ hc)
    rw [hcoord, idxOf?_point hfront, List.length_append, hdeg, hmin]
  have htake : coord.take n = deg := by
    rw [hcoord, List.append_assoc, List.take_left' hdeg]
  have hdrop : coord.drop n = min ++ '.' :: frac := by
    rw [hcoord, List.append_assoc, List.drop_left' hdeg]
  have hmindrop : (coord.drop n).take 2 = min := by rw [hdrop, List.take_left' hmin]
  have hfracdrop : coord.drop (n + 3) = frac := by
    rw [← List.drop_drop, hdrop, ← List.singleton_append, ← List.append_assoc]
    exact List.drop_left' (by simp [hmin])
  have hdegne : deg ≠ [] := List.ne_nil_of_length_pos (by omega)
  have hminne : min ≠ [] := List.ne_nil_of_length_pos (by omega)
  have hstodDeg : stod E.toDoubles (coord.take n) =
      if E.inRange (degrees n coord) then some (E.ofRat (degrees n coord)) else none := by
    rw [degrees, htake]
    exact stod_digits hdegDigits hdegne
  have hstodMin : stod E.toDoubles (coord.drop n) =
      if E.inRange (minutes n coord) then some (E.ofRat (minutes n coord)) else none := by
    rw [minutes, hmindrop, hfracdrop, hdrop]
    exact stod_point hminDigits hminne hfracDigits
  rw [nmeaCoord, if_neg hlen, hdot]
  dsimp only
  rw [if_neg (by omega), Nat.add_sub_cancel, hstodDeg, hstodMin]
  constructor
  · rintro ⟨hdegIn, hminIn⟩
    rw [if_pos hdegIn, if_pos hminIn]
    rfl
  · intro hout
    by_cases hdegIn : E.inRange (degrees n coord) = true
    · have hminOut : ¬ E.inRange (minutes n coord) = true := fun h => hout ⟨hdegIn, h⟩
      rw [if_pos hdegIn, if_neg hminOut]
      rfl
    · rw [if_neg hdegIn]
      rfl

/-! ## `gpsd` -/

/-- Every number that `parse_tpv_json` comes to is one that its conversion takes. -/
def TpvReads (E : Arithmetic D) (s : Str) : Prop :=
  ∀ text, numberBehind "mode" Char.isDigit s = some text →
    (Text.stoi text).isSome = true ∧ ∀ key ∈ ["lat", "lon", "alt"], ∀ number,
      numberBehind key (fun c => c = '-' || c.isDigit) s = some number → E.Reads number

theorem findNum_iff {key : String} : (∃ x, findNum E key s = some x) ↔
    ∀ number, numberBehind key (fun c => c = '-' || c.isDigit) s = some number →
      E.Reads number := by
  unfold findNum
  cases hnumber : numberBehind key (fun c => c = '-' || c.isDigit) s with
  | none => simp
  | some number =>
    dsimp only
    constructor
    · rintro ⟨x, hx⟩ _ hsome
      obtain rfl := Option.some.inj hsome
      obtain ⟨d, hd, -⟩ := Option.map_eq_some_iff.mp hx
      exact stod_isSome_iff.mp ⟨d, hd⟩
    · intro h
      obtain ⟨d, hd⟩ := stod_isSome_iff.mpr (h number rfl)
      exact ⟨(d, true), by rw [hd, Option.map_some]⟩

/-- **`parse_tpv_json` returns** if it comes to numbers only that its conversions take. -/
theorem tpv_iff : (∃ r, parseTpvJson E s = some r) ↔ TpvReads E s := by
  unfold parseTpvJson TpvReads
  cases hmode : numberBehind "mode" Char.isDigit s with
  | none => exact ⟨fun _ _ h => (nomatch h), fun _ => ⟨none, rfl⟩⟩
  | some text =>
    constructor
    · rintro ⟨r, hr⟩ _ hsome
      obtain rfl := Option.some.inj hsome
      simp only [Option.bind_eq_bind, Option.bind_eq_some_iff] at hr
      obtain ⟨mode, hstoi, lat, hlat, lon, hlon, alt, halt, -⟩ := hr
      refine ⟨Option.isSome_iff_exists.mpr ⟨mode, hstoi⟩, fun key hkey => findNum_iff.mp ?_⟩
      simp only [List.mem_cons, List.not_mem_nil, or_false] at hkey
      obtain rfl | rfl | rfl := hkey
      · exact ⟨lat, hlat⟩
      · exact ⟨lon, hlon⟩
      · exact ⟨alt, halt⟩
    · intro h
      obtain ⟨hstoi, hkeys⟩ := h text rfl
      obtain ⟨mode, hstoi⟩ := Option.isSome_iff_exists.mp hstoi
      obtain ⟨lat, hlat⟩ := findNum_iff.mpr (hkeys "lat" (by simp))
      obtain ⟨lon, hlon⟩ := findNum_iff.mpr (hkeys "lon" (by simp))
      obtain ⟨alt, halt⟩ := findNum_iff.mpr (hkeys "alt" (by simp))
      dsimp only
      rw [hstoi, hlat, hlon, halt]
      exact ⟨_, rfl⟩

/-! ## NMEA -/

/-- A coordinate of no more than `limit` degrees, in a hemisphere. -/
def IsPosition (n limit : Nat) (positive negative : Char) (coord hemi : Str) : Prop :=
  IsCoord n coord ∧ minutes n coord < 60 ∧ degrees n coord + minutes n coord / 60 ≤ limit ∧
    (hemi = [positive] ∨ hemi = [negative])

/-- Digits, with a minus before and a point among or behind them if there is one. -/
def IsNumber (text : Str) : Prop :=
  ∃ minus int point : Str, text = minus ++ int ++ point ∧ (minus = [] ∨ minus = ['-']) ∧ int ≠ [] ∧
    (∀ c ∈ int, c.isDigit = true) ∧
      (point = [] ∨ ∃ frac : Str, point = '.' :: frac ∧ ∀ c ∈ frac, c.isDigit = true)

/-- A GGA sentence with a fix, a position and an altitude, if any. -/
structure WellFormedGga (s : Str) : Prop where
  length : 7 ≤ (nmeaSplit s).length
  quality : field s 6 ≠ [] ∧ field s 6 ≠ ['0']
  lat : IsPosition 2 90 'N' 'S' (field s 2) (field s 3)
  lon : IsPosition 3 180 'E' 'W' (field s 4) (field s 5)
  alt : hasAlt s = true → IsNumber (field s 9)

/-- A GGA sentence without a fix: void, or with coordinates or an altitude that are none. -/
def NoFixGga (s : Str) : Prop :=
  field s 6 = [] ∨ field s 6 = ['0'] ∨ ¬ IsCoord 2 (field s 2) ∨ ¬ IsCoord 3 (field s 4) ∨
    hasAlt s = true ∧ ¬ IsNumber (field s 9)

/-- An RMC sentence with a position. -/
structure WellFormedRmc (s : Str) : Prop where
  length : 7 ≤ (nmeaSplit s).length
  status : field s 2 = ['A']
  lat : IsPosition 2 90 'N' 'S' (field s 3) (field s 4)
  lon : IsPosition 3 180 'E' 'W' (field s 5) (field s 6)

/-- An RMC sentence without a fix. -/
def NoFixRmc (s : Str) : Prop :=
  active s = false ∨ ¬ IsCoord 2 (field s 3) ∨ ¬ IsCoord 3 (field s 5)

/-- What is to come of a GGA sentence. -/
def GgaRight (E : Arithmetic D) (s : Str) : Prop :=
  ∃ r, parseGpgga E s = some r ∧
    (WellFormedGga s → ∃ fix, r = some fix ∧ fix.lat = position E 2 (field s 2) (field s 3) ∧
      fix.lon = position E 3 (field s 4) (field s 5)) ∧
    (NoFixGga s → r = none)

/-- What is to come of an RMC sentence. -/
def RmcRight (E : Arithmetic D) (s : Str) : Prop :=
  ∃ r, parseGprmc E s = some r ∧
    (WellFormedRmc s → r = some (position E 2 (field s 3) (field s 4),
      position E 3 (field s 5) (field s 6))) ∧
    (NoFixRmc s → r = none)

/-- A GGA sentence that is not void and has coordinates. -/
def GgaGiven (s : Str) : Prop :=
  7 ≤ (nmeaSplit s).length ∧ field s 6 ≠ [] ∧ field s 6 ≠ ['0'] ∧ field s 2 ≠ [] ∧ field s 4 ≠ []

/-- Its numbers are numbers, in range. -/
structure GgaReads (E : Arithmetic D) (s : Str) : Prop where
  lat : IsCoord 2 (field s 2) ∧ InRange E 2 (field s 2)
  lon : IsCoord 3 (field s 4) ∧ InRange E 3 (field s 4)
  alt : hasAlt s = true → IsNumber (field s 9) ∧ E.Reads (field s 9)

/-- An RMC sentence that is active and has coordinates. -/
def RmcGiven (s : Str) : Prop :=
  7 ≤ (nmeaSplit s).length ∧ active s = true ∧ field s 3 ≠ [] ∧ field s 5 ≠ []

structure RmcReads (E : Arithmetic D) (s : Str) : Prop where
  lat : IsCoord 2 (field s 3) ∧ InRange E 2 (field s 3)
  lon : IsCoord 3 (field s 5) ∧ InRange E 3 (field s 5)

theorem IsCoord.ne_nil (h : IsCoord n coord) : coord ≠ [] := by
  obtain ⟨deg, min, frac, rfl, -⟩ := h
  simp

/-- What comes of a coordinate that was not to be read. -/
theorem inRange_of_nmeaCoord (h : IsCoord n coord) (hn : 2 ≤ n) {d : D}
    (hd : nmeaCoord E coord hemi = some d) : InRange E n coord := by
  by_contra hout
  rw [(nmeaCoord_eq h hn hemi).2 hout] at hd
  cases hd

/-- A sentence that is not void goes through all its conversions. -/
theorem parseGpgga_given (h : GgaGiven s) : parseGpgga E s = (do
    let lat ← nmeaCoord E (field s 2) (field s 3)
    let lon ← nmeaCoord E (field s 4) (field s 5)
    let alt ← altitude E s
    some (some { lat, lon, hasAlt := hasAlt s, alt })) := by
  obtain ⟨hlen, hsome, hquality, hlat, hlon⟩ := h
  rw [parseGpgga, if_neg (by omega), if_neg (not_or.mpr ⟨hsome, hquality⟩),
    if_neg (not_or.mpr ⟨hlat, hlon⟩)]

theorem parseGpgga_not_given (h : ¬ GgaGiven s) : parseGpgga E s = some none := by
  unfold parseGpgga
  split_ifs with hlen hquality hcoords
  · rfl
  · rfl
  · rfl
  · rw [not_or] at hquality hcoords
    exact absurd ⟨by omega, hquality.1, hquality.2, hcoords.1, hcoords.2⟩ h

/-- **A GGA sentence is treated right** if it is void, or its numbers are numbers. -/
theorem gga_iff : GgaRight E s ↔ (GgaGiven s → GgaReads E s) := by
  by_cases hgiven : GgaGiven s
  · rw [GgaRight, parseGpgga_given hgiven]
    constructor
    · rintro ⟨r, hr, -, hno⟩ -
      simp only [Option.bind_eq_bind, Option.bind_eq_some_iff] at hr
      obtain ⟨lat, hlat, lon, hlon, alt, halt, hsome⟩ := hr
      obtain rfl := Option.some.inj hsome
      have hfix : ¬ NoFixGga s := fun h => nomatch hno h
      simp only [NoFixGga, not_or, not_and, not_not] at hfix
      obtain ⟨-, -, hlatCoord, hlonCoord, haltNumber⟩ := hfix
      refine ⟨⟨hlatCoord, inRange_of_nmeaCoord hlatCoord le_rfl hlat⟩,
        ⟨hlonCoord, inRange_of_nmeaCoord hlonCoord (by decide) hlon⟩, fun hhas => ?_⟩
      rw [altitude, if_pos hhas] at halt
      exact ⟨haltNumber hhas, stod_isSome_iff.mp ⟨alt, halt⟩⟩
    · intro h
      obtain ⟨⟨hlatCoord, hlatIn⟩, ⟨hlonCoord, hlonIn⟩, halt⟩ := h hgiven
      obtain ⟨alt, halteq⟩ : ∃ alt, altitude E s = some alt := by
        unfold altitude
        split_ifs with hhas
        · exact stod_isSome_iff.mpr (halt hhas).2
        · exact ⟨_, rfl⟩
      rw [(nmeaCoord_eq hlatCoord le_rfl _).1 hlatIn, (nmeaCoord_eq hlonCoord (by decide) _).1 hlonIn,
        halteq]
      refine ⟨_, rfl, fun _ => ⟨_, rfl, rfl, rfl⟩, fun hno => ?_⟩
      obtain hno | hno | hno | hno | ⟨hhas, hno⟩ := hno
      · exact absurd hno hgiven.2.1
      · exact absurd hno hgiven.2.2.1
      · exact absurd hlatCoord hno
      · exact absurd hlonCoord hno
      · exact absurd (halt hhas).1 hno
  · rw [GgaRight, parseGpgga_not_given hgiven]
    refine iff_of_true ⟨none, rfl, fun h => ?_, fun _ => rfl⟩ fun h => absurd h hgiven
    exact absurd ⟨h.length, h.quality.1, h.quality.2, h.lat.1.ne_nil, h.lon.1.ne_nil⟩ hgiven

theorem parseGprmc_given (h : RmcGiven s) : parseGprmc E s = (do
    let lat ← nmeaCoord E (field s 3) (field s 4)
    let lon ← nmeaCoord E (field s 5) (field s 6)
    some (some (lat, lon))) := by
  obtain ⟨hlen, hactive, hlat, hlon⟩ := h
  have hgate : ¬ (active s = false ∨ field s 3 = [] ∨ field s 5 = []) := by
    rw [hactive]
    simp [hlat, hlon]
  rw [parseGprmc, if_neg (by omega), if_neg hgate]

theorem parseGprmc_not_given (h : ¬ RmcGiven s) : parseGprmc E s = some none := by
  unfold parseGprmc
  split_ifs with hlen hgate
  · rfl
  · rfl
  · rw [not_or, not_or, Bool.not_eq_false] at hgate
    exact absurd ⟨by omega, hgate.1, hgate.2.1, hgate.2.2⟩ h

/-- **An RMC sentence is treated right** if it is void, or its numbers are numbers. -/
theorem rmc_iff : RmcRight E s ↔ (RmcGiven s → RmcReads E s) := by
  by_cases hgiven : RmcGiven s
  · rw [RmcRight, parseGprmc_given hgiven]
    constructor
    · rintro ⟨r, hr, -, hno⟩ -
      simp only [Option.bind_eq_bind, Option.bind_eq_some_iff] at hr
      obtain ⟨lat, hlat, lon, hlon, hsome⟩ := hr
      obtain rfl := Option.some.inj hsome
      have hfix : ¬ NoFixRmc s := fun h => nomatch hno h
      simp only [NoFixRmc, not_or, not_not] at hfix
      obtain ⟨-, hlatCoord, hlonCoord⟩ := hfix
      exact ⟨⟨hlatCoord, inRange_of_nmeaCoord hlatCoord le_rfl hlat⟩,
        ⟨hlonCoord, inRange_of_nmeaCoord hlonCoord (by decide) hlon⟩⟩
    · intro h
      obtain ⟨⟨hlatCoord, hlatIn⟩, ⟨hlonCoord, hlonIn⟩⟩ := h hgiven
      rw [(nmeaCoord_eq hlatCoord le_rfl _).1 hlatIn, (nmeaCoord_eq hlonCoord (by decide) _).1 hlonIn]
      refine ⟨_, rfl, fun _ => rfl, fun hno => ?_⟩
      obtain hno | hno | hno := hno
      · exact absurd (hgiven.2.1.symm.trans hno) (by decide)
      · exact absurd hlatCoord hno
      · exact absurd hlonCoord hno
  · rw [RmcRight, parseGprmc_not_given hgiven]
    refine iff_of_true ⟨none, rfl, fun h => ?_, fun _ => rfl⟩ fun h => absurd h hgiven
    have hactive : active s = true := by
      rw [active, h.status]
      rfl
    exact absurd ⟨h.length, hactive, h.lat.1.ne_nil, h.lon.1.ne_nil⟩ hgiven

/-! ## Lines -/

/-- Every parser returns, and what it returns of a sentence is right. -/
def Right (E : Arithmetic D) (s : Str) : Prop :=
  (∃ r, parseTpvJson E s = some r) ∧ GgaRight E s ∧ RmcRight E s

/-- **The lines that are treated right**: what stands in the place of a number is one, in the range
of the conversion. -/
theorem right_iff (E : Arithmetic D) (s : Str) : Right E s ↔
    TpvReads E s ∧ (GgaGiven s → GgaReads E s) ∧ (RmcGiven s → RmcReads E s) :=
  and_congr tpv_iff (and_congr gga_iff rmc_iff)

/-- Exact arithmetic, with every magnitude in range. -/
def exact : Arithmetic (Option ℚ) where
  inRange := fun _ => true
  ofRat := some
  inf := none
  nan := none
  neg := Option.map (- ·)
  add := fun a b => a.bind fun a => b.map (a + ·)
  div := fun a b => a.bind fun a => b.map (a / ·)

/-- Letters in the place of the degrees throw. -/
theorem right_fail : ¬ ∀ s : Str, Right exact s := by
  intro h
  obtain ⟨-, -, r, hr, -⟩ := h "$GPRMC,0,A,ab07.00,N,00000.00,E".toList
  have hthrows : parseGprmc exact "$GPRMC,0,A,ab07.00,N,00000.00,E".toList = none := by
    decide +kernel
  rw [hthrows] at hr
  cases hr

end OpenALE.Gps

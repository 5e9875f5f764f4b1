import OpenALE.Library.Search
import OpenALE.Library.Strtod
import OpenALE.Word.Basic

/-!
# Lines of a position receiver

Model of the parsers of `GpsService` (`src/App/gps_service.cpp`): `parse_tpv_json`, `nmea_coord`,
`parse_gpgga` and `parse_gprmc`. `none` is an exception; what a parser returns `false` for is
`some none`.
-/

namespace OpenALE.Gps

open Strtod

/-- Doubles, with what `nmea_coord` does to them. -/
structure Arithmetic (D : Type) extends Doubles D where
  add : D → D → D
  div : D → D → D

variable {D : Type} (E : Arithmetic D)

/-! ## `gpsd` -/

/-- What `parse_tpv_json` sets. -/
structure Tpv (D : Type) where
  lat : D
  lon : D
  fixOk : Bool
  hasAlt : Bool
  alt : D

/-- The text from the first character of a number behind a key. -/
def numberBehind (key : String) (starts : Char → Bool) (json : Str) : Option Str :=
  match Search.find ('"' :: key.toList ++ ['"', ':']) json with
  | none => none
  | some p =>
    match (json.drop (p + key.length + 3)).dropWhile fun c => !starts c with
    | [] => none
    | text => some text

/-- `find_num`, with what it found. -/
def findNum (key : String) (json : Str) : Option (D × Bool) :=
  match numberBehind key (fun c => c = '-' || c.isDigit) json with
  | none => some (E.ofRat 0, false)
  | some text => (stod E.toDoubles text).map (·, true)

/-- `parse_tpv_json`. -/
def parseTpvJson (json : Str) : Option (Option (Tpv D)) :=
  match numberBehind "mode" Char.isDigit json with
  | none => some none
  | some text => do
    let mode ← Text.stoi text
    let lat ← findNum E "lat" json
    let lon ← findNum E "lon" json
    let alt ← findNum E "alt" json
    some (some { lat := lat.1, lon := lon.1, fixOk := mode ≥ 2, hasAlt := alt.2, alt := alt.1 })

/-! ## NMEA -/

/-- `nmea_coord`. -/
def nmeaCoord (coord hemi : Str) : Option D :=
  if coord.length < 5 then some (E.ofRat 0)
  else
    match coord.idxOf? '.' with
    | none => some (E.ofRat 0)
    | some dot =>
      if dot < 2 then some (E.ofRat 0)
      else do
        let degDigits := dot - 2
        let deg ← stod E.toDoubles (coord.take degDigits)
        let min ← stod E.toDoubles (coord.drop degDigits)
        let result := E.add deg (E.div min (E.ofRat 60))
        some (if hemi = ['S'] ∨ hemi = ['W'] then E.neg result else result)

/-- `nmea_split`. -/
def nmeaSplit (s : Str) : List Str := s.splitOnP fun c => c = ',' || c = '*'

/-- What `parse_gpgga` sets. -/
structure Gga (D : Type) where
  lat : D
  lon : D
  hasAlt : Bool
  alt : D

/-- A field of a sentence. -/
def field (s : Str) (i : Nat) : Str := (nmeaSplit s).getD i []

/-- `has_alt` of `parse_gpgga`. -/
def hasAlt (s : Str) : Bool := 9 < (nmeaSplit s).length && field s 9 ≠ []

/-- `alt` of `parse_gpgga`. -/
def altitude (s : Str) : Option D := if hasAlt s then stod E.toDoubles (field s 9) else some (E.ofRat 0)

/-- `parse_gpgga`. -/
def parseGpgga (s : Str) : Option (Option (Gga D)) :=
  if (nmeaSplit s).length < 7 then some none
  else if field s 6 = [] ∨ field s 6 = ['0'] then some none
  else if field s 2 = [] ∨ field s 4 = [] then some none
  else do
    let lat ← nmeaCoord E (field s 2) (field s 3)
    let lon ← nmeaCoord E (field s 4) (field s 5)
    let alt ← altitude E s
    some (some { lat, lon, hasAlt := hasAlt s, alt })

/-- `active` of `parse_gprmc`. -/
def active (s : Str) : Bool := (field s 2).head? = some 'A'

/-- `parse_gprmc`; a position is active. -/
def parseGprmc (s : Str) : Option (Option (D × D)) :=
  if (nmeaSplit s).length < 7 then some none
  else if active s = false ∨ field s 3 = [] ∨ field s 5 = [] then some none
  else do
    let lat ← nmeaCoord E (field s 3) (field s 4)
    let lon ← nmeaCoord E (field s 5) (field s 6)
    some (some (lat, lon))

end OpenALE.Gps

import OpenALE.Library.FormatG
import OpenALE.Word.Basic

/-!
# The bridge's JSON

Model of `minijson` (`apps/bridge/minijson.h`): the tree of values, `dump` and `parse`. A byte is a
character, a number a double. `dump` has no text where the cast to `long long` is undefined. A
parser call takes fuel, two of it for a level of nesting, and a failed parser goes on as the code's
does.
-/

namespace OpenALE.MiniJson

open Binary64

/-- `Value`. -/
inductive Value where
  | null
  | boolean (b : Bool)
  | number (n : Double)
  | string (s : Str)
  | array (items : List Value)
  | object (members : List (Str × Value))

/-- `Value::set`, on the members of an object. -/
def setMember (key : Str) (v : Value) : List (Str × Value) → List (Str × Value)
  | [] => [(key, v)]
  | (k, x) :: members =>
    if k = key then (k, v) :: members else (k, x) :: setMember key v members

/-! ## `dump` -/

/-- `%04x` of a control character. -/
def hex4 (n : Nat) : Str := ['0', '0', Nat.digitChar (n / 16), Nat.digitChar (n % 16)]

def escapeChar (c : Char) : Str :=
  if c = '"' then ['\\', '"']
  else if c = '\\' then ['\\', '\\']
  else if c = '\n' then ['\\', 'n']
  else if c = '\r' then ['\\', 'r']
  else if c = '\t' then ['\\', 't']
  else if c.toNat < 0x20 then '\\' :: 'u' :: hex4 c.toNat
  else [c]

/-- `escape_into`. -/
def escape (s : Str) : Str := '"' :: s.flatMap escapeChar ++ ['"']

/-- The cast of a double to an integer cuts towards zero. -/
def truncate (x : ℚ) : ℤ := if x < 0 then -⌊-x⌋ else ⌊x⌋

/-- The cast of an integer to a double. -/
def toDouble (n : ℤ) : ℚ := if n < 0 then -rnd n.natAbs else rnd n.natAbs

/-- `std::to_string`. -/
def toText (n : ℤ) : Str := if n < 0 then '-' :: Decimal.digits n.natAbs else Decimal.digits n.natAbs

/-- `%g`. -/
def formatG (x : ℚ) : Str := if x < 0 then '-' :: FormatG.formatG |x| else FormatG.formatG |x|

/-- The text of a number; `long long` holds from -2^63 to 2^63 - 1. -/
def dumpNumber : Double → Option Str
  | .finite x _ =>
    let n := truncate x
    if n < -2 ^ 63 ∨ 2 ^ 63 ≤ n then none
    else if x = toDouble n then some (toText n)
    else some (formatG x)
  | .infinite _ => none
  | .nan => none

mutual

/-- `dump_into`. -/
def dump : Value → Option Str
  | .null => some ['n', 'u', 'l', 'l']
  | .boolean b => some (if b then ['t', 'r', 'u', 'e'] else ['f', 'a', 'l', 's', 'e'])
  | .number n => dumpNumber n
  | .string s => some (escape s)
  | .array items => (dumpItems true items).map fun t => '[' :: t ++ [']']
  | .object members => (dumpMembers true members).map fun t => '\x7b' :: t ++ ['\x7d']

/-- The items of an array; a comma goes before each but the first. -/
def dumpItems (first : Bool) : List Value → Option Str
  | [] => some []
  | v :: items => do
    let t ← dump v
    let rest ← dumpItems false items
    some ((if first then [] else [',']) ++ t ++ rest)

/-- The members of an object. -/
def dumpMembers (first : Bool) : List (Str × Value) → Option Str
  | [] => some []
  | (key, v) :: members => do
    let t ← dump v
    let rest ← dumpMembers false members
    some ((if first then [] else [',']) ++ escape key ++ ':' :: t ++ rest)

end

/-! ## `parse` -/

/-- `Parser`: what is left of the text, and `failed_`. -/
structure Parser where
  rest : Str
  failed : Bool
  deriving Repr, DecidableEq

def isWs (c : Char) : Bool := c = ' ' || c = '\t' || c = '\n' || c = '\r'

namespace Parser

def fail (p : Parser) : Parser := { p with failed := true }

def advance (p : Parser) (n : Nat) : Parser := { p with rest := p.rest.drop n }

def peek (p : Parser) : Char := p.rest.headD '\x00'

def skipWs (p : Parser) : Parser := { p with rest := p.rest.dropWhile isWs }

end Parser

/-- A digit of a `\u` escape; anything else adds nothing. -/
def hexValue (h : Char) : Nat :=
  if '0' ≤ h ∧ h ≤ '9' then h.toNat - '0'.toNat
  else if 'a' ≤ h ∧ h ≤ 'f' then h.toNat - 'a'.toNat + 10
  else if 'A' ≤ h ∧ h ≤ 'F' then h.toNat - 'A'.toNat + 10
  else 0

/-- The character of a `\u` escape. -/
def unicode (h1 h2 h3 h4 : Char) : Char :=
  let code := ((hexValue h1 * 16 + hexValue h2) * 16 + hexValue h3) * 16 + hexValue h4
  if code < 128 then Char.ofNat code else '?'

/-- The character of any other escape. -/
def unescape (esc : Char) : Char :=
  if esc = 'n' then '\n' else if esc = 't' then '\t' else if esc = 'r' then '\r' else esc

/-- The loop of `parse_string`: the string, what is left, and whether the quote is missing. -/
def parseChars : Str → Str × Str × Bool
  | [] => ([], [], true)
  | '"' :: t => ([], t, false)
  | '\\' :: 'u' :: h1 :: h2 :: h3 :: h4 :: t =>
    (unicode h1 h2 h3 h4 :: (parseChars t).1, (parseChars t).2)
  | '\\' :: 'u' :: t => parseChars t
  | '\\' :: esc :: t => (unescape esc :: (parseChars t).1, (parseChars t).2)
  | c :: t => (c :: (parseChars t).1, (parseChars t).2)

/-- `parse_string`. -/
def parseString (p : Parser) : Str × Parser :=
  let (s, rest, missing) := parseChars (p.rest.drop 1)
  (s, { rest, failed := p.failed || missing })

/-- `parse_bool`. -/
def parseBool (p : Parser) : Value × Parser :=
  if ['t', 'r', 'u', 'e'] <+: p.rest then (.boolean true, p.advance 4)
  else if ['f', 'a', 'l', 's', 'e'] <+: p.rest then (.boolean false, p.advance 5)
  else (.null, p.fail)

def isNumberChar (c : Char) : Bool :=
  c.isDigit || c = '.' || c = 'e' || c = 'E' || c = '+' || c = '-'

/-- The range of `std::stod`: no overflow, and no magnitude below the normal ones but 0. -/
def inRange (q : ℚ) : Bool := q = 0 || (2 ^ (-1022 : ℤ) ≤ q && rnd q < limit)

/-- What `std::stod` makes of a number. -/
def doubles : Strtod.Doubles Double where
  inRange := inRange
  ofRat := Double.ofRat
  inf := .infinite false
  nan := .nan
  neg := Double.neg

/-- `parse_number`; the minus at the front is one of the characters of a number. -/
def parseNumber (p : Parser) : Value × Parser :=
  let text := p.rest.takeWhile isNumberChar
  let p' := { p with rest := p.rest.dropWhile isNumberChar }
  if text = [] then (.null, p.fail)
  else
    match Strtod.stod doubles text with
    | some d => (.number d, p')
    | none => (.null, p'.fail)

mutual

/-- `parse_value`, with the openings of `parse_object` and `parse_array`. -/
def parseValue : Nat → Parser → Value × Parser
  | 0, p => (.null, p.fail)
  | fuel + 1, p =>
    let p := p.skipWs
    if p.failed || p.rest.isEmpty then (.null, p.fail)
    else if p.peek = '\x7b' then
      let p := (p.advance 1).skipWs
      if p.peek = '\x7d' then (.object [], p.advance 1) else parseMembers fuel [] p
    else if p.peek = '[' then
      let p := (p.advance 1).skipWs
      if p.peek = ']' then (.array [], p.advance 1) else parseItems fuel [] p
    else if p.peek = '"' then
      let (s, p) := parseString p
      (.string s, p)
    else if p.peek = 't' || p.peek = 'f' then parseBool p
    else if p.peek = 'n' then (.null, p.advance 4)
    else parseNumber p

/-- The loop of `parse_array`. -/
def parseItems : Nat → List Value → Parser → Value × Parser
  | 0, items, p => (.array items, p.fail)
  | fuel + 1, items, p =>
    let (v, p) := parseValue fuel p
    let items := items ++ [v]
    let p := p.skipWs
    if p.peek = ',' then parseItems fuel items (p.advance 1)
    else if p.peek = ']' then (.array items, p.advance 1)
    else (.array items, (p.advance 1).fail)

/-- The loop of `parse_object`. -/
def parseMembers : Nat → List (Str × Value) → Parser → Value × Parser
  | 0, members, p => (.object members, p.fail)
  | fuel + 1, members, p =>
    let p := p.skipWs
    if p.peek ≠ '"' then (.object members, p.fail)
    else
      let (key, p) := parseString p
      let p := p.skipWs
      if p.peek ≠ ':' then (.object members, (p.advance 1).fail)
      else
        let (v, p) := parseValue fuel (p.advance 1)
        let members := setMember key v members
        let p := p.skipWs
        if p.peek = ',' then parseMembers fuel members (p.advance 1)
        else if p.peek = '\x7d' then (.object members, p.advance 1)
        else (.object members, (p.advance 1).fail)

end

/-- `parse`. -/
def parse (s : Str) : Value := (parseValue (2 * s.length + 2) { rest := s, failed := false }).1

end OpenALE.MiniJson

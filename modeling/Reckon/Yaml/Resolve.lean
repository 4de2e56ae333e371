import Reckon.Real.Reading

/-!
# The types of YAML scalars

A plain scalar without a tag gets its type from its text: `true` and `false` in three spellings
are booleans; the empty text, `~` and `null` in three spellings are null; integers are decimal,
or octal after a leading `0` or `0o`, hexadecimal after `0x` and binary after `0b`, with
underscores ignored, within 64 bits; decimals with a point or an exponent are reals, as are
`.inf`, `-.inf` and `.nan`, and a text that starts with a point is a real whenever it reads as
one, underscores between its digits included; a date `YYYY-M-D`, possibly with a time, is a timestamp; any other
text is a string. A scalar with an explicit tag is checked against it: a tag the text does not
fit is an error, except that an integer may stand for a real.
-/

namespace Reckon.Yaml

/-- The tag of texts. -/
def strTag : String := "!!str"
/-- The tag of truth values. -/
def boolTag : String := "!!bool"
/-- The tag of integers. -/
def intTag : String := "!!int"
/-- The tag of reals. -/
def floatTag : String := "!!float"
/-- The tag of null. -/
def nullTag : String := "!!null"
/-- The tag of timestamps. -/
def timestampTag : String := "!!timestamp"
/-- The tag of binary data. -/
def binaryTag : String := "!!binary"
/-- The tag of sequences. -/
def seqTag : String := "!!seq"
/-- The tag of mappings. -/
def mapTag : String := "!!map"
/-- The tag of merge keys. -/
def mergeTag : String := "!!merge"

/-- A tag in its short form: the standard prefix becomes `!!`. -/
def shortTag (tag : String) : String :=
  let prefixText := "tag:yaml.org,2002:"
  if tag.startsWith prefixText then "!!" ++ String.ofList (tag.toList.drop prefixText.length)
  else tag

/-- The value of a scalar once its type is known. -/
inductive ScalarValue where
  | null
  | bool (b : Bool)
  /-- An integer within the signed 64-bit range. -/
  | int (i : Int)
  /-- An integer beyond the signed 64-bit range that fits in 64 unsigned bits. -/
  | uint (n : Nat)
  | real (x : Float)
  | str (s : String)
  | timestamp
  deriving Inhabited

namespace Resolve

/-! ### Integers -/

/-- The value of a digit in `base`, if it is one. -/
def digitIn (base : Nat) (c : Char) : Option Nat :=
  let v := if '0' ≤ c && c ≤ '9' then c.toNat - '0'.toNat
    else if 'a' ≤ c && c ≤ 'z' then c.toNat - 'a'.toNat + 10
    else if 'A' ≤ c && c ≤ 'Z' then c.toNat - 'A'.toNat + 10
    else 36
  if v < base then some v else none

/-- The value of a non-empty run of digits in `base`. -/
def digitsIn (base : Nat) (cs : List Char) : Option Nat :=
  cs.foldlM (fun acc c => (digitIn base c).map (acc * base + ·)) 0

/-- An unsigned integer with an optional base prefix: `0b`, `0o`, `0x`, or a leading `0` for
octal. -/
def unsigned? (cs : List Char) : Option Nat :=
  match cs with
  | [] => none
  | '0' :: b :: rest@(_ :: _) =>
    if b == 'b' || b == 'B' then digitsIn 2 rest
    else if b == 'o' || b == 'O' then digitsIn 8 rest
    else if b == 'x' || b == 'X' then digitsIn 16 rest
    else digitsIn 8 (b :: rest)
  | '0' :: rest => digitsIn 8 rest
  | _ => digitsIn 10 cs

/-- An unsigned 64-bit integer. -/
def parseUnsigned? (cs : List Char) : Option Nat :=
  (unsigned? cs).filter fun n => decide (n < Nat.pow 2 64)

/-- A signed 64-bit integer, with an optional sign. -/
def parseSigned? (cs : List Char) : Option Int :=
  match cs with
  | '-' :: rest => (unsigned? rest).bind fun n =>
    if n ≤ Nat.pow 2 63 then some (-(n : Int)) else none
  | '+' :: rest => (unsigned? rest).bind fun n => if n < Nat.pow 2 63 then some n else none
  | _ => (unsigned? cs).bind fun n => if n < Nat.pow 2 63 then some n else none

/-! ### Reals -/

/-- Whether a text has the form `[-+](.digits | digits[.digits])[(e|E)[-+]digits]`. -/
def floatShaped (cs : List Char) : Bool :=
  let cs := match cs with
    | '-' :: r | '+' :: r => r
    | r => r
  let intPart := cs.takeWhile Char.isDigit
  let rest := cs.dropWhile Char.isDigit
  let (fracOk, rest) := match rest with
    | '.' :: r =>
      let frac := r.takeWhile Char.isDigit
      (!intPart.isEmpty || !frac.isEmpty, r.dropWhile Char.isDigit)
    | r => (!intPart.isEmpty, r)
  fracOk && match rest with
    | [] => true
    | e :: r =>
      (e == 'e' || e == 'E') &&
        let r := match r with
          | '-' :: r' | '+' :: r' => r'
          | r' => r'
        !r.isEmpty && r.all Char.isDigit

/-! ### Timestamps -/

/-- One or two digits. -/
def number12 (cs : List Char) : Option (Nat × List Char) :=
  match cs with
  | a :: b :: rest =>
    if a.isDigit && b.isDigit then some ((a.toNat - 48) * 10 + (b.toNat - 48), rest)
    else if a.isDigit then some (a.toNat - 48, b :: rest) else none
  | [a] => if a.isDigit then some (a.toNat - 48, []) else none
  | [] => none

/-- The days in a month of a year. -/
def daysIn (month year : Nat) : Nat :=
  if month == 2 then
    if year % 4 == 0 && (year % 100 != 0 || year % 400 == 0) then 29 else 28
  else if month == 4 || month == 6 || month == 9 || month == 11 then 30 else 31

/-- A date `YYYY-M-D` and what follows it. -/
def date? (cs : List Char) : Option (List Char) := do
  let y := cs.take 4
  if y.length != 4 || !y.all Char.isDigit then none
  let year := y.foldl (fun v c => v * 10 + (c.toNat - 48)) 0
  let rest := cs.drop 4
  let rest ← match rest with
    | '-' :: r => some r
    | _ => none
  let (month, rest) ← number12 rest
  if month < 1 || 12 < month then none
  let rest ← match rest with
    | '-' :: r => some r
    | _ => none
  let (day, rest) ← number12 rest
  if day < 1 || daysIn month year < day then none
  return rest

/-- A time `H:M:S[.fraction]` and what follows it. -/
def time? (cs : List Char) : Option (List Char) := do
  let (h, rest) ← number12 cs
  let rest ← match rest with
    | ':' :: r => some r
    | _ => none
  let (m, rest) ← number12 rest
  let rest ← match rest with
    | ':' :: r => some r
    | _ => none
  let (s, rest) ← number12 rest
  if 23 < h || 59 < m || 59 < s then none
  match rest with
  | c :: d :: r =>
    if (c == '.' || c == ',') && d.isDigit then some (r.dropWhile Char.isDigit) else some rest
  | _ => some rest

/-- A zone `Z` or `±hh:mm`. -/
def zone? (cs : List Char) : Bool :=
  match cs with
  | ['Z'] => true
  | [s, a, b, ':', c, d] =>
    (s == '+' || s == '-') && a.isDigit && b.isDigit && c.isDigit && d.isDigit &&
      (a.toNat - 48) * 10 + (b.toNat - 48) ≤ 24 && (c.toNat - 48) * 10 + (d.toNat - 48) ≤ 60
  | _ => false

/-- Whether a text is a timestamp: a date, or a date and a time after `T`, `t` (then with a
zone) or a space. -/
def isTimestamp (cs : List Char) : Bool :=
  let digits := cs.takeWhile Char.isDigit
  if digits.length != 4 || (cs.drop 4).head? != some '-' then false
  else
    match date? cs with
    | some [] => true
    | some (c :: rest) =>
      match time? rest with
      | some after => ((c == 'T' || c == 't') && zone? after) || (c == ' ' && after.isEmpty)
      | none => false
    | none => false

end Resolve

/-- The tag and value of a scalar text under a tag; the empty tag asks for the type to be found
from the text. A tag that the text does not fit is an error. -/
def resolve (tag text : String) : Except String (String × ScalarValue) :=
  let tag := shortTag tag
  if !(tag == "" || tag == strTag || tag == boolTag || tag == intTag || tag == floatTag ||
      tag == nullTag || tag == timestampTag) then .ok (tag, .str text)
  else
    let cs := text.toList
    let first := cs.head?.getD ' '
    let hint : Char :=
      if cs.isEmpty then 'N'
      else if first == '+' || first == '-' then 'S'
      else if first.isDigit then 'D'
      else if "yYnNtTfFoO~".contains first then 'M'
      else if first == '.' then '.'
      else ' '
    let found : String × ScalarValue :=
      if hint == ' ' || tag == strTag || tag == binaryTag then (strTag, .str text)
      else if text == "true" || text == "True" || text == "TRUE" then (boolTag, .bool true)
      else if text == "false" || text == "False" || text == "FALSE" then (boolTag, .bool false)
      else if text == "" || text == "~" || text == "null" || text == "Null" || text == "NULL" then
        (nullTag, .null)
      else if text == ".nan" || text == ".NaN" || text == ".NAN" then
        (floatTag, .real (Float.ofBits 0x7FF8000000000001))
      else if text == ".inf" || text == ".Inf" || text == ".INF" || text == "+.inf" ||
          text == "+.Inf" || text == "+.INF" then (floatTag, .real (Float.ofBits 0x7FF0000000000000))
      else if text == "-.inf" || text == "-.Inf" || text == "-.INF" then
        (floatTag, .real (Float.ofBits 0xFFF0000000000000))
      else if hint == '.' then
        match Real.read? text with
        | some x => (floatTag, .real x)
        | none => (strTag, .str text)
      else if hint == 'D' || hint == 'S' then
        if (tag == "" || tag == timestampTag) && Resolve.isTimestamp cs then (timestampTag, .timestamp)
        else
          let plain := cs.filter (· != '_')
          match Resolve.parseSigned? plain with
          | some i => (intTag, .int i)
          | none =>
            match Resolve.parseUnsigned? plain with
            | some n => (intTag, .uint n)
            | none =>
              match (if Resolve.floatShaped plain then Real.read? (String.ofList plain) else none) with
              | some x => (floatTag, .real x)
              | none => (strTag, .str text)
      else (strTag, .str text)
    let (rtag, value) := found
    if tag == "" || tag == rtag || tag == strTag || tag == binaryTag then .ok found
    else if tag == floatTag && rtag == intTag then
      match value with
      | .int i => .ok (floatTag, .real (Float.ofInt i))
      | _ => .error ("cannot decode " ++ rtag ++ " `" ++ text ++ "` as a " ++ tag)
    else .error ("cannot decode " ++ rtag ++ " `" ++ text ++ "` as a " ++ tag)

end Reckon.Yaml

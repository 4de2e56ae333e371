import Reckon.Text.Quoted
import Reckon.Text.Separators

/-!
# Reading flag values

The values given to command-line flags are read in the forms the command line accepts, and
refused with the messages it gives:

* truth values are `1`, `t`, `T`, `true`, `TRUE`, `True` and their false counterparts;
* integers have an optional sign and an optional base prefix (`0b`, `0o`, `0x`, or a leading
  `0` for octal), may separate digits with underscores, and must fit in 64 signed bits;
* durations are sequences of decimal numbers, each with a unit from `ns` to `h`, such as `5m`,
  `1.5h` or `-2m30s`, and must fit in 64 signed bits of nanoseconds;
* lists of texts are one line of comma-separated fields, where a field in double quotes may hold
  commas and doubled quotes.
-/

namespace Reckon.Cli

namespace Values

/-! ### Truth values -/

/-- A truth value. -/
def parseBool (s : String) : Except String Bool :=
  if ["1", "t", "T", "TRUE", "true", "True"].contains s then .ok true
  else if ["0", "f", "F", "FALSE", "false", "False"].contains s then .ok false
  else .error ("strconv.ParseBool: parsing " ++ Text.quote s ++ ": invalid syntax")

/-! ### Integers -/

/-- The largest unsigned 64-bit integer. -/
def maxUnsigned : Nat := Nat.pow 2 64 - 1

/-- The value of a digit or letter as a digit of any base up to 36. -/
def digitValue (c : Char) : Option Nat :=
  if '0' ≤ c && c ≤ '9' then some (c.toNat - '0'.toNat)
  else if 'a' ≤ Text.lower c && Text.lower c ≤ 'z' then some ((Text.lower c).toNat - 'a'.toNat + 10)
  else none

/-- Why a number was refused: its form, or its size. -/
inductive NumberError where
  | malformed
  | outOfRange

/-- Reads digits in `base` onto `n`, noting underscores; refuses a digit outside the base and
a value past 64 unsigned bits, whichever comes first. -/
def accumulate (base : Nat) : List Char → Nat → Bool → Except NumberError (Nat × Bool)
  | [], n, seen => .ok (n, seen)
  | c :: rest, n, seen =>
    if c == '_' then accumulate base rest n true
    else
      match digitValue c with
      | none => .error .malformed
      | some d =>
        if d ≥ base then .error .malformed
        else if n ≥ maxUnsigned / base + 1 then .error .outOfRange
        else if n * base + d > maxUnsigned then .error .outOfRange
        else accumulate base rest (n * base + d) seen

/-- An unsigned integer with an optional base prefix. -/
def parseUnsigned (cs : List Char) : Except NumberError Nat := do
  if cs.isEmpty then throw .malformed
  let (base, digits) := match cs with
    | '0' :: b :: rest@(_ :: _) =>
      if Text.lower b == 'b' then (2, rest)
      else if Text.lower b == 'o' then (8, rest)
      else if Text.lower b == 'x' then (16, rest)
      else (8, b :: rest)
    | '0' :: rest => (8, rest)
    | _ => (10, cs)
  let (n, underscores) ← accumulate base digits 0 false
  if underscores && !Text.underscoresFit cs then throw .malformed
  return n

/-- A signed 64-bit integer. -/
def parseInt (s : String) : Except String Int :=
  let fail := fun (what : String) =>
    Except.error ("strconv.ParseInt: parsing " ++ Text.quote s ++ ": " ++ what)
  let (negative, cs) := match s.toList with
    | '+' :: r => (false, r)
    | '-' :: r => (true, r)
    | r => (false, r)
  if s.isEmpty then fail "invalid syntax"
  else
    match parseUnsigned cs with
    | .error .malformed => fail "invalid syntax"
    | .error .outOfRange => fail "value out of range"
    | .ok n =>
      if !negative && n ≥ Nat.pow 2 63 then fail "value out of range"
      else if negative && n > Nat.pow 2 63 then fail "value out of range"
      else .ok (if negative then -(n : Int) else n)

/-! ### Durations -/

/-- Nanoseconds per unit of duration. -/
def units : List (String × Nat) :=
  [("ns", 1), ("us", 1000), ("\u00B5s", 1000), ("\u03BCs", 1000), ("ms", 1000000),
   ("s", 1000000000), ("m", 60000000000), ("h", 3600000000000)]

/-- A text in double quotes as durations quote it: quotes and backslashes escaped, and the
bytes of characters outside printable ASCII written as `\xNN`. -/
def durationQuote (s : String) : String :=
  let hex := fun (b : UInt8) =>
    let d := fun (v : Nat) => if v < 10 then Char.ofNat (48 + v) else Char.ofNat (87 + v)
    String.ofList ['\\', 'x', d (b.toNat / 16), d (b.toNat % 16)]
  "\"" ++ String.join (s.toList.map fun c =>
    if c.toNat < 0x20 || c.toNat ≥ 0x80 then String.join (c.toString.toUTF8.toList.map hex)
    else if c == '"' || c == '\\' then "\\" ++ c.toString
    else c.toString) ++ "\""

/-- The leading decimal digits, as long as they stay within `2^63`. -/
def leadingInt : List Char → Nat → Option (Nat × List Char)
  | [], x => some (x, [])
  | c :: rest, x =>
    if c.isDigit then
      if x > Nat.pow 2 63 / 10 then none
      else
        let x := x * 10 + (c.toNat - 48)
        if x > Nat.pow 2 63 then none else leadingInt rest x
    else some (x, c :: rest)

/-- The leading digits of a fraction: their value, ten to the number of digits kept, and the
rest. Digits past the 64-bit range are skipped. -/
def leadingFraction : List Char → Nat → Float → Bool → Nat × Float × List Char
  | [], x, scale, _ => (x, scale, [])
  | c :: rest, x, scale, past =>
    if !c.isDigit then (x, scale, c :: rest)
    else if past then leadingFraction rest x scale true
    else if x > (Nat.pow 2 63 - 1) / 10 then leadingFraction rest x scale true
    else
      let y := x * 10 + (c.toNat - 48)
      if y > Nat.pow 2 63 then leadingFraction rest x scale true
      else leadingFraction rest y (scale * 10) false

/-- The terms of a duration after its sign, added onto `d` nanoseconds. -/
def durationTerms (orig : String) : Nat → List Char → Nat → Except String Nat
  | 0, _, d => .ok d
  | _ + 1, [], d => .ok d
  | fuel + 1, cs, d => do
    let invalid := "time: invalid duration " ++ durationQuote orig
    match cs with
    | c :: _ => if !(c == '.' || c.isDigit) then throw invalid
    | [] => pure ()
    let (v, rest) ← match leadingInt cs 0 with
      | some r => pure r
      | none => throw invalid
    let pre := rest.length != cs.length
    let (f, scale, post, rest) := match rest with
      | '.' :: r =>
        let (f, scale, r') := leadingFraction r 0 1 false
        (f, scale, r'.length != r.length, r')
      | r => (0, 1, false, r)
    if !pre && !post then throw invalid
    let unitText := rest.takeWhile fun c => !(c == '.' || c.isDigit)
    let rest := rest.drop unitText.length
    if unitText.isEmpty then throw ("time: missing unit in duration " ++ durationQuote orig)
    let unit ← match units.lookup (String.ofList unitText) with
      | some u => pure u
      | none => throw ("time: unknown unit " ++ durationQuote (String.ofList unitText) ++
          " in duration " ++ durationQuote orig)
    if v > Nat.pow 2 63 / unit then throw invalid
    let v := v * unit
    let v := if f > 0 then
        v + (Float.ofNat f * (Float.ofNat unit / scale)).toUInt64.toNat
      else v
    if v > Nat.pow 2 63 then throw invalid
    let d := d + v
    if d > Nat.pow 2 63 then throw invalid
    durationTerms orig fuel rest d

/-- A duration in nanoseconds. -/
def parseDuration (s : String) : Except String Int := do
  let (negative, cs) := match s.toList with
    | '-' :: r => (true, r)
    | '+' :: r => (false, r)
    | r => (false, r)
  if cs == ['0'] then return 0
  if cs.isEmpty then throw ("time: invalid duration " ++ durationQuote s)
  let d ← durationTerms s (cs.length + 1) cs 0
  if negative then return -(d : Int)
  if d > Nat.pow 2 63 - 1 then throw ("time: invalid duration " ++ durationQuote s)
  return d

/-! ### Lists of texts -/

/-- A problem in a comma-separated line, at a line and a column counted in bytes from one. -/
def csvError (line column : Nat) (what : String) : String :=
  "parse error on line " ++ toString line ++ ", column " ++ toString column ++ ": " ++ what

/-- The fields of a quoted field's remainder: the text up to the closing quote, with doubled
quotes read as one. Returns the field, what follows the closing quote and the column after it. -/
def quotedField : List Char → List Char → Nat → Nat → Except String (String × List Char × Nat)
  | [], _, line, column => .error (csvError line column "extraneous or missing \" in quoted-field")
  | '"' :: '"' :: rest, acc, line, column => quotedField rest ('"' :: acc) line (column + 2)
  | '"' :: rest, acc, _, column => .ok (String.ofList acc.reverse, rest, column + 1)
  | c :: rest, acc, line, column => quotedField rest (c :: acc) line (column + c.utf8Size)

/-- The fields of one line, from column `column`. -/
def csvFields : Nat → List Char → Nat → Except String (List String)
  | 0, _, _ => .ok []
  | fuel + 1, cs, column =>
    match cs with
    | '"' :: rest => do
      let (field, after, column') ← quotedField rest [] 1 (column + 1)
      match after with
      | [] => return [field]
      | ',' :: more => return field :: (← csvFields fuel more (column' + 1))
      | _ => throw (csvError 1 (column' - 1) "extraneous or missing \" in quoted-field")
    | _ =>
      let field := cs.takeWhile (· != ',')
      let rest := cs.drop field.length
      match field.findIdx? (· == '"') with
      | some j =>
        let before := (field.take j).foldl (fun n c => n + c.utf8Size) 0
        .error (csvError 1 (column + before) "bare \" in non-quoted-field")
      | none =>
        let width := field.foldl (fun n c => n + c.utf8Size) 0
        match rest with
        | ',' :: more => do return String.ofList field :: (← csvFields fuel more (column + width + 1))
        | _ => return [String.ofList field]

/-- The texts of a comma-separated value; the empty text is the empty list. Only the first
line that is not empty is read. -/
def readCsv (s : String) : Except String (List String) :=
  if s.isEmpty then .ok []
  else
    let lines := (s.splitOn "\n").map fun l => if l.endsWith "\r" then (l.dropEnd 1).toString else l
    match lines.find? (· != "") with
    | none => .error "EOF"
    | some line => csvFields (line.length + 1) line.toList 1

end Values

end Reckon.Cli

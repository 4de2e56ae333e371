import Reckon.Real.Binary
import Reckon.Text.Separators

/-!
# Reading doubles

A double is read from a decimal or a hexadecimal text as the double nearest to the text's exact
value, a tie going to the even significand:

* an optional sign, then digits with at most one point, then an optional exponent `e` or `E`
  with an optional sign and decimal digits;
* or an optional sign, `0x` or `0X`, hexadecimal digits with at most one point, and a binary
  exponent `p` or `P` that may not be left out;
* underscores may separate digits, and a base prefix from a digit.

The names of the special values are read too: `inf` or `infinity` with an optional sign, and
`nan`, in any case. A negative zero keeps its sign. A text whose value lies beyond the largest
double is refused; one below the smallest double reads as a zero. Exponent digits past the
fifth are ignored, which changes no answer, since the value is then out of range either way.
-/

namespace Reckon.Real

/-- Whether `s` spells `word` in any mix of upper and lower case. -/
def spellsIgnoringCase (s word : List Char) : Bool :=
  s.length == word.length && (s.zip word).all fun (a, b) => a.toLower == b

/-- What has been read of the digits of a number: their value with leading zeros skipped, how
many digits count, where the point stands in them, and what was seen. -/
structure DigitScan where
  value : Nat := 0
  count : Nat := 0
  point : Int := 0
  sawPoint : Bool := false
  sawDigits : Bool := false
  underscores : Bool := false

/-- The value of a digit of base ten, or of base sixteen when `hex` holds. -/
def digitOf (hex : Bool) (c : Char) : Option Nat :=
  if '0' ≤ c && c ≤ '9' then some (c.toNat - 48)
  else if hex && 'a' ≤ Text.lower c && Text.lower c ≤ 'f' then some ((Text.lower c).toNat - 87)
  else none

/-- Reads digits, underscores and one point; stops at anything else and returns the rest. A
zero before the first counted digit only moves the point. -/
def scanDigits (hex : Bool) : DigitScan → List Char → DigitScan × List Char
  | st, [] => (st, [])
  | st, c :: r =>
    if c == '_' then scanDigits hex { st with underscores := true } r
    else if c == '.' then
      if st.sawPoint then (st, c :: r)
      else scanDigits hex { st with sawPoint := true, point := st.count } r
    else
      match digitOf hex c with
      | none => (st, c :: r)
      | some d =>
        if c == '0' && st.count = 0 then
          scanDigits hex { st with sawDigits := true, point := st.point - 1 } r
        else
          scanDigits hex
            { st with sawDigits := true, count := st.count + 1,
                      value := st.value * (if hex then 16 else 10) + d } r

/-- Reads the digits of an exponent with their underscores: its value, capped once it passes
ten thousand, whether an underscore was seen, and the rest. -/
def scanExponentDigits : Nat → Bool → List Char → Nat × Bool × List Char
  | e, seen, [] => (e, seen, [])
  | e, seen, c :: r =>
    if c == '_' then scanExponentDigits e true r
    else if '0' ≤ c && c ≤ '9' then
      scanExponentDigits (if e < 10000 then e * 10 + (c.toNat - 48) else e) seen r
    else (e, seen, c :: r)

/-- Reads an exponent after its letter: an optional sign and at least one decimal digit. -/
def scanExponent (cs : List Char) : Option (Int × Bool × List Char) :=
  let (negative, cs) := match cs with
    | '-' :: r => (true, r)
    | '+' :: r => (false, r)
    | r => (false, r)
  match cs with
  | c :: _ =>
    if '0' ≤ c && c ≤ '9' then
      let (e, seen, rest) := scanExponentDigits 0 false cs
      some (if negative then -(e : Int) else e, seen, rest)
    else none
  | [] => none

/-- The double nearest to `m · 10^t`, for `m > 0` with `n` digits; `none` past the largest
double. Beyond `10^310` the value overflows, and below `10^-324` it rounds to zero, so no
power is formed there. -/
def nearestDecimal (m n : Nat) (t : Int) : Option Float :=
  if 310 ≤ t + n then none
  else if t + n ≤ -324 then some 0.0
  else
    let q : Rat := if 0 ≤ t then ((m * Nat.pow 10 t.toNat : Nat) : Rat)
      else mkRat m (Nat.pow 10 (-t).toNat)
    let x := ofRat q
    if x == Float.ofBits 0x7FF0000000000000 then none else some x

/-- The double nearest to `m · 2^t`, for `m > 0`; `none` past the largest double. -/
def nearestBinary (m : Nat) (t : Int) : Option Float :=
  let b : Int := (Nat.log2 m : Int) + 1
  if 1025 ≤ b + t then none
  else if b + t ≤ -1075 then some 0.0
  else
    let x := ofRat (scaled m t)
    if x == Float.ofBits 0x7FF0000000000000 then none else some x

/-- The double that the text `s` denotes, if it is one. -/
def read? (s : String) : Option Float :=
  let (negative, body) := match s.toList with
    | '-' :: r => (true, r)
    | '+' :: r => (false, r)
    | r => (false, r)
  let signed (x : Float) : Float := if negative then -x else x
  if spellsIgnoringCase body "inf".toList || spellsIgnoringCase body "infinity".toList then
    some (signed (Float.ofBits 0x7FF0000000000000))
  else if spellsIgnoringCase s.toList "nan".toList then
    some (Float.ofBits 0x7FF8000000000001)
  else
    let (hex, digits) := match body with
      | '0' :: x :: c :: r => if Text.lower x == 'x' then (true, c :: r) else (false, body)
      | _ => (false, body)
    let (st, rest) := scanDigits hex {} digits
    let point : Int := if st.sawPoint then st.point else st.count
    let exponent : Option (Int × Bool × List Char) :=
      match rest with
      | c :: r =>
        if Text.lower c == (if hex then 'p' else 'e') then scanExponent r
        else if hex then none else some (0, false, rest)
      | [] => if hex then none else some (0, false, [])
    match exponent with
    | none => none
    | some (e, seenInExponent, rest) =>
      let consumed := s.toList.take (s.length - rest.length)
      if !st.sawDigits || !rest.isEmpty then none
      else if (st.underscores || seenInExponent) && !Text.underscoresFit consumed then none
      else if st.value = 0 then some (signed 0.0)
      else if hex then (nearestBinary st.value (4 * (point - st.count) + e)).map signed
      else (nearestDecimal st.value st.count (point - st.count + e)).map signed

end Reckon.Real

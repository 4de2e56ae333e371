import Reckon.Number.Basic
import Reckon.Text.Quoted

/-!
# Number literals

A number literal is read exactly, as a rational. Two forms are accepted, and the whole text
must be used:

* a fraction `a/b`: a signed integer `a` over an unsigned nonzero integer `b`. Each may be
  decimal or carry a base prefix, `0b` (binary), `0o` or a bare leading `0` (octal), `0x`
  (hexadecimal);
* a mantissa with an optional sign, digits and an optional point, then an optional exponent:
  `e` or `E` for a power of ten, `p` or `P` for a power of two. Here a leading `0` is just a
  digit, while `0b`, `0o` and `0x` still select a base.

An underscore may stand between two digits, or after a base prefix. A mantissa of zero is
zero whatever the exponent; otherwise a decimal exponent beyond a million, or a binary one
beyond ten million, is refused.
-/

namespace Reckon

namespace Literal

/-- The value of `c` as a digit, or `36` when it is no digit in any base up to 36. -/
def digitValue (c : Char) : Nat :=
  if '0' ≤ c ∧ c ≤ '9' then c.toNat - '0'.toNat
  else if 'a' ≤ c ∧ c ≤ 'z' then c.toNat - 'a'.toNat + 10
  else if 'A' ≤ c ∧ c ≤ 'Z' then c.toNat - 'A'.toNat + 10
  else 36

/-- A run of digits as read so far. `prev` is `'0'` after a digit, `'_'` after a separator and
`'.'` otherwise; a separator is misplaced unless it follows a digit or a base prefix and is
followed by a digit. -/
structure Digits where
  value : Nat := 0
  count : Nat := 0
  point : Option Nat := none
  prev : Char := '.'
  misplaced : Bool := false

/-- Reads digits of `base`, with separators, and with one point when `fraction` is set; stops
at the first character that belongs to none of these. -/
def Digits.scan (base : Nat) (fraction : Bool) : Digits → List Char → Digits × List Char
  | d, [] => (d, [])
  | d, c :: cs =>
    if c == '.' && fraction && d.point.isNone then
      Digits.scan base fraction { d with point := some d.count, prev := '.' } cs
    else if c == '_' then
      Digits.scan base fraction { d with misplaced := d.misplaced || d.prev != '0', prev := '_' } cs
    else if digitValue c < base then
      Digits.scan base fraction
        { d with value := d.value * base + digitValue c, count := d.count + 1, prev := '0' } cs
    else (d, c :: cs)

/-- An unsigned run of digits with its base and, for a mantissa, its count of digits after
the point (zero or negative, as `-k` for `k` digits). -/
structure Magnitude where
  value : Nat
  base : Nat
  fractionDigits : Int

/-- Reads an unsigned number with an optional base prefix; with `fraction` set a point is
allowed and a bare leading `0` is a decimal digit rather than the octal prefix. Refuses a
misplaced separator and a run without digits. -/
def scanMagnitude (fraction : Bool) (cs : List Char) : Option (Magnitude × List Char) :=
  let (base, prefixChar, start, rest) : Nat × Char × Digits × List Char :=
    match cs with
    | '0' :: c :: r =>
      if c == 'b' || c == 'B' then (2, 'b', { prev := '0' }, r)
      else if c == 'o' || c == 'O' then (8, 'o', { prev := '0' }, r)
      else if c == 'x' || c == 'X' then (16, 'x', { prev := '0' }, r)
      else if !fraction then (8, '0', { prev := '0' }, c :: r)
      else (10, ' ', { prev := '0', count := 1 }, c :: r)
    | '0' :: r => (if fraction then (10, ' ', { prev := '0', count := 1 }, r)
        else (10, ' ', { prev := '0', count := 1 }, r))
    | r => (10, ' ', {}, r)
  let (d, rest) := Digits.scan base fraction start rest
  if d.misplaced || d.prev == '_' then none
  else if d.count = 0 then
    if prefixChar == '0' then some (⟨0, 10, 0⟩, rest) else none
  else
    let fd : Int := match d.point with
      | some p => (p : Int) - d.count
      | none => 0
    some (⟨d.value, base, fd⟩, rest)

/-- Reads an optional exponent: `e`/`E` for base ten or `p`/`P` for base two, an optional
sign and digits with separators, whose value must lie in the 64-bit signed range. No exponent
reads as `0` in base ten. -/
def scanExponent (cs : List Char) : Option (Int × Nat × List Char) :=
  let body (ebase : Nat) (r : List Char) : Option (Int × Nat × List Char) :=
    let (negative, r) := match r with
      | '-' :: r => (true, r)
      | '+' :: r => (false, r)
      | r => (false, r)
    let (d, rest) := Digits.scan 10 false {} r
    if d.count = 0 then none
    else if d.misplaced || d.prev == '_' then none
    else if Nat.pow 2 63 < d.value + (if negative then 0 else 1) then none
    else some (if negative then -(d.value : Int) else d.value, ebase, rest)
  match cs with
  | c :: r => if c == 'e' || c == 'E' then body 10 r
      else if c == 'p' || c == 'P' then body 2 r
      else some (0, 10, cs)
  | [] => some (0, 10, [])

/-- Reads an optional sign. -/
def scanSign : List Char → Bool × List Char
  | '-' :: r => (true, r)
  | '+' :: r => (false, r)
  | r => (false, r)

/-- The mantissa form with its exponent. -/
def readDecimal (cs : List Char) : Option Rat := do
  let (negative, cs) := scanSign cs
  let (m, cs) ← scanMagnitude true cs
  let (e, ebase, cs) ← scanExponent cs
  if !cs.isEmpty then none
  else if m.value = 0 then some 0
  else
    let bitsPerDigit : Int := if m.base == 16 then 4 else if m.base == 8 then 3 else 1
    let exp5 : Int := (if m.base == 10 then m.fractionDigits else 0) + (if ebase == 10 then e else 0)
    let exp2 : Int := (if m.base == 10 then m.fractionDigits else m.fractionDigits * bitsPerDigit) + e
    if 1000000 < exp5.natAbs then none
    else if 10000000 < exp2.natAbs then none
    else
      let num : Nat := m.value * Nat.pow 5 exp5.toNat * Nat.pow 2 exp2.toNat
      let den : Nat := Nat.pow 5 (-exp5).toNat * Nat.pow 2 (-exp2).toNat
      some (mkRat (if negative then -(num : Int) else num) den)

/-- The fraction form `a/b`. -/
def readFraction (a b : List Char) : Option Rat := do
  let (negative, a) := scanSign a
  if a.isEmpty then none
  else
    let (p, ra) ← scanMagnitude false a
    let (q, rb) ← scanMagnitude false b
    if !ra.isEmpty || !rb.isEmpty || q.value = 0 then none
    else some (mkRat (if negative then -(p.value : Int) else p.value) q.value)

end Literal

/-- The exact value of a number literal, if the text is one. -/
def readNumber? (s : String) : Option Rat :=
  let cs := s.toList
  if cs.isEmpty then none
  else
    match cs.findIdx? (· == '/') with
    | some i => Literal.readFraction (cs.take i) (cs.drop (i + 1))
    | none => Literal.readDecimal cs

/-- A literal that is no number. -/
structure LiteralError where
  literal : String

/-- The text of a literal error. -/
def LiteralError.message (e : LiteralError) : String :=
  "invalid number literal " ++ Text.quote e.literal

/-- The exact number that a literal denotes. -/
def Number.ofLiteral (s : String) : Except LiteralError Number :=
  match readNumber? s with
  | some q => .ok (.exact q)
  | none => .error ⟨s⟩

end Reckon

/-!
# Doubles as binary fractions

A finite double is `± m · 2^e` with a significand `m` below `2^53`. This module takes a
double apart into that form and gives its exact rational value; and it goes the other way,
from a rational to the double nearest to it. Rounding goes to the nearest double and a tie to
the one with the even significand; a magnitude past the largest double becomes an infinity,
and one below the smallest normal double lands on the subnormal grid `k · 2^-1074`.
-/

namespace Reckon.Real

/-- A double taken apart: a finite value `± significand · 2^exponent`, an infinity, or NaN. -/
inductive Shape where
  | finite (negative : Bool) (significand : Nat) (exponent : Int)
  | infinite (negative : Bool)
  | nan
  deriving Repr, BEq

/-- The shape of the double with the bits `b`, read off its sign bit, its 11 exponent bits and its
52 fraction bits. -/
def shapeOfBits (b : Nat) : Shape :=
  let negative := decide (Nat.pow 2 63 ≤ b)
  let biased : Nat := b / Nat.pow 2 52 % Nat.pow 2 11
  let fraction : Nat := b % Nat.pow 2 52
  if biased = 2047 then
    if fraction = 0 then .infinite negative else .nan
  else if biased = 0 then .finite negative fraction (-1074)
  else .finite negative (fraction + Nat.pow 2 52) ((biased : Int) - 1075)

/-- The shape of `x`. -/
def shape (x : Float) : Shape := shapeOfBits x.toBits.toNat

/-- Whether `x` is neither an infinity nor NaN. -/
def isFinite (x : Float) : Bool :=
  match shape x with
  | .finite .. => true
  | _ => false

/-- Whether `x` carries the sign bit (so `-0` is negative). -/
def signBit (x : Float) : Bool :=
  decide (Nat.pow 2 63 ≤ x.toBits.toNat)

/-- The rational `m · 2^e`. -/
def scaled (m : Nat) (e : Int) : Rat :=
  if 0 ≤ e then ((m * Nat.pow 2 e.toNat : Nat) : Rat) else mkRat m (Nat.pow 2 (-e).toNat)

/-- The exact value of a finite double; `none` for an infinity or NaN. -/
def toRat? (x : Float) : Option Rat :=
  match shape x with
  | .finite negative m e => some (if negative then -scaled m e else scaled m e)
  | _ => none

/-- The exact value of a double taken apart; `none` for an infinity or NaN. -/
def Shape.value? : Shape → Option Rat
  | .finite negative m e => some (if negative then -scaled m e else scaled m e)
  | _ => none

/-- Whether two doubles are equal as IEEE 754 compares them: finite doubles when their values
are (so `-0` equals `0`), an infinity only the infinity of its sign, and NaN nothing at all. -/
def Shape.same (a b : Shape) : Bool :=
  match a, b with
  | .finite .., .finite .. => a.value? == b.value?
  | .infinite s, .infinite t => s == t
  | _, _ => false

/-- Whether `a < b` as IEEE 754 orders doubles: finite doubles by their values, `-∞` below and
`+∞` above all of them, and NaN neither below nor above anything. -/
def Shape.lt (a b : Shape) : Bool :=
  match a, b with
  | .finite .., .finite .. => decide ((a.value?.getD 0) < (b.value?.getD 0))
  | .infinite s, .infinite t => s && !t
  | .infinite s, .finite .. => s
  | .finite .., .infinite t => !t
  | _, _ => false

/-- The quotient `⌊n / (d · 2^k)⌋`, for an exponent `k` of either sign. -/
def quotientAt (n d : Nat) (k : Int) : Nat :=
  n * Nat.pow 2 (-k).toNat / (d * Nat.pow 2 k.toNat)

/-- The bits of the non-negative double nearest to `n / d`, for `d > 0`.

The exponent `k` is chosen so that the quotient `n / (d · 2^k)` has 53 bits, but never below
`-1074`, where the subnormal grid starts. The quotient is rounded to the nearest integer with
ties to even; a carry into the 54th bit moves up one exponent, and an exponent past the largest
finite double gives the bits of infinity. -/
def nearestBits (n d : Nat) : Nat :=
  if n = 0 then 0 else
    let k₀ : Int := (n.log2 : Int) - (d.log2 : Int) - 52
    let k₁ := if quotientAt n d k₀ < Nat.pow 2 52 then k₀ - 1 else k₀
    let k := max k₁ (-1074)
    let num := n * Nat.pow 2 (-k).toNat
    let den := d * Nat.pow 2 k.toNat
    let q := num / den
    let r := num % den
    let q := if den < 2 * r || (2 * r = den && q % 2 = 1) then q + 1 else q
    let (q, k) := if q = Nat.pow 2 53 then (Nat.pow 2 52, k + 1) else (q, k)
    if q < Nat.pow 2 52 then q
    else if 2047 ≤ k + 1075 then 0x7FF0000000000000
    else (k + 1075).toNat * Nat.pow 2 52 + (q - Nat.pow 2 52)

/-- The bits of the double nearest to the rational `q`, with ties to the even significand. A
negative rational too small for any nonzero double gives the bits of `-0`. -/
def ofRatBits (q : Rat) : Nat :=
  let bits := nearestBits q.num.natAbs q.den
  if q.num < 0 then bits + Nat.pow 2 63 else bits

/-- The double nearest to the rational `q`. -/
def ofRat (q : Rat) : Float := Float.ofBits (UInt64.ofNat (ofRatBits q))

end Reckon.Real

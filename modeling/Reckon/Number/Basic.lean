import Reckon.Real.Shortest
import Reckon.Real.Power

/-!
# Numbers

A number of the calculator is an exact rational, or a real held as a double once an
operation has left the rationals. Sums, differences and products of two exact numbers stay
exact; with a real operand they are computed on doubles, the exact operand taken to its
nearest double. A quotient by zero is refused. A power stays exact when the exponent is an
integer of magnitude at most `4096` and the result is estimated at no more than `65536` bits;
otherwise it is the real power, refused when not finite.

Comparison goes through exact values: a finite real is compared by its exact binary value,
so the real `0.1` differs from the rational `1/10`. Only when an infinity or NaN takes part
are the doubles compared directly.
-/

namespace Reckon

/-- A number: an exact rational, or a real held as a double. -/
inductive Number where
  | exact (q : Rat)
  | real (x : Float)

/-- Why an arithmetic operation has no result. -/
inductive ArithError where
  | divisionByZero
  | notFinite
  deriving DecidableEq, Repr

/-- The text of an arithmetic error. -/
def ArithError.message : ArithError → String
  | .divisionByZero => "division by zero"
  | .notFinite => "result is not a finite number"

namespace Number

/-- The exact integer `n`. -/
def ofInt (n : Int) : Number := .exact n

/-- Whether the number is exact. -/
def isExact : Number → Bool
  | .exact _ => true
  | .real _ => false

/-- The double nearest to the number. -/
def toFloat : Number → Float
  | .exact q => Real.ofRat q
  | .real x => x

/-- The double held by a number, taken apart; an exact number holds none and gives the
shape of `0`. -/
def rawShape : Number → Real.Shape
  | .exact _ => .finite false 0 (-1074)
  | .real x => Real.shape x

/-- The exact value: a real converts exactly, and an infinity or NaN has none. -/
def toRat? : Number → Option Rat
  | .exact q => some q
  | .real x => Real.toRat? x

/-- Whether the number is an integer. A real is one when it is finite and equals its
truncation, which is when its exact value is an integer; an infinity and NaN are not. -/
def isInt : Number → Bool
  | .exact q => q.den == 1
  | .real x =>
    match Real.toRat? x with
    | some q => q.den == 1
    | none => false

/-- The number as a 64-bit signed integer, when it is an integer in range. A real is in
range when its magnitude is at most the largest 64-bit integer taken to a double, which rounds
up to `2^63`; the one real at `2^63` then becomes the least integer `-2^63`, as a truncating
conversion does on overflow. -/
def toInt64? (n : Number) : Option Int :=
  match n with
  | .exact q =>
    if q.den == 1 && -(Nat.pow 2 63 : Int) ≤ q.num && q.num < Nat.pow 2 63 then some q.num else none
  | .real x =>
    match Real.toRat? x with
    | some q =>
      if q.den == 1 && -(Nat.pow 2 63 : Int) ≤ q.num && q.num ≤ Nat.pow 2 63 then
        some (if q.num < Nat.pow 2 63 then q.num else -(Nat.pow 2 63))
      else none
    | none => none

/-- The text of a rational: an integer in plain digits, otherwise `p/q` in lowest terms
with the sign on the numerator. -/
def ratText (q : Rat) : String :=
  if q.den == 1 then toString q.num else toString q.num ++ "/" ++ toString q.den

/-- The text of a number: a rational as `ratText`, a real in its shortest form. -/
def text : Number → String
  | .exact q => ratText q
  | .real x => Real.format x

/-- Equality by value. Without an exact value on one side the doubles held are compared, an
exact number holding `0`. -/
def equal (n m : Number) : Bool :=
  match n.toRat?, m.toRat? with
  | some a, some b => a == b
  | _, _ => n.rawShape.same m.rawShape

/-- The double nearest to the number, taken apart: an exact number's nearest double, a real's
own. -/
def nearestShape : Number → Real.Shape
  | .exact q => Real.shapeOfBits (Real.ofRatBits q)
  | .real x => Real.shape x

/-- Comparison by value: `-1`, `0` or `1`. Without an exact value on one side the nearest
doubles are compared as IEEE 754 orders them, and NaN compares as equal to everything. -/
def compare (n m : Number) : Int :=
  match n.toRat?, m.toRat? with
  | some a, some b => if a < b then -1 else if b < a then 1 else 0
  | _, _ =>
    let x := n.nearestShape
    let y := m.nearestShape
    if x.lt y then -1 else if y.lt x then 1 else 0

/-- The sum. -/
def add : Number → Number → Number
  | .exact a, .exact b => .exact (a + b)
  | n, m => .real (n.toFloat + m.toFloat)

/-- The difference. -/
def sub : Number → Number → Number
  | .exact a, .exact b => .exact (a - b)
  | n, m => .real (n.toFloat - m.toFloat)

/-- The product. -/
def mul : Number → Number → Number
  | .exact a, .exact b => .exact (a * b)
  | n, m => .real (n.toFloat * m.toFloat)

/-- The negation. -/
def neg : Number → Number
  | .exact a => .exact (-a)
  | .real x => .real (-x)

/-- A real result, refused when it is an infinity or NaN. -/
def finite (x : Float) : Except ArithError Number :=
  if Real.isFinite x then .ok (.real x) else .error .notFinite

/-- Whether a divisor counts as zero: its nearest double is zero and it is a real or an exact
zero. A tiny nonzero rational is no zero. -/
def isZeroDivisor (m : Number) : Bool :=
  m.toFloat == 0 &&
    match m with
    | .exact q => q == 0
    | .real _ => true

/-- The quotient. -/
def quo (n m : Number) : Except ArithError Number :=
  if m.isZeroDivisor then .error .divisionByZero
  else
    match n, m with
    | .exact a, .exact b => .ok (.exact (a / b))
    | _, _ => finite (n.toFloat / m.toFloat)

/-- The number of binary digits of `n` (none for zero). -/
def bitLength (n : Nat) : Nat :=
  if n = 0 then 0 else n.log2 + 1

/-- Largest exponent magnitude of an exact power. -/
def maxExactExponent : Nat := 4096

/-- Largest estimated size in bits of an exact power. -/
def maxExactPowerBits : Nat := 65536

/-- An integer taken into the range `[-2^63, 2^63)` of a 64-bit integer, as two's complement
arithmetic wraps it. -/
def wrap64 (x : Int) : Int := x.bmod (Nat.pow 2 64)

/-- The magnitude of a 64-bit integer, computed in 64 bits: the negation of `-2^63` wraps to
itself, so its magnitude stays negative. -/
def abs64 (e : Int) : Int := if e < 0 then wrap64 (-e) else e

/-- `q ^ e` for an integer `e`, exactly; zero to a negative power is refused. The power is
taken to the magnitude `abs64 e`, and a power to no positive magnitude is one. -/
def exactPow (q : Rat) (e : Int) : Except ArithError Number :=
  if e < 0 && q == 0 then .error .divisionByZero
  else
    let k := (abs64 e).toNat
    let num : Int := Int.pow q.num k
    let den : Nat := Nat.pow q.den k
    if e < 0 then
      .ok (.exact (mkRat (if num < 0 then -(den : Int) else den) num.natAbs))
    else .ok (.exact (mkRat num den))

/-- The power `n ^ m`. The bounds are checked in 64-bit arithmetic: the magnitude of the
exponent by `abs64`, and the estimate of the size of the result, the bits of the base times that
magnitude, wrapped. -/
def pow (n m : Number) : Except ArithError Number :=
  match n, m, m.toInt64? with
  | .exact a, .exact _, some e =>
    if abs64 e ≤ maxExactExponent &&
        wrap64 ((bitLength a.num.natAbs + bitLength a.den) * abs64 e) ≤ maxExactPowerBits then
      exactPow a e
    else finite (Real.power n.toFloat m.toFloat)
  | _, _, _ => finite (Real.power n.toFloat m.toFloat)

end Number

end Reckon

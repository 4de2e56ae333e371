import Reckon.Real.Binary

/-!
# Real powers

`power x y` raises the double `x` to the double `y`. The special cases come first: a zero
exponent or a base of one give one, an exponent of one gives the base, NaN spreads, zeros
and infinities follow the sign rules of IEEE 754 `pow`, and the exponents `1/2` and `-1/2`
are a correctly rounded square root and its reciprocal. Otherwise the exponent is split into
an integer part and a fraction of at most one half in magnitude. The fraction contributes
`exp (f · log x)`; the integer part is applied by repeated squaring of the base, keeping the
binary exponent apart so that no intermediate product overflows; the two exponents are
joined at the end by one exact scaling.

`log` reads the exponent field and the fraction bits of its argument as they stand and sums
an odd series in `s = f / (2 + f)`; `exp` reduces by the nearest multiple of `ln 2`, divides
by sixteen, sums the series of `e^r - 1` and doubles four times. Both take their steps, and
the places where a multiply and an add are fused, from the machine routines whose results the
calculator reports, so that the last bit of a power agrees with them; for a subnormal base
the logarithm is therefore not the true one.
-/

namespace Reckon.Real

/-- Positive infinity. -/
def posInf : Float := Float.ofBits 0x7FF0000000000000

/-- Negative infinity. -/
def negInf : Float := Float.ofBits 0xFFF0000000000000

/-- A quiet NaN. -/
def notANumber : Float := Float.ofBits 0x7FF8000000000001

/-- Whether `x` is NaN. -/
def isNaN (x : Float) : Bool := x != x

/-- Whether `x` is an infinity. -/
def isInfinite (x : Float) : Bool :=
  match shape x with
  | .infinite _ => true
  | _ => false

/-- The integer part of `x`, rounded toward zero. -/
def truncToInt (x : Float) : Int :=
  match toRat? x with
  | some q => if q < 0 then -((-q).floor) else q.floor
  | none => 0

/-- A normal double `y` and an exponent `k` with `x = y · 2^k`, for finite nonzero `x`. -/
def normalize (x : Float) : Float × Int :=
  if x.abs < 2.2250738585072014e-308 then (x * 4503599627370496.0, -52) else (x, 0)

/-- The bits of `x` with the exponent field replaced by `biased`. -/
def withExponentField (x : Float) (biased : Nat) : Float :=
  let b := x.toBits.toNat
  Float.ofBits (UInt64.ofNat (b - (b / Nat.pow 2 52 % 2048) * Nat.pow 2 52 + biased * Nat.pow 2 52))

/-- The fraction in `[1/2, 1)` and the exponent of `x`, so that `x = fraction · 2^exponent`;
zeros, infinities and NaN come back unchanged with exponent zero. -/
def frexp (x : Float) : Float × Int :=
  if x == 0 || !isFinite x then (x, 0)
  else
    let (y, k) := normalize x
    let biased : Nat := y.toBits.toNat / Nat.pow 2 52 % 2048
    (withExponentField y 1022, k + biased - 1022)

/-- `x · 2^k`, rounded once; it overflows to an infinity and underflows to a signed zero. -/
def ldexp (x : Float) (k : Int) : Float :=
  if x == 0 || !isFinite x then x
  else
    let (y, k₀) := normalize x
    let e := k + k₀ + ((y.toBits.toNat / Nat.pow 2 52 % 2048 : Nat) : Int) - 1023
    if e < -1075 then (if signBit x then -0.0 else 0.0)
    else if 1023 < e then (if x < 0 then negInf else posInf)
    else if e < -1022 then
      (1.0 / 9007199254740992.0) * withExponentField y (e + 53 + 1023).toNat
    else withExponentField y (e + 1023).toNat

/-- The integer and fractional parts of a non-negative finite `x`. -/
def splitFraction (x : Float) : Float × Float :=
  if x < 1 then (if x == 0 then (x, x) else (0.0, x))
  else
    let b := x.toBits.toNat
    let e := b / Nat.pow 2 52 % 2048 - 1023
    let i := if e < 52 then Float.ofBits (UInt64.ofNat (b - b % Nat.pow 2 (52 - e))) else x
    (i, x - i)

/-- Whether `x` is an odd integer of magnitude below `2^53`. -/
def isOddInteger (x : Float) : Bool :=
  if 9007199254740992.0 ≤ x.abs then false
  else
    let (i, f) := splitFraction x.abs
    f == 0 && truncToInt i % 2 == 1

/-- `a · b + c` rounded once, as a fused multiply-add does. The exact value is rounded to the
nearest double; an exact zero keeps the sign that separate rounding gives it, since then
`a · b` is itself a double. Operands that are not finite are combined step by step. -/
def mulAdd (a b c : Float) : Float :=
  match toRat? a, toRat? b, toRat? c with
  | some p, some q, some r =>
    let v := p * q + r
    if v = 0 then a * b + c else ofRat v
  | _, _, _ => a * b + c

/-- The integer nearest to `x`, a tie going to the even one, when it lies in the 32-bit
range; otherwise, and for NaN, the least 32-bit integer, as a conversion of the default
rounding mode does. -/
def roundToInt32 (x : Float) : Int :=
  match toRat? x with
  | none => -2147483648
  | some q =>
    let f := q.floor
    let d := q - f
    let n := if d < 1 / 2 then f else if 1 / 2 < d then f + 1 else if f % 2 = 0 then f else f + 1
    if n < -2147483648 || 2147483647 < n then -2147483648 else n

/-- The double `2^e`, for `-1022 ≤ e ≤ 1023`. -/
def twoPow (e : Int) : Float :=
  Float.ofBits (UInt64.ofNat ((e + 1023).toNat * 4503599627370496))

/-- The natural logarithm. A zero gives `-∞`, a negative argument NaN, and `+∞` and NaN come
back unchanged. Otherwise `x` is split into its exponent field `k` and the fraction `f₁` with
the same fraction bits and the exponent of `1/2`; for a subnormal `x` the split reads the bits
as they stand, so it is not `x = f₁ · 2^k`. A fraction at most `√2/2` is doubled. Then
`log (1 + f)` is an odd series in `s = f / (2 + f)`, and `k · ln 2` is added in two parts. -/
def log (x : Float) : Float :=
  if x == 0 then negInf
  else if signBit x then notANumber
  else if isNaN x || x == posInf then x
  else
    let b := x.toBits.toNat
    let f₁ := Float.ofBits (UInt64.ofNat (b % 4503599627370496 + 0x3FE0000000000000))
    let k₁ : Int := ((b / 4503599627370496 % 2048 : Nat) : Int) - 1022
    let (f₁, k₁) := if f₁ ≤ 7.07106781186547524401e-01 then (f₁ * 2, k₁ - 1) else (f₁, k₁)
    let f := f₁ - 1
    let k := Float.ofInt k₁
    let s := f / (2 + f)
    let s2 := s * s
    let s4 := s2 * s2
    let t1 := s2 * (6.666666666666735130e-01 + s4 * (2.857142874366239149e-01 +
      s4 * (1.818357216161805012e-01 + s4 * 1.479819860511658591e-01)))
    let t2 := s4 * (3.999999999940941908e-01 + s4 * (2.222219843214978396e-01 +
      s4 * 1.531383769920937332e-01))
    let r := t1 + t2
    let hfsq := 0.5 * f * f
    k * 6.93147180369123816490e-01 - ((hfsq - (s * (hfsq + r) + k * 1.90821492927058770002e-10)) - f)

/-- The coefficients `1/8!, 1/7!, …, 1/2!, 1` of the series of `e^r - 1`, highest first. -/
def expSeries : List Float :=
  [2.4801587301587301587e-5, 1.9841269841269841270e-4, 1.3888888888888888889e-3,
    8.3333333333333333333e-3, 4.1666666666666666667e-2, 1.6666666666666666667e-1, 0.5, 1.0]

/-- `y · 2^k`, where `k` is the exponent of the reduction. An exponent past the largest double
gives `+∞`; one below the subnormal range gives `+0`; between them the result is scaled in two
steps, the second onto the subnormal grid. -/
def expScale (y : Float) (k : Int) : Float :=
  let b := k + 1023
  if b ≤ 0 then
    if b < -52 then 0.0 else y * twoPow (b - 1) * twoPow (-1022)
  else if 2047 ≤ b then posInf
  else y * twoPow k

/-- The exponential function. The argument is reduced by `k · ln 2`, for the integer `k`
nearest to `x / ln 2` and `ln 2` split into a short high part and a low part, each subtracted
by a fused multiply-add; the reduced argument is divided by 16. The series of `e^r - 1` to the
eighth power gives `e^(r/16) - 1`, and four doublings `u ↦ u · (2 + u)` give `e^r - 1`; the
last doubling is fused with adding one. Then `2^k` scales the result. -/
def exp (x : Float) : Float :=
  if isNaN x || x == posInf then x
  else if x == negInf then 0.0
  else if 7.09782712893384e+02 < x then posInf
  else
    let k := roundToInt32 (1.4426950408889634073599246810018920 * x)
    let kf := Float.ofInt k
    let r := mulAdd (-0.69314718055966295651160180568695068359375) kf x
    let r := mulAdd (-0.28235290563031577122588448175013436025525412068e-12) kf r
    let r := r * 0.0625
    let u := expSeries.foldl (fun acc c => mulAdd acc r c) 0 * r
    let u := (2 + u) * u
    let u := (2 + u) * u
    let u := (2 + u) * u
    expScale (mulAdd (2 + u) u 1.0) k

/-- Multiplies in `x₁ · 2^xe` once for each set bit of `i`, squaring between bits; the
product is kept as `a₁ · 2^ae`. A binary exponent past `±4096` stops the loop, since the
final scaling then overflows or underflows anyway. -/
def powerLoop (i : Nat) (x₁ : Float) (xe : Int) (a₁ : Float) (ae : Int) : Float × Int :=
  if i = 0 then (a₁, ae)
  else if xe < -4096 || 4096 < xe then (a₁, ae + xe)
  else
    let (a₁, ae) := if i % 2 = 1 then (a₁ * x₁, ae + xe) else (a₁, ae)
    let x₁ := x₁ * x₁
    let xe := xe * 2
    let (x₁, xe) := if x₁ < 0.5 then (x₁ + x₁, xe - 1) else (x₁, xe)
    powerLoop (i / 2) x₁ xe a₁ ae
termination_by i
decreasing_by exact Nat.div_lt_self (by omega) (by decide)

/-- `x` raised to the power `y`. -/
def power (x y : Float) : Float :=
  if y == 0 || x == 1 then 1.0
  else if y == 1 then x
  else if isNaN x || isNaN y then notANumber
  else if x == 0 then
    if y < 0 then (if signBit x && isOddInteger y then negInf else posInf)
    else if signBit x && isOddInteger y then x else 0.0
  else if isInfinite y then
    if x == -1 then 1.0
    else if (x.abs < 1) == (y == posInf) then 0.0
    else posInf
  else if isInfinite x then
    if x == negInf then
      -- (-∞)^y is (-0)^(-y)
      if -y < 0 then (if isOddInteger (-y) then negInf else posInf)
      else if isOddInteger (-y) then -0.0 else 0.0
    else if y < 0 then 0.0 else posInf
  else if y == 0.5 then x.sqrt
  else if y == -0.5 then 1 / x.sqrt
  else
    let (yi, yf) := splitFraction y.abs
    if yf != 0 && x < 0 then notANumber
    else if 9223372036854775808.0 ≤ yi then
      if x == -1 then 1.0
      else if (x.abs < 1) == (0 < y) then 0.0
      else posInf
    else
      let (yi, yf) := if 0.5 < yf then (yi + 1, yf - 1) else (yi, yf)
      let a₁ := if yf != 0 then exp (yf * log x) else 1.0
      let (x₁, xe) := frexp x
      let (a₁, ae) := powerLoop (truncToInt yi).toNat x₁ xe a₁ 0
      let (a₁, ae) := if y < 0 then (1 / a₁, -ae) else (a₁, ae)
      ldexp a₁ ae

end Reckon.Real

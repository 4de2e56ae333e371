import Reckon.Real.Binary

/-!
# Shortest decimal text of a double

Every finite double has a decimal of fewest significant digits that reads back as that
double; of the decimals with that many digits, it takes the one nearest to the double's exact
value. A decimal reads back as the double `m · 2^e` when it lies in the rounding interval
around it: half a unit of the last place on either side, a quarter below when `m` is the
smallest normal significand (the gap below is then half as wide), and the ends included
exactly when `m` is even, since a tie reads as the even significand.

For `n = 1, 2, …, 17` the search looks at the two multiples of `10^(d-n+1)` next to the value,
`d` being the decimal exponent of its first digit; the first `n` for which one of them lies in
the interval gives the answer. If any `n`-digit decimal lies in the interval, one of those two
neighbours does, because the interval holds the value. When both lie in it, the nearer wins,
and when the value lies exactly halfway between them, the one with the even last digit.

The text puts the digits in positional form when the exponent of the first digit is between
`-4` and `5`, and in exponent form (`1.5e+06`, `1e-05`) otherwise, with a signed exponent of at
least two digits. The special values are written `+Inf`, `-Inf`, `NaN`, and zero as `0` or `-0`.
-/

namespace Reckon.Real

/-- The rational `10^t`. -/
def pow10 (t : Int) : Rat :=
  if 0 ≤ t then ((Nat.pow 10 t.toNat : Nat) : Rat) else mkRat 1 (Nat.pow 10 (-t).toNat)

/-- The number of decimal digits of `n` (one for zero). -/
def decimalLength (n : Nat) : Nat :=
  (Nat.toDigits 10 n).length

/-- The exponent `d` with `10^d ≤ v < 10^(d+1)`, for a positive rational `v`. -/
def decimalExponent (v : Rat) : Int :=
  let d : Int := (decimalLength v.num.natAbs : Int) - (decimalLength v.den : Int)
  if v < pow10 d then d - 1 else d

/-- `m · 10^t` with the trailing zeros of `m` moved into the exponent. -/
def trimZeros (m : Nat) (t : Int) : Nat × Int :=
  if h : 0 < m ∧ m % 10 = 0 then trimZeros (m / 10) (t + 1) else (m, t)
termination_by m
decreasing_by exact Nat.div_lt_self h.1 (by decide)

/-- The rounding interval of the positive double `m · 2^e`: its two ends, and whether the ends
read back as the double. -/
structure Interval where
  low : Rat
  high : Rat
  closed : Bool

/-- The rounding interval of the positive double `m · 2^e`. -/
def interval (m : Nat) (e : Int) : Interval :=
  let v := scaled m e
  let below := if m = Nat.pow 2 52 ∧ -1074 < e then scaled 1 (e - 2) else scaled 1 (e - 1)
  ⟨v - below, v + scaled 1 (e - 1), m % 2 == 0⟩

/-- Whether the rational `c` lies in the interval. -/
def Interval.holds (i : Interval) (c : Rat) : Bool :=
  if i.closed then i.low ≤ c && c ≤ i.high else i.low < c && c < i.high

/-- The `n`-digit decimal nearest to `v` inside the interval, as `(m, t)` for `m · 10^t`, if
one lies there; `d` is the decimal exponent of `v`. -/
def candidate (i : Interval) (v : Rat) (d : Int) (n : Nat) : Option (Nat × Int) :=
  let t := d - n + 1
  let step := pow10 t
  let a := (v / step).floor.toNat
  let below := (a : Rat) * step
  let above := ((a + 1 : Nat) : Rat) * step
  match i.holds below, i.holds above with
  | true, true =>
    let up := above - v < v - below || (above - v = v - below && a % 2 = 1)
    some (if up then a + 1 else a, t)
  | true, false => some (a, t)
  | false, true => some (a + 1, t)
  | false, false => none

/-- The shortest decimal `m · 10^t` that reads back as the positive double `sig · 2^e`, with
no trailing zeros in `m`. -/
def shortest (sig : Nat) (e : Int) : Nat × Int :=
  let v := scaled sig e
  let i := interval sig e
  let d := decimalExponent v
  match (List.range 17).findSome? (fun k => candidate i v d (k + 1)) with
  | some (m, t) => trimZeros m t
  | none => trimZeros (v / pow10 (d - 16)).floor.toNat (d - 16)

/-- The digits `ds` as `d.ddd` followed by the exponent `x`, signed and of at least two digits. -/
def exponentForm (ds : String) (x : Int) : String :=
  let head := String.ofList (ds.toList.take 1)
  let tail := String.ofList (ds.toList.drop 1)
  let mantissa := if tail.isEmpty then head else head ++ "." ++ tail
  let mag := x.natAbs
  let expDigits := if mag < 10 then "0" ++ toString mag else toString mag
  mantissa ++ "e" ++ (if x < 0 then "-" else "+") ++ expDigits

/-- The digits `ds` with the decimal point after the first `p` of them (`p` may be zero or
negative, or beyond the last digit). -/
def positionalForm (ds : String) (p : Int) : String :=
  let n := ds.length
  if p ≤ 0 then "0." ++ String.ofList (List.replicate (-p).toNat '0') ++ ds
  else if n ≤ p.toNat then ds ++ String.ofList (List.replicate (p.toNat - n) '0')
  else String.ofList (ds.toList.take p.toNat) ++ "." ++ String.ofList (ds.toList.drop p.toNat)

/-- The shortest text of the double `x` that reads back as `x`. -/
def format (x : Float) : String :=
  match shape x with
  | .nan => "NaN"
  | .infinite negative => if negative then "-Inf" else "+Inf"
  | .finite negative sig e =>
    let sign := if negative then "-" else ""
    if sig = 0 then sign ++ "0"
    else
      let (m, t) := shortest sig e
      let ds := toString m
      let x : Int := (ds.length : Int) + t - 1
      if x < -4 || 6 ≤ x then sign ++ exponentForm ds x
      else sign ++ positionalForm ds (x + 1)

end Reckon.Real

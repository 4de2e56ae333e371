import Mathlib.Data.Rat.Defs
import Mathlib.Tactic.NormNum
import Reckon.Proofs.Number.Power

/-!
# Integer numbers and their 64-bit reading

A number is an integer when its value is one: an exact number with denominator one, or a finite
real whose exact value is an integer. An infinity and NaN have no value and are no integers
(`Number.isInt_iff`).

A number reads as a 64-bit integer when it is an integer in range. The exact range is checked on
integers, `[-2^63, 2^63)`. The range of a real is checked on doubles, where the bound, the largest
64-bit integer, rounds up to `2^63` and so lets `2^63` itself through; the truncating conversion
then turns it into the least integer `-2^63`. So the reading agrees with the value at both ends of
the range but for the one real `2^63` (`Number.toInt64?_eq_some_iff`).
-/

namespace Reckon

namespace Number

theorem rat_eq_intCast_iff {q : Rat} {z : Int} : q = z ↔ q.den = 1 ∧ q.num = z := by
  constructor
  · rintro rfl
    exact ⟨Rat.den_intCast z, Rat.num_intCast z⟩
  · rintro ⟨hden, hnum⟩
    exact Rat.ext (by rw [hnum, Rat.num_intCast]) (by rw [hden, Rat.den_intCast])

theorem exists_intCast_iff {q : Rat} : (∃ z : Int, q = z) ↔ q.den = 1 := by
  constructor
  · rintro ⟨z, hz⟩
    exact (rat_eq_intCast_iff.1 hz).1
  · intro hden
    exact ⟨q.num, ((Rat.den_eq_one_iff q).1 hden).symm⟩

/-- A number is an integer exactly when it has a value and that value is an
integer: an exact integer, or a finite real whose value is integral. -/
theorem isInt_iff (n : Number) : n.isInt = true ↔ ∃ z : Int, n.toRat? = some (z : Rat) := by
  cases n with
  | exact q =>
    simp only [isInt, toRat?, beq_iff_eq, Option.some.injEq]
    exact exists_intCast_iff.symm
  | real x =>
    cases hx : Real.toRat? x with
    | none => simp [isInt, toRat?, hx]
    | some q =>
      simp only [isInt, toRat?, hx, beq_iff_eq, Option.some.injEq]
      exact exists_intCast_iff.symm

theorem toInt64?_exact_eq_some (q : Rat) (v : Int) :
    (Number.exact q).toInt64? = some v ↔ q = (v : Rat) ∧ -(2 ^ 63) ≤ v ∧ v < 2 ^ 63 := by
  constructor
  · exact eq_of_toInt64?_exact
  · rintro ⟨rfl, h₀, h₁⟩
    exact toInt64?_intCast h₀ h₁

theorem toInt64?_real_eq_some (x : Float) (v : Int) :
    (Number.real x).toInt64? = some v ↔
      (Real.toRat? x = some (v : Rat) ∧ -(2 ^ 63) ≤ v ∧ v < 2 ^ 63) ∨
        (Real.toRat? x = some (2 ^ 63) ∧ v = -(2 ^ 63)) := by
  cases hx : Real.toRat? x with
  | none => simp [toInt64?, hx]
  | some q =>
    -- the value `2^63` is the integer `2^63`, so both sides speak of `q.den` and `q.num`
    have htop : (2 ^ 63 : Rat) = ((2 ^ 63 : Int) : Rat) := by norm_num
    simp only [toInt64?, hx, Option.some.injEq, htop, rat_eq_intCast_iff, Nat.pow_eq,
      Bool.and_eq_true, beq_iff_eq, decide_eq_true_eq, Nat.cast_pow, Nat.cast_ofNat]
    split_ifs with hin hlt
    · -- in range below `2^63`: the reading is the value
      simp only [Option.some.injEq]
      omega
    · -- the one value `2^63` let through by the bound on doubles
      simp only [Option.some.injEq]
      omega
    · simp only [false_iff]
      omega

/-- For every number, exact or real, infinities and NaN
included: it reads as the 64-bit integer `v` exactly when its value is the integer `v` in
`[-2^63, 2^63)`, or it is the real `2^63` and `v` is `-2^63`; and it is an integer exactly when it
has a value and that value is an integer. -/
theorem toInt64?_eq_some_iff (n : Number) :
    (∀ v : Int, n.toInt64? = some v ↔
      (n.toRat? = some (v : Rat) ∧ -(2 ^ 63) ≤ v ∧ v < 2 ^ 63) ∨
        (n.isExact = false ∧ n.toRat? = some (2 ^ 63) ∧ v = -(2 ^ 63))) ∧
    (n.isInt = true ↔ ∃ z : Int, n.toRat? = some (z : Rat)) := by
  refine ⟨fun v => ?_, isInt_iff n⟩
  cases n with
  | exact q => simpa [isExact, toRat?] using toInt64?_exact_eq_some q v
  | real x => simpa [isExact, toRat?] using toInt64?_real_eq_some x v

end Number

end Reckon

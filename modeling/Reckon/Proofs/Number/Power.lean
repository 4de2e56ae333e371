import Mathlib.Algebra.Order.Field.Power
import Mathlib.Algebra.Ring.Rat
import Mathlib.Tactic.NormNum
import Reckon.Number.Basic

/-!
# Exact and real powers

A power of an exact base stays exact when the exponent is an exact integer within two bounds:
its magnitude is at most `4096`, and the size of the result, estimated as the bits of the base's
numerator and denominator times that magnitude, is at most `65536`. Otherwise the power is the
real power of the nearest doubles, refused when it is not finite.

Both bounds are checked in 64-bit arithmetic. That agrees with the bounds computed on integers
(`Number.pow_exact_bounds`) but at two places:

* the exponent `-2^63`, whose magnitude wraps to `-2^63` itself and so passes both bounds. The
  exact power is then taken to no positive magnitude, which gives one: `2 ^ -2^63` is the exact
  `1`, and `0 ^ -2^63` a division by zero (`Number.pow_two_least_int64`);
* a base whose estimate for an exponent within the first bound reaches `2^63`, where the product
  wraps. Such a base has at least `2^51` bits.
-/

namespace Reckon

namespace Number

/-- The estimate of the size in bits of a power of `a` to an exponent of magnitude `k`, computed on
integers: the bits of the numerator and of the denominator of `a`, times `k`. -/
def powerBits (a : Rat) (k : Nat) : Nat := (bitLength a.num.natAbs + bitLength a.den) * k

/-- The exponents for which the power of the exact `a` stays exact, by the bounds computed on
integers: an exact integer of magnitude at most `maxExactExponent` whose estimate is at most
`maxExactPowerBits`. -/
def ExactExponent (a : Rat) (m : Number) : Prop :=
  ∃ e : Int, m = .exact e ∧ e.natAbs ≤ maxExactExponent ∧ powerBits a e.natAbs ≤ maxExactPowerBits

/-! ### 64-bit arithmetic -/

theorem wrap64_of_lt {x : Int} (h₀ : -(2 ^ 63) ≤ x) (h₁ : x < 2 ^ 63) : wrap64 x = x :=
  Int.bmod_eq_of_le (by simp only [Nat.pow_eq]; omega) (by simp only [Nat.pow_eq]; omega)

theorem abs64_eq_natAbs {e : Int} (h₀ : -(2 ^ 63) < e) (h₁ : e < 2 ^ 63) : abs64 e = e.natAbs := by
  unfold abs64
  split
  · rw [wrap64_of_lt (by omega) (by omega)]
    omega
  · omega

theorem abs64_least : abs64 (-(2 ^ 63)) = -(2 ^ 63) := by
  rfl

theorem wrap64_mul_least_nonpos (x : Int) : wrap64 (x * -(2 ^ 63)) ≤ 0 := by
  simp only [wrap64, Int.bmod_def, Nat.pow_eq, Nat.reducePow, Nat.cast_ofNat]
  split <;> omega

/-! ### The number an exponent reads as -/

theorem toInt64?_intCast {e : Int} (h₀ : -(2 ^ 63) ≤ e) (h₁ : e < 2 ^ 63) :
    (Number.exact e).toInt64? = some e := by
  simp only [toInt64?, Nat.pow_eq]
  rw [if_pos (Bool.and_eq_true_iff.2 ⟨Bool.and_eq_true_iff.2 ⟨beq_iff_eq.2 (Rat.den_intCast e),
    decide_eq_true (by simpa using h₀)⟩, decide_eq_true (by simpa using h₁)⟩), Rat.num_intCast]

theorem eq_of_toInt64?_exact {q : Rat} {e : Int} (h : (Number.exact q).toInt64? = some e) :
    q = e ∧ -(2 ^ 63) ≤ e ∧ e < 2 ^ 63 := by
  simp only [toInt64?, Nat.pow_eq, Bool.and_eq_true, beq_iff_eq, decide_eq_true_eq,
    Option.ite_none_right_eq_some, Option.some.injEq] at h
  obtain ⟨⟨⟨hden, h₀⟩, h₁⟩, rfl⟩ := h
  refine ⟨?_, by exact_mod_cast h₀, by exact_mod_cast h₁⟩
  rw [← Rat.num_div_den q, hden]
  simp

/-! ### The exact power -/

theorem mkRat_pow (q : Rat) (k : Nat) : mkRat (Int.pow q.num k) (Nat.pow q.den k) = q ^ k := by
  rw [Rat.mkRat_eq_div]
  push_cast [Int.pow_eq, Nat.pow_eq]
  rw [← div_pow, Rat.num_div_den]

theorem mkRat_pow_inv {q : Rat} (hq : q ≠ 0) (k : Nat) :
    mkRat (if Int.pow q.num k < 0 then -((Nat.pow q.den k : Nat) : Int) else (Nat.pow q.den k : Nat))
      (Int.pow q.num k).natAbs = (q ^ k)⁻¹ := by
  rw [Rat.mkRat_eq_div, ← mkRat_pow, Rat.mkRat_eq_div, inv_div]
  have hnum : Int.pow q.num k ≠ 0 := by
    rw [Int.pow_eq]
    exact pow_ne_zero _ (Rat.num_ne_zero.2 hq)
  split
  · rename_i hneg
    rw [Nat.cast_natAbs, abs_of_neg (by exact_mod_cast hneg)]
    push_cast
    rw [neg_div_neg_eq]
  · rename_i hpos
    rw [Nat.cast_natAbs, abs_of_nonneg (by exact_mod_cast not_lt.1 hpos)]
    push_cast
    rfl

theorem exactPow_eq {q : Rat} {e : Int} (h₀ : -(2 ^ 63) < e) (h₁ : e < 2 ^ 63) :
    exactPow q e = if e < 0 ∧ q = 0 then .error .divisionByZero else .ok (.exact (q ^ e)) := by
  have hk : (abs64 e).toNat = e.natAbs := by
    rw [abs64_eq_natAbs h₀ h₁]
    rfl
  unfold exactPow
  simp only [Bool.and_eq_true, decide_eq_true_eq, beq_iff_eq, hk]
  split
  · rfl
  · rename_i hzero
    split
    · rename_i hneg
      have hq : q ≠ 0 := fun h => hzero ⟨hneg, h⟩
      rw [mkRat_pow_inv hq, ← zpow_natCast, ← zpow_neg, Int.ofNat_natAbs_of_nonpos (by omega),
        neg_neg]
    · rename_i hneg
      rw [mkRat_pow, ← zpow_natCast, Int.natAbs_of_nonneg (by omega)]

theorem exactPow_least (q : Rat) :
    exactPow q (-(2 ^ 63)) = if q = 0 then .error .divisionByZero else .ok (.exact 1) := by
  have hk : (abs64 (-(2 ^ 63))).toNat = 0 := by
    rw [abs64_least]
    rfl
  unfold exactPow
  simp only [hk, Bool.and_eq_true, decide_eq_true_eq, beq_iff_eq]
  by_cases hq : q = 0
  · simp [hq]
  · simp [hq, Int.pow_eq, Nat.pow_eq, Rat.mkRat_eq_div]

/-! ### The two branches of a power -/

section Branches

attribute [local simp] pow

theorem pow_of_toInt64? {a q : Rat} {e : Int} (h : (Number.exact q).toInt64? = some e) :
    (Number.exact a).pow (.exact q) =
      if abs64 e ≤ maxExactExponent ∧
          wrap64 ((bitLength a.num.natAbs + bitLength a.den) * abs64 e) ≤ maxExactPowerBits then
        exactPow a e
      else finite (Real.power (Number.exact a).toFloat (Number.exact q).toFloat) := by
  simp only [pow, h, Bool.and_eq_true, decide_eq_true_eq]

theorem pow_of_toInt64?_eq_none {a : Rat} {m : Number} (h : m.toInt64? = none) :
    (Number.exact a).pow m = finite (Real.power (Number.exact a).toFloat m.toFloat) := by
  cases m <;> simp [h]

theorem pow_real (a : Rat) (x : Float) :
    (Number.exact a).pow (.real x) = finite (Real.power (Number.exact a).toFloat (Number.real x).toFloat) := by
  simp only [pow]

end Branches

theorem wrap64_powerBits (a : Rat) {k : Nat} (h : powerBits a k < 2 ^ 63) :
    wrap64 ((bitLength a.num.natAbs + bitLength a.den) * (k : Int)) = powerBits a k := by
  have hcast : ((bitLength a.num.natAbs + bitLength a.den : Nat) : Int) * (k : Int) =
      (powerBits a k : Int) := by
    simp [powerBits]
  push_cast at hcast
  rw [hcast, wrap64_of_lt (by omega) (by exact_mod_cast h)]

theorem pow_least (a : Rat) :
    (Number.exact a).pow (.exact ((-(2 ^ 63) : Int) : Rat)) =
      if a = 0 then .error .divisionByZero else .ok (.exact 1) := by
  have hbound := wrap64_mul_least_nonpos (bitLength a.num.natAbs + bitLength a.den)
  rw [pow_of_toInt64? (toInt64?_intCast (by omega) (by omega)), abs64_least,
    if_pos ⟨by decide, by push_cast at hbound ⊢; exact hbound.trans (by decide)⟩, exactPow_least]

/-- For an exact base `a` and any exponent `m`:

* an exact integer exponent of magnitude at most `4096` whose estimate, computed on integers, is
  at most `65536` gives the exact power, and zero to a negative power is refused;
* the exponent `-2^63` gives the exact one, and zero to it is refused;
* every other exponent gives the real power of the nearest doubles, refused when it is not
  finite, provided the estimate for an exponent within the first bound is below `2^63`. -/
theorem pow_exact_bounds (a : Rat) (m : Number) :
    (∀ e : Int, m = .exact e → e.natAbs ≤ maxExactExponent →
      powerBits a e.natAbs ≤ maxExactPowerBits →
      (Number.exact a).pow m =
        if e < 0 ∧ a = 0 then .error .divisionByZero else .ok (.exact (a ^ e))) ∧
    (m = .exact ((-(2 ^ 63) : Int) : Rat) →
      (Number.exact a).pow m = if a = 0 then .error .divisionByZero else .ok (.exact 1)) ∧
    (¬ ExactExponent a m → m ≠ .exact ((-(2 ^ 63) : Int) : Rat) →
      (∀ e : Int, m = .exact e → e.natAbs ≤ maxExactExponent → powerBits a e.natAbs < 2 ^ 63) →
      (Number.exact a).pow m = finite (Real.power (Number.exact a).toFloat m.toFloat)) := by
  refine ⟨?exact, ?least, ?real⟩
  case exact =>
    rintro e rfl hk hbits
    have hmax : maxExactExponent = 4096 := rfl
    have hbits' : powerBits a e.natAbs < 2 ^ 63 := by
      have : maxExactPowerBits = 65536 := rfl
      omega
    rw [pow_of_toInt64? (toInt64?_intCast (by omega) (by omega)),
      abs64_eq_natAbs (by omega) (by omega), wrap64_powerBits a hbits', if_pos ⟨by omega, by omega⟩,
      exactPow_eq (by omega) (by omega)]
  case least =>
    rintro rfl
    exact pow_least a
  case real =>
    intro hnot hleast hfits
    cases m with
    | real x => exact pow_real a x
    | exact q =>
      cases h : (Number.exact q).toInt64? with
      | none => exact pow_of_toInt64?_eq_none h
      | some e =>
        obtain ⟨rfl, h₀, h₁⟩ := eq_of_toInt64?_exact h
        have hne : e ≠ -(2 ^ 63) := fun he => hleast (by rw [he])
        rw [pow_of_toInt64? h, abs64_eq_natAbs (by omega) h₁, if_neg]
        -- both bounds passing in 64 bits would make the exponent one of the exact ones
        rintro ⟨hk, hbits⟩
        have hk' : e.natAbs ≤ maxExactExponent := by exact_mod_cast hk
        rw [wrap64_powerBits a (hfits e rfl hk')] at hbits
        exact hnot ⟨e, rfl, hk', by exact_mod_cast hbits⟩

/-- `(2/3) ^ -3` is the exact `27/8`, `(2/3) ^ -2^63` the exact one, and `(2/3) ^ 5000` a real
power. -/
theorem pow_exact_bounds_two_thirds :
    (Number.exact (2 / 3)).pow (.exact ((-3 : Int) : Rat)) = .ok (.exact (27 / 8)) ∧
    (Number.exact (2 / 3)).pow (.exact ((-(2 ^ 63) : Int) : Rat)) = .ok (.exact 1) ∧
    (Number.exact (2 / 3)).pow (.exact ((5000 : Int) : Rat)) =
      finite (Real.power (Number.exact (2 / 3)).toFloat (Number.exact ((5000 : Int) : Rat)).toFloat) := by
  have hbits : powerBits (2 / 3) (-3 : Int).natAbs ≤ maxExactPowerBits := by decide +kernel
  have hexact := (pow_exact_bounds (2 / 3) (.exact ((-3 : Int) : Rat))).1 (-3) rfl (by decide) hbits
  have hleast := (pow_exact_bounds (2 / 3) (.exact ((-(2 ^ 63) : Int) : Rat))).2.1 rfl
  -- `5000` is no exact exponent: only `5000` itself reads as it, and it is past the first bound
  have hcast : ∀ e : Int, Number.exact ((5000 : Int) : Rat) = .exact (e : Rat) → e = 5000 := by
    intro e he
    exact_mod_cast (Number.exact.inj he).symm
  have hreal := (pow_exact_bounds (2 / 3) (.exact ((5000 : Int) : Rat))).2.2
    (fun ⟨e, he, hk, _⟩ => by rw [hcast e he] at hk; exact absurd hk (by decide))
    (fun he => absurd (hcast _ he) (by decide))
    (fun e he hk => by rw [hcast e he] at hk; exact absurd hk (by decide))
  refine ⟨?_, ?_, hreal⟩
  · rw [hexact, if_neg (by norm_num)]
    norm_num
  · rw [hleast, if_neg (by norm_num)]

/-- `2 ^ -2^63` is past the bound on the exponent, yet the power is the exact one and not the
real power. -/
theorem pow_two_least_int64 :
    ¬ ExactExponent 2 (.exact ((-(2 ^ 63) : Int) : Rat)) ∧
      (Number.exact 2).pow (.exact ((-(2 ^ 63) : Int) : Rat)) = .ok (.exact 1) ∧
      (Number.exact 2).pow (.exact ((-(2 ^ 63) : Int) : Rat)) ≠
        finite (Real.power (Number.exact 2).toFloat
          (Number.exact ((-(2 ^ 63) : Int) : Rat)).toFloat) := by
  have hone : (Number.exact 2).pow (.exact ((-(2 ^ 63) : Int) : Rat)) = .ok (.exact 1) := by
    rw [pow_least, if_neg (by norm_num)]
  refine ⟨?_, hone, ?_⟩
  · rintro ⟨e, he, hk, -⟩
    have he' : e = -(2 ^ 63) := by exact_mod_cast (Number.exact.inj he).symm
    rw [he'] at hk
    exact absurd hk (by decide)
  · rw [hone, finite]
    split <;> simp

end Number

end Reckon

import Mathlib.Order.WithBot
import Mathlib.Algebra.Order.Ring.Rat
import Reckon.Proofs.Token.Equality
import Reckon.Rule.Basic

/-!
# The order of numbers

Comparison goes by exact values when both numbers have one. Otherwise it compares the nearest
doubles, and equality compares the doubles the numbers hold, an exact number holding none.

On the numbers that compare by their value (`Number.ordered`: no NaN, and no exact number whose
nearest double is infinite) both are the order of the line extended by `-∞` and `+∞`
(`Number.compare_eq_extValue`, `Number.equal_iff_extValue`). So comparison is antisymmetric and
transitive there, it is zero exactly between equal numbers, and the comparison rules decide the
order of the extended line (`Number.compare_extended_order`).

The exact numbers left out are the ones past the range of doubles. Compared with an infinity, such
a number is first rounded to that infinity and compares as equal to it, though it is not equal to
it; `1e400` is then both at most and at least `+Inf`, while `1e401` is greater than `1e400`.
-/

namespace Reckon

namespace Real.Shape

/-- Whether the double taken apart is finite. -/
def isFinite : Shape → Bool
  | .finite .. => true
  | _ => false

/-- Whether the double taken apart is NaN. -/
def isNaN : Shape → Bool
  | .nan => true
  | _ => false

theorem lt_asymm {a b : Shape} (h : a.lt b = true) : b.lt a = false := by
  cases a <;> cases b <;> simp_all [lt]
  -- two finite doubles: their values are ordered strictly
  exact le_of_lt h

@[simp] theorem finite_lt_infinite (s : Bool) (n : Bool) (m : Nat) (e : Int) :
    (finite n m e).lt (.infinite s) = !s := by
  cases s <;> rfl

@[simp] theorem infinite_lt_finite (s : Bool) (n : Bool) (m : Nat) (e : Int) :
    (infinite s).lt (.finite n m e) = s := by
  cases s <;> rfl

@[simp] theorem infinite_lt_infinite (s t : Bool) : (infinite s).lt (.infinite t) = (s && !t) := rfl

end Real.Shape

namespace Number

/-- Whether the number compares by its value: a real that is not NaN, or an exact number whose
nearest double is finite. -/
def ordered : Number → Bool
  | .exact q => (nearestShape (.exact q)).isFinite
  | .real x => !(Real.shape x).isNaN

/-- The number on the line extended by `-∞` (`⊥`) and `+∞` (`⊤`): its exact value, or the infinity
of the double it holds. -/
def extValue (n : Number) : WithBot (WithTop ℚ) :=
  match n.toRat?, n.rawShape with
  | some q, _ => ((q : WithTop ℚ) : WithBot (WithTop ℚ))
  | none, .infinite true => ⊥
  | none, _ => ⊤

theorem sign_swap {p q : Prop} [Decidable p] [Decidable q] (h : p → ¬q) :
    (if q then (-1 : Int) else if p then 1 else 0) = -(if p then -1 else if q then 1 else 0) := by
  by_cases hp : p <;> by_cases hq : q <;> simp_all

/-- Comparison changes sign when the numbers change places, for every pair of
numbers. -/
theorem compare_antisymm (n m : Number) : m.compare n = -n.compare m := by
  unfold compare
  cases hn : n.toRat? <;> cases hm : m.toRat?
  all_goals simp only
  all_goals first
    | exact sign_swap fun h => Real.Shape.lt_asymm h ▸ Bool.false_ne_true
    | exact sign_swap fun h h' => lt_asymm h h'

theorem ordered_cases {n : Number} (h : n.ordered = true) :
    (∃ v, n.toRat? = some v ∧ n.nearestShape.isFinite = true) ∨
      ∃ s, n.toRat? = none ∧ n.nearestShape = .infinite s ∧ n.rawShape = .infinite s := by
  cases n with
  | exact q => exact .inl ⟨q, rfl, h⟩
  | real x =>
    simp only [ordered, Bool.not_eq_true'] at h
    cases hx : Real.shape x with
    | finite neg m e =>
      exact .inl ⟨if neg then -Real.scaled m e else Real.scaled m e,
        by simp [toRat?, Real.toRat?, hx], by simp [nearestShape, hx, Real.Shape.isFinite]⟩
    | infinite s =>
      right
      exact ⟨s, by simp [toRat?, Real.toRat?, hx], by simp [nearestShape, hx],
        by simp [rawShape, hx]⟩
    | nan => simp [hx, Real.Shape.isNaN] at h

theorem extValue_of_toRat? {n : Number} {v : Rat} (h : n.toRat? = some v) :
    n.extValue = ((v : WithTop ℚ) : WithBot (WithTop ℚ)) := by
  simp [extValue, h]

theorem extValue_of_infinite {n : Number} {s : Bool} (h : n.toRat? = none)
    (hs : n.rawShape = .infinite s) : n.extValue = if s then ⊥ else ⊤ := by
  cases s <;> simp [extValue, h, hs]

theorem exists_finite {x : Real.Shape} (h : x.isFinite = true) :
    ∃ neg m e, x = .finite neg m e := by
  cases x <;> simp_all [Real.Shape.isFinite]

/-- Comparison is the order of the extended line on ordered numbers. -/
theorem compare_eq_extValue {n m : Number} (hn : n.ordered = true) (hm : m.ordered = true) :
    n.compare m =
      if n.extValue < m.extValue then -1 else if m.extValue < n.extValue then 1 else 0 := by
  unfold compare
  rcases ordered_cases hn with ⟨a, ha, hfa⟩ | ⟨s, ha, hsa, hra⟩ <;>
    rcases ordered_cases hm with ⟨b, hb, hfb⟩ | ⟨t, hb, hsb, hrb⟩
  · -- both exact values: the rationals are compared
    simp [ha, hb, extValue_of_toRat? ha, extValue_of_toRat? hb]
  · -- a value against an infinity: the nearest double of the value is finite
    obtain ⟨neg, k, e, hx⟩ := exists_finite hfa
    rw [ha, hb, extValue_of_toRat? ha, extValue_of_infinite hb hrb]
    cases t <;> simp [hx, hsb]
  · obtain ⟨neg, k, e, hy⟩ := exists_finite hfb
    rw [ha, hb, extValue_of_infinite ha hra, extValue_of_toRat? hb]
    cases s <;> simp [hy, hsa]
  · rw [ha, hb, extValue_of_infinite ha hra, extValue_of_infinite hb hrb]
    cases s <;> cases t <;> simp [hsa, hsb]

/-- Equality is equality on the extended line for ordered numbers. -/
theorem equal_iff_extValue {n m : Number} (hn : n.ordered = true) (hm : m.ordered = true) :
    n.equal m = true ↔ n.extValue = m.extValue := by
  rw [equal_iff]
  rcases ordered_cases hn with ⟨a, ha, -⟩ | ⟨s, ha, -, hra⟩ <;>
    rcases ordered_cases hm with ⟨b, hb, -⟩ | ⟨t, hb, -, hrb⟩
  · simp only [ha, hb, Option.some.injEq, exists_eq_left', extValue_of_toRat? ha,
      extValue_of_toRat? hb, WithBot.coe_inj, WithTop.coe_inj, rawShape_ne_infinite ha, false_and,
      exists_false, or_false]
    exact eq_comm
  · rw [extValue_of_toRat? ha, extValue_of_infinite hb hrb]
    cases t <;> simp [ha, hb, rawShape_ne_infinite ha]
  · rw [extValue_of_infinite ha hra, extValue_of_toRat? hb]
    cases s <;> simp [ha, hb, rawShape_ne_infinite hb]
  · rw [extValue_of_infinite ha hra, extValue_of_infinite hb hrb]
    cases s <;> cases t <;> simp [ha, hra, hrb]

section Ordered

variable {n m : Number} (hn : n.ordered = true) (hm : m.ordered = true)
include hn hm

theorem compare_lt_zero_iff : n.compare m < 0 ↔ n.extValue < m.extValue := by
  rw [compare_eq_extValue hn hm]
  rcases lt_trichotomy n.extValue m.extValue with h | h | h
  · simp [h]
  · simp [h]
  · simp [h, not_lt.2 h.le]

theorem compare_le_zero_iff : n.compare m ≤ 0 ↔ n.extValue ≤ m.extValue := by
  rw [compare_eq_extValue hn hm]
  rcases lt_trichotomy n.extValue m.extValue with h | h | h
  · simp [h, h.le]
  · simp [h]
  · simp [h, not_lt.2 h.le, not_le.2 h]

theorem compare_eq_zero_iff : n.compare m = 0 ↔ n.extValue = m.extValue := by
  rw [compare_eq_extValue hn hm]
  rcases lt_trichotomy n.extValue m.extValue with h | h | h
  · simp [h, h.ne]
  · simp [h]
  · simp [h, not_lt.2 h.le, h.ne']

end Ordered

/-- On numbers that compare by their value, that is with no NaN and no
exact number past the range of doubles: comparison changes sign when the numbers change places,
it is transitive, and it is zero exactly between equal numbers. Each comparison rule decides the
order of the numbers on the line extended by the two infinities, so the rules agree with each
other. -/
theorem compare_extended_order {a b c : Number} (ha : a.ordered = true) (hb : b.ordered = true)
    (hc : c.ordered = true) :
    a.compare b = -b.compare a ∧
      (a.compare b ≤ 0 → b.compare c ≤ 0 → a.compare c ≤ 0) ∧
      (a.compare b = 0 ↔ a.equal b = true) ∧
      Operator.less.eval (.num a) (.num b) = some (.bool (decide (a.extValue < b.extValue))) ∧
      Operator.greater.eval (.num a) (.num b) = some (.bool (decide (b.extValue < a.extValue))) ∧
      Operator.atMost.eval (.num a) (.num b) = some (.bool (decide (a.extValue ≤ b.extValue))) ∧
      Operator.atLeast.eval (.num a) (.num b) = some (.bool (decide (b.extValue ≤ a.extValue))) ∧
      Operator.equal.eval (.num a) (.num b) = some (.bool (decide (a.extValue = b.extValue))) := by
  refine ⟨compare_antisymm b a, ?trans, ?zero, ?less, ?greater, ?atMost, ?atLeast, ?equal⟩
  case trans =>
    rw [compare_le_zero_iff ha hb, compare_le_zero_iff hb hc, compare_le_zero_iff ha hc]
    exact le_trans
  case zero => rw [compare_eq_zero_iff ha hb, equal_iff_extValue ha hb]
  case less => simp [Operator.eval, compare_lt_zero_iff ha hb]
  case greater =>
    -- `a > b` reads the comparison of `b` with `a` through antisymmetry
    simp [Operator.eval, compare_antisymm a b, ← compare_lt_zero_iff hb ha]
  case atMost => simp [Operator.eval, compare_le_zero_iff ha hb]
  case atLeast =>
    simp [Operator.eval, compare_antisymm a b, ← compare_le_zero_iff hb ha]
  case equal =>
    have h := equal_iff_extValue ha hb
    simp only [Operator.eval, Token.equal, Option.some.injEq, Token.bool.injEq]
    exact Bool.eq_iff_iff.2 (h.trans decide_eq_true_iff.symm)

/-- `1 ≤ 2` holds by the rule, as the order of `1`, `2` and `1/2` on the extended line says. -/
theorem compare_extended_order_one_two_half :
    (Number.exact 1).ordered = true ∧ (Number.exact 2).ordered = true ∧
      (Number.exact (1 / 2)).ordered = true ∧
      Operator.atMost.eval (.num (.exact 1)) (.num (.exact 2)) = some (.bool true) := by
  have h₁ : (Number.exact 1).ordered = true := by decide +kernel
  have h₂ : (Number.exact 2).ordered = true := by decide +kernel
  have h₃ : (Number.exact (1 / 2)).ordered = true := by decide +kernel
  refine ⟨h₁, h₂, h₃, ?_⟩
  rw [(compare_extended_order h₁ h₂ h₃).2.2.2.2.2.1, extValue_of_toRat? rfl, extValue_of_toRat? rfl]
  simp only [WithBot.coe_le_coe, WithTop.coe_le_coe]
  rfl

end Number

end Reckon

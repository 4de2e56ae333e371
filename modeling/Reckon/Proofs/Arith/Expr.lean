import Reckon.Rule.Basic

/-!
# Arithmetic expressions

The expressions of the conventional grammar

    E ::= E + T | E - T | T      T ::= T * U | T / U | U      U ::= - U | F
    F ::= P ^ U | P              P ::= n | ( E )

as syntax trees. A tree of the grammar is one whose operands sit at the levels the grammar
allows (`Expr.Grammatical`): every node has a level (a primary `0`, a power `1`, a negation `2`,
a product `3`, a sum `4`), and an operator bounds the levels of its operands. So products and
sums group to the left, powers to the right, `- a ^ b` is `-(a ^ b)` and `a ^ - b` is
`a ^ (-b)`.

A tree is written as the tokens of its text (`Expr.tokens`), is worth the value of its
operations on numbers (`Expr.eval`), and costs one step per operator, minus sign and pair of
parentheses (`Expr.size`).

`Expr.step` reduces the leftmost node whose operands are numbers: the first place, reading the
tokens from the left, where a rule can rewrite a number, a negated number, a parenthesised
number or an operation on two numbers. It keeps the value, the grammar, and costs one step.
-/

namespace Reckon

namespace Arith

/-- The binary operators of arithmetic. -/
inductive BinOp where
  | pow
  | mul
  | div
  | add
  | sub
  deriving DecidableEq, Repr

namespace BinOp

/-- The symbol of the operator. -/
def symbol : BinOp → String
  | .pow => "^"
  | .mul => "*"
  | .div => "/"
  | .add => "+"
  | .sub => "-"

/-- The built-in operator of the symbol. -/
def operator : BinOp → Operator
  | .pow => .power
  | .mul => .times
  | .div => .divide
  | .add => .plus
  | .sub => .minus

/-- The level of the expressions the operator builds: powers `1`, products `3`, sums `4`. -/
def level : BinOp → Nat
  | .pow => 1
  | .mul | .div => 3
  | .add | .sub => 4

/-- The highest level of the left operand: a power's base is a primary. -/
def leftLevel : BinOp → Nat
  | .pow => 0
  | .mul | .div => 3
  | .add | .sub => 4

/-- The highest level of the right operand: a unary expression for powers and products, a
product for sums. -/
def rightLevel : BinOp → Nat
  | .pow | .mul | .div => 2
  | .add | .sub => 3

/-- The value of the operation on two numbers. -/
def apply : BinOp → Number → Number → Except ArithError Number
  | .pow, a, b => a.pow b
  | .mul, a, b => .ok (a.mul b)
  | .div, a, b => a.quo b
  | .add, a, b => .ok (a.add b)
  | .sub, a, b => .ok (a.sub b)

theorem operator_eval (op : BinOp) (a b : Number) :
    op.operator.eval (.num a) (.num b) = (op.apply a b).toOption.map .num := by
  cases op <;> rfl

@[simp] theorem operator_symbol (op : BinOp) : op.operator.symbol = op.symbol := by
  cases op <;> rfl

@[simp] theorem operator_operandKind (op : BinOp) : op.operator.operandKind = .number := by
  cases op <;> rfl

theorem leftLevel_le_level (op : BinOp) : op.leftLevel ≤ op.level := by
  cases op <;> decide

end BinOp

/-- Arithmetic expressions with leaves of type `α`. -/
inductive Expr (α : Type) where
  | lit (a : α)
  | paren (e : Expr α)
  | neg (e : Expr α)
  | bin (op : BinOp) (x y : Expr α)

namespace Expr

variable {α : Type}

/-- The leaf a tree is, if it is one. -/
def leaf? : Expr α → Option α
  | lit a => some a
  | _ => none

/-- Whether the tree is a negation. -/
def isNeg : Expr α → Bool
  | neg _ => true
  | _ => false

/-- The grammar level of the tree's root: a primary `0`, a power `1`, a negation `2`, a product
`3`, a sum `4`. -/
def level : Expr α → Nat
  | lit _ | paren _ => 0
  | neg _ => 2
  | bin op _ _ => op.level

/-- The tree is derived by the grammar: each operand sits at a level its operator allows. -/
def Grammatical : Expr α → Prop
  | lit _ => True
  | paren e => e.Grammatical
  | neg e => e.level ≤ 2 ∧ e.Grammatical
  | bin op x y => x.level ≤ op.leftLevel ∧ y.level ≤ op.rightLevel ∧ x.Grammatical ∧ y.Grammatical

instance decGrammatical : (e : Expr α) → Decidable e.Grammatical
  | lit _ => isTrue trivial
  | paren e => decGrammatical e
  | neg e => @instDecidableAnd _ _ _ (decGrammatical e)
  | bin _ x y =>
    @instDecidableAnd _ _ _ (@instDecidableAnd _ _ _ (@instDecidableAnd _ _ (decGrammatical x)
      (decGrammatical y)))

/-- No power of the tree has a negation as its exponent, as `a ^ - b` has. -/
def NoNegatedExponent : Expr α → Prop
  | lit _ => True
  | paren e => e.NoNegatedExponent
  | neg e => e.NoNegatedExponent
  | bin op x y => (op = .pow → y.isNeg = false) ∧ x.NoNegatedExponent ∧ y.NoNegatedExponent

instance decNoNegatedExponent : (e : Expr α) → Decidable e.NoNegatedExponent
  | lit _ => isTrue trivial
  | paren e => decNoNegatedExponent e
  | neg e => decNoNegatedExponent e
  | bin _ x y =>
    @instDecidableAnd _ _ _ (@instDecidableAnd _ _ (decNoNegatedExponent x)
      (decNoNegatedExponent y))

/-- The steps the tree costs: one per binary operator, minus sign and pair of parentheses. -/
def size : Expr α → Nat
  | lit _ => 0
  | paren e => e.size + 1
  | neg e => e.size + 1
  | bin _ x y => x.size + y.size + 1

/-- The tree with its leaves mapped. -/
def map {β : Type} (f : α → β) : Expr α → Expr β
  | lit a => lit (f a)
  | paren e => paren (e.map f)
  | neg e => neg (e.map f)
  | bin op x y => bin op (x.map f) (y.map f)

/-- The tokens of the tree's text. -/
def tokens : Expr Number → List Token
  | lit n => [.num n]
  | paren e => .sym "(" :: e.tokens ++ [.sym ")"]
  | neg e => .sym "-" :: e.tokens
  | bin op x y => x.tokens ++ .sym op.symbol :: y.tokens

/-- The value of the tree: its operations on numbers, from the leaves up. -/
def eval : Expr Number → Except ArithError Number
  | lit n => .ok n
  | paren e => e.eval
  | neg e => e.eval.map Number.neg
  | bin op x y => do op.apply (← x.eval) (← y.eval)

/-- The tree with its leftmost reducible node reduced: a parenthesised number or a negated
number becomes a number, and an operation on two numbers its result. Nothing when the tree is
a number, or when the operation it comes to has no result. -/
def step : Expr Number → Option (Expr Number)
  | lit _ => none
  | paren e =>
    match e.leaf? with
    | some a => some (lit a)
    | none => (step e).map paren
  | neg e =>
    match e.leaf? with
    | some a => some (lit a.neg)
    | none => (step e).map neg
  | bin op x y =>
    match x.leaf?, y.leaf? with
    | some a, some b => (op.apply a b).toOption.map lit
    | some _, none => (step y).map (bin op x)
    | none, _ => (step x).map (bin op · y)

@[simp] theorem leaf?_eq_some {e : Expr α} {a : α} : e.leaf? = some a ↔ e = lit a := by
  cases e <;> simp [leaf?]

@[simp] theorem isNeg_neg (e : Expr α) : (neg e).isNeg = true := rfl

theorem level_le_one_of_isNeg_eq_false {e : Expr α} (hlevel : e.level ≤ 2)
    (hneg : e.isNeg = false) : e.level ≤ 1 := by
  cases e with
  | lit | paren => simp [level]
  | neg => simp at hneg
  | bin op => cases op <;> simp_all [level, BinOp.level]

/-! ### Mapping the leaves keeps the shape -/

section Map

variable {β : Type} (f : α → β)

attribute [local simp] map

@[simp] theorem size_map (e : Expr α) : (e.map f).size = e.size := by
  induction e <;> simp_all [size]

@[simp] theorem level_map (e : Expr α) : (e.map f).level = e.level := by
  cases e <;> rfl

@[simp] theorem isNeg_map (e : Expr α) : (e.map f).isNeg = e.isNeg := by
  cases e <;> rfl

@[simp] theorem grammatical_map (e : Expr α) : (e.map f).Grammatical ↔ e.Grammatical := by
  induction e <;> simp_all [Grammatical]

@[simp] theorem noNegatedExponent_map (e : Expr α) :
    (e.map f).NoNegatedExponent ↔ e.NoNegatedExponent := by
  induction e <;> simp_all [NoNegatedExponent]

end Map

/-! ### The reduction step -/

theorem toOption_eq_some {ε β : Type} {r : Except ε β} {b : β} :
    r.toOption = some b ↔ r = .ok b := by
  cases r <;> simp [Except.toOption]

theorem step_rel (R : Expr Number → Expr Number → Prop)
    (paren_lit : ∀ a, R (paren (lit a)) (lit a))
    (neg_lit : ∀ a, R (neg (lit a)) (lit a.neg))
    (bin_lit : ∀ op a b r, op.apply a b = .ok r → R (bin op (lit a) (lit b)) (lit r))
    (paren_step : ∀ e e', e.step = some e' → R e e' → R (paren e) (paren e'))
    (neg_step : ∀ e e', e.step = some e' → R e e' → R (neg e) (neg e'))
    (right_step : ∀ op x y y', y.step = some y' → R y y' → R (bin op x y) (bin op x y'))
    (left_step : ∀ op x x' y, x.step = some x' → R x x' → R (bin op x y) (bin op x' y))
    (e : Expr Number) : ∀ {e'}, e.step = some e' → R e e' := by
  fun_induction step e with
  | case1 => simp
  | case2 e a ha =>
    rw [leaf?_eq_some] at ha
    subst ha
    rintro _ ⟨⟩
    exact paren_lit a
  | case3 e _ ih =>
    intro e' h
    obtain ⟨e₁, h₁, rfl⟩ := Option.map_eq_some_iff.1 h
    exact paren_step e e₁ h₁ (ih h₁)
  | case4 e a ha =>
    rw [leaf?_eq_some] at ha
    subst ha
    rintro _ ⟨⟩
    exact neg_lit a
  | case5 e _ ih =>
    intro e' h
    obtain ⟨e₁, h₁, rfl⟩ := Option.map_eq_some_iff.1 h
    exact neg_step e e₁ h₁ (ih h₁)
  | case6 op x y a b ha hb =>
    rw [leaf?_eq_some] at ha hb
    subst ha hb
    intro e' h
    obtain ⟨r, hr, rfl⟩ := Option.map_eq_some_iff.1 h
    exact bin_lit op a b r (toOption_eq_some.1 hr)
  | case7 op x y a hy hx ih =>
    intro e' h
    obtain ⟨y₁, h₁, rfl⟩ := Option.map_eq_some_iff.1 h
    exact right_step op x y y₁ h₁ (ih h₁)
  | case8 op x y hx ih =>
    intro e' h
    obtain ⟨x₁, h₁, rfl⟩ := Option.map_eq_some_iff.1 h
    exact left_step op x x₁ y h₁ (ih h₁)

theorem step_eval (e : Expr Number) : ∀ {e'}, e.step = some e' → e'.eval = e.eval :=
  step_rel (fun e e' => e'.eval = e.eval) (fun _ => rfl) (fun _ => rfl)
    (fun _ _ _ _ hr => hr.symm)
    (fun _ _ _ ih => by simpa only [eval] using ih)
    (fun _ _ _ ih => by simp only [eval, ih])
    (fun _ _ _ _ _ ih => by simp only [eval, ih])
    (fun _ _ _ _ _ ih => by simp only [eval, ih]) e

theorem step_size (e : Expr Number) : ∀ {e'}, e.step = some e' → e'.size + 1 = e.size :=
  step_rel (fun e e' => e'.size + 1 = e.size) (fun _ => rfl) (fun _ => rfl)
    (fun _ _ _ _ _ => rfl)
    (fun _ _ _ ih => by simp only [size, ← ih])
    (fun _ _ _ ih => by simp only [size, ← ih])
    (fun _ _ _ _ _ ih => by simp only [size, ← ih]; omega)
    (fun _ _ _ _ _ ih => by simp only [size, ← ih]; omega) e

theorem step_level (e : Expr Number) :
    ∀ {e'}, e.step = some e' → e'.level ≤ e.level ∧ (e'.isNeg = true → e.isNeg = true) :=
  step_rel (fun e e' => e'.level ≤ e.level ∧ (e'.isNeg = true → e.isNeg = true))
    (fun _ => by simp [level, isNeg]) (fun _ => by simp [level, isNeg])
    (fun _ _ _ _ _ => by simp [level, isNeg])
    (fun _ _ _ _ => by simp [level, isNeg]) (fun _ _ _ _ => by simp [level, isNeg])
    (fun _ _ _ _ _ _ => by simp [level, isNeg]) (fun _ _ _ _ _ _ => by simp [level, isNeg]) e

theorem step_grammatical (e : Expr Number) :
    ∀ {e'}, e.step = some e' → e.Grammatical → e'.Grammatical := by
  refine step_rel (fun e e' => e.Grammatical → e'.Grammatical)
    (fun _ _ => trivial) (fun _ _ => trivial) (fun _ _ _ _ _ _ => trivial) ?_ ?_ ?_ ?_ e
  · intro e e' _ ih hg
    simpa only [Grammatical] using ih hg
  · intro e e' h ih hg
    exact ⟨Nat.le_trans (step_level e h).1 hg.1, ih hg.2⟩
  · intro op x y y' h ih hg
    obtain ⟨hx, hy, gx, gy⟩ := hg
    exact ⟨hx, Nat.le_trans (step_level y h).1 hy, gx, ih gy⟩
  · intro op x x' y h ih hg
    obtain ⟨hx, hy, gx, gy⟩ := hg
    exact ⟨Nat.le_trans (step_level x h).1 hx, hy, ih gx, gy⟩

theorem step_noNegatedExponent (e : Expr Number) :
    ∀ {e'}, e.step = some e' → e.NoNegatedExponent → e'.NoNegatedExponent := by
  refine step_rel (fun e e' => e.NoNegatedExponent → e'.NoNegatedExponent)
    (fun _ _ => trivial) (fun _ _ => trivial) (fun _ _ _ _ _ _ => trivial) ?_ ?_ ?_ ?_ e
  · intro e e' _ ih hn
    simpa only [NoNegatedExponent] using ih hn
  · intro e e' _ ih hn
    simpa only [NoNegatedExponent] using ih hn
  · intro op x y y' h ih hn
    obtain ⟨hpow, nx, ny⟩ := hn
    refine ⟨fun hop => ?_, nx, ih ny⟩
    -- the new exponent is a negation only if the old one was
    cases hneg : y'.isNeg
    · rfl
    · exact absurd ((step_level y h).2 hneg) (by simp [hpow hop])
  · intro op x x' y _ ih hn
    obtain ⟨hpow, nx, ny⟩ := hn
    exact ⟨hpow, ih nx, ny⟩

/-! ### Values of the operands -/

section Values

attribute [local simp] eval

theorem eval_neg_ok {e : Expr Number} {v : Number} (h : (neg e).eval = .ok v) :
    ∃ a, e.eval = .ok a := by
  cases he : e.eval with
  | error err => simp [he, Except.map] at h
  | ok a => exact ⟨a, rfl⟩

theorem eval_bin_of_ok {op : BinOp} {x y : Expr Number} {a b : Number} (hx : x.eval = .ok a)
    (hy : y.eval = .ok b) : (bin op x y).eval = op.apply a b := by
  simp only [eval, hx, hy]
  rfl

theorem eval_bin_ok {op : BinOp} {x y : Expr Number} {v : Number}
    (h : (bin op x y).eval = .ok v) :
    ∃ a b, x.eval = .ok a ∧ y.eval = .ok b ∧ op.apply a b = .ok v := by
  cases hx : x.eval with
  | error err => simp [hx] at h; cases h
  | ok a =>
    cases hy : y.eval with
    | error err => simp [hx, hy] at h; cases h
    | ok b => exact ⟨a, b, rfl, rfl, by rwa [eval_bin_of_ok hx hy] at h⟩

end Values

theorem step_isSome (e : Expr Number) :
    e.leaf? = none → ∀ {v}, e.eval = .ok v → ∃ e', e.step = some e' := by
  fun_induction step e with
  | case1 => simp [leaf?]
  | case2 e a | case4 e a => exact fun _ _ _ => ⟨_, rfl⟩
  | case3 e he ih =>
    intro _ v hv
    obtain ⟨e₁, h₁⟩ := ih he hv
    exact ⟨_, by rw [h₁]; rfl⟩
  | case5 e he ih =>
    intro _ v hv
    obtain ⟨a, ha⟩ := eval_neg_ok hv
    obtain ⟨e₁, h₁⟩ := ih he ha
    exact ⟨_, by rw [h₁]; rfl⟩
  | case6 op x y a b ha hb =>
    intro _ v hv
    rw [leaf?_eq_some] at ha hb
    subst ha hb
    rw [eval_bin_of_ok rfl rfl] at hv
    exact ⟨lit v, by rw [hv]; rfl⟩
  | case7 op x y a hy hx ih =>
    intro _ v hv
    obtain ⟨-, b, -, hyv, -⟩ := eval_bin_ok hv
    obtain ⟨y₁, h₁⟩ := ih hy hyv
    exact ⟨_, by rw [h₁]; rfl⟩
  | case8 op x y hx ih =>
    intro _ v hv
    obtain ⟨a, -, hxv, -, -⟩ := eval_bin_ok hv
    obtain ⟨x₁, h₁⟩ := ih hx hxv
    exact ⟨_, by rw [h₁]; rfl⟩

theorem eq_lit_of_step_eq_none {e : Expr Number} {v : Number} (hs : e.step = none)
    (hv : e.eval = .ok v) : e = lit v := by
  cases hleaf : e.leaf? with
  | some a =>
    rw [leaf?_eq_some] at hleaf
    subst hleaf
    simpa [eval] using hv
  | none =>
    obtain ⟨e', he'⟩ := step_isSome e hleaf hv
    rw [hs] at he'
    cases he'

end Expr

end Arith

end Reckon

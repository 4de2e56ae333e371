import Reckon.Proofs.Arith.Expr

/-!
# Boolean formulas

The formulas of the conventional grammar

    B ::= B or A | A      A ::= A and N | N      N ::= not N | C
    C ::= E R E | true | false | ( B )

over the arithmetic expressions `E`, with `R` one of `== != < > <= >=`, as syntax trees. A tree
of the grammar is one whose operands sit at the levels the grammar allows
(`Formula.Grammatical`): a comparison, a literal or a parenthesised formula is at level `0`, a
negation at `1`, a conjunction at `2` and a disjunction at `3`. So `not` takes a whole
comparison, `and` binds tighter than `or`, and both group to the left.

A tree is written as the tokens of its text (`Formula.tokens`), is worth the truth value of its
operations (`Formula.eval`, which evaluates every operand), and costs one step per operator,
`not` and pair of parentheses (`Formula.size`).

`Formula.step` reduces the leftmost node whose operands are values: the arithmetic of a
comparison first, then the comparison, a negation, a connective or the parentheses of a
literal. It keeps the value and the grammar, and costs one step.
-/

namespace Reckon

namespace Logic

open Arith (Expr)

/-- The comparisons of numbers. -/
inductive Rel where
  | eq
  | ne
  | lt
  | gt
  | le
  | ge
  deriving DecidableEq, Repr

namespace Rel

/-- The symbol of the comparison. -/
def symbol : Rel → String
  | .eq => "=="
  | .ne => "!="
  | .lt => "<"
  | .gt => ">"
  | .le => "<="
  | .ge => ">="

/-- The built-in operator of the comparison. -/
def operator : Rel → Operator
  | .eq => .equal
  | .ne => .notEqual
  | .lt => .less
  | .gt => .greater
  | .le => .atMost
  | .ge => .atLeast

/-- Whether the comparison holds of two numbers: equality of numbers, or the sign of their
comparison. -/
def holds : Rel → Number → Number → Bool
  | .eq, a, b => a.equal b
  | .ne, a, b => !a.equal b
  | .lt, a, b => a.compare b < 0
  | .gt, a, b => a.compare b > 0
  | .le, a, b => a.compare b ≤ 0
  | .ge, a, b => a.compare b ≥ 0

theorem operator_eval (r : Rel) (a b : Number) :
    r.operator.eval (.num a) (.num b) = some (.bool (r.holds a b)) := by
  cases r <;> simp [operator, Operator.eval, holds, Token.equal]

@[simp] theorem operator_symbol (r : Rel) : r.operator.symbol = r.symbol := by
  cases r <;> rfl

theorem accepts_num (r : Rel) (a : Number) : Token.accepts r.operator.operandKind (.num a) = true := by
  cases r <;> rfl

end Rel

/-- The connectives. -/
inductive Connective where
  | and
  | or
  deriving DecidableEq, Repr

namespace Connective

/-- The symbol of the connective. -/
def symbol : Connective → String
  | .and => "and"
  | .or => "or"

/-- The built-in operator of the connective. -/
def operator : Connective → Operator
  | .and => .and
  | .or => .or

/-- The level of the formulas the connective builds, which bounds its left operand: a
conjunction `2`, a disjunction `3`. -/
def level : Connective → Nat
  | .and => 2
  | .or => 3

/-- The highest level of the right operand: a negation for a conjunction, a conjunction for a
disjunction. -/
def rightLevel : Connective → Nat
  | .and => 1
  | .or => 2

/-- The truth function of the connective. -/
def apply : Connective → Bool → Bool → Bool
  | .and, a, b => a && b
  | .or, a, b => a || b

theorem operator_eval (c : Connective) (a b : Bool) :
    c.operator.eval (.bool a) (.bool b) = some (.bool (c.apply a b)) := by
  cases c <;> rfl

@[simp] theorem operator_symbol (c : Connective) : c.operator.symbol = c.symbol := by
  cases c <;> rfl

theorem rightLevel_lt_level (c : Connective) : c.rightLevel < c.level := by
  cases c <;> decide

end Connective

/-- Boolean formulas over arithmetic expressions with leaves of type `α`. -/
inductive Formula (α : Type) where
  | cmp (r : Rel) (x y : Expr α)
  | lit (b : Bool)
  | paren (f : Formula α)
  | not (f : Formula α)
  | conn (c : Connective) (f g : Formula α)

namespace Formula

variable {α : Type}

/-- The truth value a tree is, if it is a literal. -/
def lit? : Formula α → Option Bool
  | lit b => some b
  | _ => none

/-- The grammar level of the tree's root: a comparison, literal or parenthesised formula `0`,
a negation `1`, a conjunction `2`, a disjunction `3`. -/
def level : Formula α → Nat
  | cmp .. | lit _ | paren _ => 0
  | not _ => 1
  | conn c _ _ => c.level

/-- The tree is derived by the grammar: its comparisons are between trees of arithmetic, and
each operand sits at a level its operator allows. -/
def Grammatical : Formula α → Prop
  | cmp _ x y => x.Grammatical ∧ y.Grammatical
  | lit _ => True
  | paren f => f.Grammatical
  | not f => f.level ≤ 1 ∧ f.Grammatical
  | conn c f g => f.level ≤ c.level ∧ g.level ≤ c.rightLevel ∧ f.Grammatical ∧ g.Grammatical

instance decGrammatical : (f : Formula α) → Decidable f.Grammatical
  | cmp _ x y => @instDecidableAnd _ _ (Expr.decGrammatical x) (Expr.decGrammatical y)
  | lit _ => isTrue trivial
  | paren f => decGrammatical f
  | not f => @instDecidableAnd _ _ _ (decGrammatical f)
  | conn _ f g =>
    @instDecidableAnd _ _ _ (@instDecidableAnd _ _ _ (@instDecidableAnd _ _ (decGrammatical f)
      (decGrammatical g)))

/-- No power in a comparison of the tree has a negation as its exponent. -/
def NoNegatedExponent : Formula α → Prop
  | cmp _ x y => x.NoNegatedExponent ∧ y.NoNegatedExponent
  | lit _ => True
  | paren f => f.NoNegatedExponent
  | not f => f.NoNegatedExponent
  | conn _ f g => f.NoNegatedExponent ∧ g.NoNegatedExponent

instance decNoNegatedExponent : (f : Formula α) → Decidable f.NoNegatedExponent
  | cmp _ x y =>
    @instDecidableAnd _ _ (Expr.decNoNegatedExponent x) (Expr.decNoNegatedExponent y)
  | lit _ => isTrue trivial
  | paren f => decNoNegatedExponent f
  | not f => decNoNegatedExponent f
  | conn _ f g => @instDecidableAnd _ _ (decNoNegatedExponent f) (decNoNegatedExponent g)

/-- The steps the tree costs: one per operator of arithmetic or comparison, minus sign, `not`,
connective and pair of parentheses. -/
def size : Formula α → Nat
  | cmp _ x y => x.size + y.size + 1
  | lit _ => 0
  | paren f => f.size + 1
  | not f => f.size + 1
  | conn _ f g => f.size + g.size + 1

/-- The tree with the leaves of its arithmetic mapped. -/
def map {β : Type} (h : α → β) : Formula α → Formula β
  | cmp r x y => cmp r (x.map h) (y.map h)
  | lit b => lit b
  | paren f => paren (f.map h)
  | not f => not (f.map h)
  | conn c f g => conn c (f.map h) (g.map h)

/-- The tokens of the tree's text. -/
def tokens : Formula Number → List Token
  | cmp r x y => x.tokens ++ .sym r.symbol :: y.tokens
  | lit b => [.bool b]
  | paren f => .sym "(" :: f.tokens ++ [.sym ")"]
  | not f => .sym "not" :: f.tokens
  | conn c f g => f.tokens ++ .sym c.symbol :: g.tokens

/-- The truth value of the tree: its comparisons of the values of their arithmetic, and its
operations on truth values, every operand evaluated. -/
def eval : Formula Number → Except ArithError Bool
  | cmp r x y => do return r.holds (← x.eval) (← y.eval)
  | lit b => .ok b
  | paren f => f.eval
  | not f => f.eval.map (!·)
  | conn c f g => do return c.apply (← f.eval) (← g.eval)

/-- The tree with its leftmost reducible node reduced: a step of the arithmetic of a comparison,
a comparison of two numbers, the negation or the parentheses of a literal, or a connective of
two literals. Nothing when the tree is a literal, or when its arithmetic has no result. -/
def step : Formula Number → Option (Formula Number)
  | cmp r x y =>
    match x.leaf?, y.leaf? with
    | some a, some b => some (lit (r.holds a b))
    | some _, none => y.step.map (cmp r x)
    | none, _ => x.step.map (cmp r · y)
  | lit _ => none
  | paren f =>
    match f.lit? with
    | some b => some (lit b)
    | none => f.step.map paren
  | not f =>
    match f.lit? with
    | some b => some (lit !b)
    | none => f.step.map not
  | conn c f g =>
    match f.lit?, g.lit? with
    | some a, some b => some (lit (c.apply a b))
    | some _, none => g.step.map (conn c f)
    | none, _ => f.step.map (conn c · g)

@[simp] theorem lit?_eq_some {f : Formula α} {b : Bool} : f.lit? = some b ↔ f = lit b := by
  cases f <;> simp [lit?]

/-! ### Mapping the leaves keeps the shape -/

section Map

variable {β : Type} (h : α → β)

attribute [local simp] map

@[simp] theorem size_map (f : Formula α) : (f.map h).size = f.size := by
  induction f <;> simp_all [size]

@[simp] theorem level_map (f : Formula α) : (f.map h).level = f.level := by
  cases f <;> rfl

@[simp] theorem grammatical_map (f : Formula α) : (f.map h).Grammatical ↔ f.Grammatical := by
  induction f <;> simp_all [Grammatical]

@[simp] theorem noNegatedExponent_map (f : Formula α) :
    (f.map h).NoNegatedExponent ↔ f.NoNegatedExponent := by
  induction f <;> simp_all [NoNegatedExponent]

end Map

/-! ### Values of the operands -/

section Values

attribute [local simp] eval

theorem eval_cmp_of_ok {r : Rel} {x y : Expr Number} {a b : Number} (hx : x.eval = .ok a)
    (hy : y.eval = .ok b) : (cmp r x y).eval = .ok (r.holds a b) := by
  simp only [eval, hx, hy]
  rfl

theorem eval_cmp_ok {r : Rel} {x y : Expr Number} {v : Bool} (h : (cmp r x y).eval = .ok v) :
    ∃ a b, x.eval = .ok a ∧ y.eval = .ok b ∧ r.holds a b = v := by
  cases hx : x.eval with
  | error err => simp [hx] at h; cases h
  | ok a =>
    cases hy : y.eval with
    | error err => simp [hx, hy] at h; cases h
    | ok b =>
      rw [eval_cmp_of_ok hx hy, Except.ok.injEq] at h
      exact ⟨a, b, rfl, rfl, h⟩

theorem eval_conn_of_ok {c : Connective} {f g : Formula Number} {a b : Bool}
    (hf : f.eval = .ok a) (hg : g.eval = .ok b) : (conn c f g).eval = .ok (c.apply a b) := by
  simp only [eval, hf, hg]
  rfl

theorem eval_conn_ok {c : Connective} {f g : Formula Number} {v : Bool}
    (h : (conn c f g).eval = .ok v) : ∃ a b, f.eval = .ok a ∧ g.eval = .ok b := by
  cases hf : f.eval with
  | error err => simp [hf] at h; cases h
  | ok a =>
    cases hg : g.eval with
    | error err => simp [hf, hg] at h; cases h
    | ok b => exact ⟨a, b, rfl, rfl⟩

theorem eval_not_ok {f : Formula Number} {v : Bool} (h : (not f).eval = .ok v) :
    ∃ a, f.eval = .ok a := by
  cases hf : f.eval with
  | error err => simp [hf, Except.map] at h
  | ok a => exact ⟨a, rfl⟩

end Values

/-! ### The reduction step -/

theorem step_rel (R : Formula Number → Formula Number → Prop)
    (cmp_lit : ∀ r a b, R (cmp r (.lit a) (.lit b)) (lit (r.holds a b)))
    (cmp_right : ∀ r x y y', y.step = some y' → R (cmp r x y) (cmp r x y'))
    (cmp_left : ∀ r x x' y, x.step = some x' → R (cmp r x y) (cmp r x' y))
    (paren_lit : ∀ b, R (paren (lit b)) (lit b))
    (not_lit : ∀ b, R (not (lit b)) (lit !b))
    (paren_step : ∀ f f', f.step = some f' → R f f' → R (paren f) (paren f'))
    (not_step : ∀ f f', f.step = some f' → R f f' → R (not f) (not f'))
    (conn_lit : ∀ c a b, R (conn c (lit a) (lit b)) (lit (c.apply a b)))
    (conn_right : ∀ c f g g', g.step = some g' → R g g' → R (conn c f g) (conn c f g'))
    (conn_left : ∀ c f f' g, f.step = some f' → R f f' → R (conn c f g) (conn c f' g))
    (f : Formula Number) : ∀ {f'}, f.step = some f' → R f f' := by
  fun_induction step f with
  | case1 r x y a b ha hb =>
    rw [Expr.leaf?_eq_some] at ha hb
    subst ha hb
    rintro _ ⟨⟩
    exact cmp_lit r a b
  | case2 r x y a hy hx =>
    intro f' h
    obtain ⟨y₁, h₁, rfl⟩ := Option.map_eq_some_iff.1 h
    exact cmp_right r x y y₁ h₁
  | case3 r x y hx =>
    intro f' h
    obtain ⟨x₁, h₁, rfl⟩ := Option.map_eq_some_iff.1 h
    exact cmp_left r x x₁ y h₁
  | case4 => simp
  | case5 f b hb =>
    rw [lit?_eq_some] at hb
    subst hb
    rintro _ ⟨⟩
    exact paren_lit b
  | case6 f _ ih =>
    intro f' h
    obtain ⟨f₁, h₁, rfl⟩ := Option.map_eq_some_iff.1 h
    exact paren_step f f₁ h₁ (ih h₁)
  | case7 f b hb =>
    rw [lit?_eq_some] at hb
    subst hb
    rintro _ ⟨⟩
    exact not_lit b
  | case8 f _ ih =>
    intro f' h
    obtain ⟨f₁, h₁, rfl⟩ := Option.map_eq_some_iff.1 h
    exact not_step f f₁ h₁ (ih h₁)
  | case9 c f g a b ha hb =>
    rw [lit?_eq_some] at ha hb
    subst ha hb
    rintro _ ⟨⟩
    exact conn_lit c a b
  | case10 c f g a hg hf ih =>
    intro f' h
    obtain ⟨g₁, h₁, rfl⟩ := Option.map_eq_some_iff.1 h
    exact conn_right c f g g₁ h₁ (ih h₁)
  | case11 c f g hf ih =>
    intro f' h
    obtain ⟨f₁, h₁, rfl⟩ := Option.map_eq_some_iff.1 h
    exact conn_left c f f₁ g h₁ (ih h₁)

theorem step_eval (f : Formula Number) : ∀ {f'}, f.step = some f' → f'.eval = f.eval :=
  step_rel (fun f f' => f'.eval = f.eval)
    (fun _ _ _ => (eval_cmp_of_ok rfl rfl).symm)
    (fun _ _ y _ h => by simp only [eval, Expr.step_eval y h])
    (fun _ x _ _ h => by simp only [eval, Expr.step_eval x h])
    (fun _ => rfl) (fun _ => rfl)
    (fun _ _ _ ih => by simp only [eval, ih]) (fun _ _ _ ih => by simp only [eval, ih])
    (fun _ _ _ => (eval_conn_of_ok rfl rfl).symm)
    (fun _ _ _ _ _ ih => by simp only [eval, ih]) (fun _ _ _ _ _ ih => by simp only [eval, ih]) f

theorem step_size (f : Formula Number) : ∀ {f'}, f.step = some f' → f'.size + 1 = f.size :=
  step_rel (fun f f' => f'.size + 1 = f.size) (fun _ _ _ => rfl)
    (fun _ _ y _ h => by simp only [size, ← Expr.step_size y h]; omega)
    (fun _ x _ _ h => by simp only [size, ← Expr.step_size x h]; omega)
    (fun _ => rfl) (fun _ => rfl)
    (fun _ _ _ ih => by simp only [size, ih]) (fun _ _ _ ih => by simp only [size, ih])
    (fun _ _ _ => rfl)
    (fun _ _ _ _ _ ih => by simp only [size, ← ih]; omega)
    (fun _ _ _ _ _ ih => by simp only [size, ← ih]; omega) f

theorem step_level (f : Formula Number) : ∀ {f'}, f.step = some f' → f'.level ≤ f.level :=
  step_rel (fun f f' => f'.level ≤ f.level) (fun _ _ _ => by simp [level])
    (fun _ _ _ _ _ => by simp [level]) (fun _ _ _ _ _ => by simp [level])
    (fun _ => by simp [level]) (fun _ => by simp [level])
    (fun _ _ _ _ => by simp [level]) (fun _ _ _ _ => by simp [level])
    (fun _ _ _ => by simp [level])
    (fun _ _ _ _ _ _ => by simp [level]) (fun _ _ _ _ _ _ => by simp [level]) f

theorem step_grammatical (f : Formula Number) :
    ∀ {f'}, f.step = some f' → f.Grammatical → f'.Grammatical := by
  refine step_rel (fun f f' => f.Grammatical → f'.Grammatical) (fun _ _ _ _ => trivial) ?_ ?_
    (fun _ _ => trivial) (fun _ _ => trivial) ?_ ?_ (fun _ _ _ _ => trivial) ?_ ?_ f
  · intro r x y y' h hg
    exact ⟨hg.1, Expr.step_grammatical y h hg.2⟩
  · intro r x x' y h hg
    exact ⟨Expr.step_grammatical x h hg.1, hg.2⟩
  · intro f f' _ ih hg
    simpa only [Grammatical] using ih hg
  · intro f f' h ih hg
    exact ⟨Nat.le_trans (step_level f h) hg.1, ih hg.2⟩
  · intro c f g g' h ih hgr
    obtain ⟨hfl, hgl, gf, gg⟩ := hgr
    exact ⟨hfl, Nat.le_trans (step_level g h) hgl, gf, ih gg⟩
  · intro c f f' g h ih hgr
    obtain ⟨hfl, hgl, gf, gg⟩ := hgr
    exact ⟨Nat.le_trans (step_level f h) hfl, hgl, ih gf, gg⟩

theorem step_noNegatedExponent (f : Formula Number) :
    ∀ {f'}, f.step = some f' → f.NoNegatedExponent → f'.NoNegatedExponent := by
  refine step_rel (fun f f' => f.NoNegatedExponent → f'.NoNegatedExponent)
    (fun _ _ _ _ => trivial) ?_ ?_ (fun _ _ => trivial) (fun _ _ => trivial) ?_ ?_
    (fun _ _ _ _ => trivial) ?_ ?_ f
  · intro r x y y' h hn
    exact ⟨hn.1, Expr.step_noNegatedExponent y h hn.2⟩
  · intro r x x' y h hn
    exact ⟨Expr.step_noNegatedExponent x h hn.1, hn.2⟩
  · intro f f' _ ih hn
    simpa only [NoNegatedExponent] using ih hn
  · intro f f' _ ih hn
    simpa only [NoNegatedExponent] using ih hn
  · intro c f g g' _ ih hn
    exact ⟨hn.1, ih hn.2⟩
  · intro c f f' g _ ih hn
    exact ⟨ih hn.1, hn.2⟩

theorem step_isSome (f : Formula Number) :
    f.lit? = none → ∀ {v}, f.eval = .ok v → ∃ f', f.step = some f' := by
  fun_induction step f with
  | case1 | case5 | case7 | case9 => exact fun _ _ _ => ⟨_, rfl⟩
  | case2 r x y a hy hx =>
    intro _ v hv
    obtain ⟨-, b, -, hyv, -⟩ := eval_cmp_ok hv
    obtain ⟨y₁, h₁⟩ := Expr.step_isSome y hy hyv
    exact ⟨_, by rw [h₁]; rfl⟩
  | case3 r x y hx =>
    intro _ v hv
    obtain ⟨a, -, hxv, -, -⟩ := eval_cmp_ok hv
    obtain ⟨x₁, h₁⟩ := Expr.step_isSome x hx hxv
    exact ⟨_, by rw [h₁]; rfl⟩
  | case4 => simp [lit?]
  | case6 f hf ih =>
    intro _ v hv
    obtain ⟨f₁, h₁⟩ := ih hf hv
    exact ⟨_, by rw [h₁]; rfl⟩
  | case8 f hf ih =>
    intro _ v hv
    obtain ⟨a, ha⟩ := eval_not_ok hv
    obtain ⟨f₁, h₁⟩ := ih hf ha
    exact ⟨_, by rw [h₁]; rfl⟩
  | case10 c f g a hg hf ih =>
    intro _ v hv
    obtain ⟨-, b, -, hgv⟩ := eval_conn_ok hv
    obtain ⟨g₁, h₁⟩ := ih hg hgv
    exact ⟨_, by rw [h₁]; rfl⟩
  | case11 c f g hf ih =>
    intro _ v hv
    obtain ⟨a, -, hfv, -⟩ := eval_conn_ok hv
    obtain ⟨f₁, h₁⟩ := ih hf hfv
    exact ⟨_, by rw [h₁]; rfl⟩

theorem eq_lit_of_step_eq_none {f : Formula Number} {v : Bool} (hs : f.step = none)
    (hv : f.eval = .ok v) : f = lit v := by
  cases hleaf : f.lit? with
  | some a =>
    rw [lit?_eq_some] at hleaf
    subst hleaf
    simpa [eval] using hv
  | none =>
    obtain ⟨f', hf'⟩ := step_isSome f hleaf hv
    rw [hs] at hf'
    cases hf'

end Formula

end Logic

end Reckon

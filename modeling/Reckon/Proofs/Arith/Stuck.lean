import Reckon.Proofs.Arith.Rules

/-!
# A negated exponent is never rewritten

In `a ^ - b` the power waits for a number after `^`, and the negation rule does not fire after
`^`. No rule of arithmetic rewrites a window that holds the pair `^ -`, that starts with the
`-` of such a pair, or that ends with its `^`; and what a rewrite puts in place of its window
is one value, no symbol. So every pass keeps the pair (`scan_contracts`,
`Contraction.stuckExponent`), and so does every reduction of the built-in rules on arithmetic
(`reduceWith_stuckExponent`). Its workspace is never a single number.
-/

namespace Reckon

namespace Arith

/-- Whether a `^` stands right before a `-` somewhere in the tokens. -/
def stuckExponent : List Token → Bool
  | t :: u :: rest => (t.isSym "^" && u.isSym "-") || stuckExponent (u :: rest)
  | _ => false

theorem stuckExponent_cons (t : Token) (l : List Token) :
    stuckExponent (t :: l) = ((t.isSym "^" && l.head?.any (·.isSym "-")) || stuckExponent l) := by
  cases l <;> simp [stuckExponent]

theorem stuckExponent_append (l₁ l₂ : List Token) :
    stuckExponent (l₁ ++ l₂) = (stuckExponent l₁ || stuckExponent l₂ ||
      (l₁.getLast?.any (·.isSym "^") && l₂.head?.any (·.isSym "-"))) := by
  induction l₁ with
  | nil => simp [stuckExponent]
  | cons t l₁ ih =>
    rw [List.cons_append, stuckExponent_cons, ih, stuckExponent_cons]
    cases l₁ with
    | nil => simp [stuckExponent, Bool.or_comm]
    | cons u l₁ =>
      simp only [List.cons_append, List.head?_cons, List.getLast?_cons_cons]
      cases t.isSym "^" && (some u).any (·.isSym "-") <;> simp

/-- What a rewrite of the window `X` into the value `v` preserves: the window is nonempty,
holds no `^ -`, does not start with the `-` of one, does not end with a `^`, and is replaced by
a token of arithmetic that is no symbol. -/
structure Contraction (prev : Option Token) (X : List Token) (v : Token) : Prop where
  ne_nil : X ≠ []
  no_pair : stuckExponent X = false
  after_caret : prev.any (·.isSym "^") = true → X.head?.any (·.isSym "-") = false
  last_not_caret : X.getLast?.any (·.isSym "^") = false
  value_not_sym : ∀ s, v.isSym s = false
  value_arith : (∀ t ∈ X, isArith t = true) → isArith v = true

namespace Contraction

variable {pre X rest : List Token} {v : Token}

theorem stuckExponent (hc : Contraction pre.getLast? X v)
    (h : Arith.stuckExponent (pre ++ X ++ rest) = true) :
    Arith.stuckExponent (pre ++ v :: rest) = true := by
  obtain ⟨X', x, rfl⟩ := (List.eq_nil_or_concat X).resolve_left hc.ne_nil
  have hlast : x.isSym "^" = false := by simpa using hc.last_not_caret
  have hno := hc.no_pair
  have hfirst := hc.after_caret
  have hv := hc.value_not_sym
  rw [stuckExponent_append, stuckExponent_append] at h
  rw [stuckExponent_append, stuckExponent_cons]
  -- a pair across the left seam needs a `-` first in the window, which a `^` before refuses
  cases hpre : pre.getLast?.any (·.isSym "^")
  · simp_all
  · simp_all
    rcases h with (h | h) | h
    · exact .inl h
    · simp [h, Token.isSym] at hfirst
    · exact .inr h

theorem arith (hc : Contraction pre.getLast? X v) (h : ∀ t ∈ pre ++ X ++ rest, isArith t = true) :
    ∀ t ∈ pre ++ v :: rest, isArith t = true := by
  have hv := hc.value_arith fun t ht => h t (by simp [ht])
  intro t ht
  simp only [List.mem_append, List.mem_cons] at ht
  rcases ht with ht | rfl | ht
  · exact h t (by simp [ht])
  · exact hv
  · exact h t (by simp [ht])

end Contraction

theorem Expr.stuckExponent_tokens (e : Expr Number) (h : ¬ e.NoNegatedExponent) :
    stuckExponent e.tokens = true := by
  induction e with
  | lit => exact absurd trivial h
  | paren e ih =>
    simp [Expr.tokens, stuckExponent_cons, stuckExponent_append, ih h]
  | neg e ih =>
    simp [Expr.tokens, stuckExponent_cons, ih h]
  | bin op x y ihx ihy =>
    simp only [Expr.NoNegatedExponent, not_and_or, Classical.not_imp] at h
    rcases h with ⟨rfl, hy⟩ | hx | hy
    · -- the exponent itself is the negation
      cases y with
      | neg z => simp [Expr.tokens, stuckExponent_append, stuckExponent_cons, BinOp.symbol, Token.isSym]
      | lit | paren | bin => simp [Expr.isNeg] at hy
    · simp [Expr.tokens, stuckExponent_append, ihx hx]
    · simp [Expr.tokens, stuckExponent_append, stuckExponent_cons, ihy hy]

/-! ### The rewrites of arithmetic are contractions -/

theorem contraction_parens {w w' : List Token} (h : parensAt w = some w') (prev : Option Token) :
    ∃ X v rest, w = X ++ rest ∧ w' = v :: rest ∧ Contraction prev X v := by
  obtain ⟨v, rest, rfl, rfl, hv⟩ := parensAt_eq_some h
  have hsym : ∀ s, v.isSym s = false := by
    intro s
    cases v <;> simp_all [Token.isValue, Token.kind, Token.isSym]
  refine ⟨[.sym "(", v, .sym ")"], v, rest, rfl, rfl, ?_⟩
  exact {
    ne_nil := by simp
    no_pair := by simp [stuckExponent, hsym]
    after_caret := fun _ => by simp [Token.isSym]
    last_not_caret := by simp [Token.isSym]
    value_not_sym := hsym
    value_arith := fun h => h v (by simp) }

theorem contraction_negate {prev : Option Token} {w w' : List Token}
    (h : negateAt prev w = some w') :
    ∃ X v rest, w = X ++ rest ∧ w' = v :: rest ∧ Contraction prev X v := by
  obtain ⟨n, rest, rfl, rfl, hpow⟩ := negateAt_eq_some h
  refine ⟨[.sym "-", .num n], .num n.neg, rest, rfl, rfl, ?_⟩
  exact {
    ne_nil := by simp
    no_pair := by simp [stuckExponent, Token.isSym]
    -- the negation is refused after a power
    after_caret := fun hcaret => by
      rcases prev with _ | ⟨_ | _ | _ | s | _ | _ | _ | _ | _⟩ <;>
        simp_all [Token.isSym, Library.blocks, powerOps]
    last_not_caret := by simp [Token.isSym]
    value_not_sym := fun _ => rfl
    value_arith := fun _ => rfl }

theorem contraction_binary (op : BinOp) {prev : Option Token} {w w' : List Token}
    (h : binaryAt op.operator prev w = some w') :
    ∃ X v rest, w = X ++ rest ∧ w' = v :: rest ∧ Contraction prev X v := by
  obtain ⟨a, b, v, rest, rfl, rfl, ha, hb, hv⟩ := binaryAt_eq_some h
  -- both operands are numbers, and so is the result
  obtain ⟨x, rfl⟩ : ∃ x, a = .num x := by
    cases a <;> simp_all [Token.accepts, Token.kind]
  obtain ⟨y, rfl⟩ : ∃ y, b = .num y := by
    cases b <;> simp_all [Token.accepts, Token.kind]
  rw [BinOp.operator_eval] at hv
  obtain ⟨z, -, rfl⟩ := Option.map_eq_some_iff.1 hv
  refine ⟨[.num x, .sym op.operator.symbol, .num y], .num z, rest, rfl, rfl, ?_⟩
  exact {
    ne_nil := by simp
    no_pair := by simp [stuckExponent, Token.isSym]
    after_caret := fun _ => by simp [Token.isSym]
    last_not_caret := by simp [Token.isSym]
    value_not_sym := fun _ => rfl
    value_arith := fun _ => rfl }

theorem localFire_eq_some {pre w : List Token} {f : Firing} (h : localFire pre w = some f) :
    ∃ r X v rest, w = X ++ rest ∧ f = .rewritten r pre.length (pre ++ v :: rest) ∧
      Contraction pre.getLast? X v := by
  obtain ⟨b, hb, hf⟩ := List.exists_of_findSome?_eq_some h
  obtain ⟨w', hw', rfl⟩ := Option.map_eq_some_iff.1 hf
  have hcontract : ∃ X v rest, w = X ++ rest ∧ w' = v :: rest ∧ Contraction pre.getLast? X v := by
    simp only [arithRules, List.mem_cons, List.not_mem_nil, or_false] at hb
    rcases hb with rfl | rfl | rfl | rfl | rfl | rfl | rfl
    · exact contraction_parens hw' _
    · exact contraction_negate hw'
    · exact contraction_binary .pow hw'
    · exact contraction_binary .mul hw'
    · exact contraction_binary .div hw'
    · exact contraction_binary .add hw'
    · exact contraction_binary .sub hw'
  obtain ⟨X, v, rest, rfl, rfl, hc⟩ := hcontract
  exact ⟨b.rule, X, v, rest, rfl, rfl, hc⟩

theorem scan_eq_some {pre w : List Token} {f : Firing} (h : scan pre w = some f) :
    ∃ r pre' X v rest, pre ++ w = pre' ++ X ++ rest ∧
      f = .rewritten r pre'.length (pre' ++ v :: rest) ∧ Contraction pre'.getLast? X v := by
  induction w generalizing pre with
  | nil => simp [scan] at h
  | cons t w ih =>
    rw [scan] at h
    cases hl : localFire pre (t :: w) with
    | some f' =>
      rw [hl, Option.some_or, Option.some.injEq] at h
      subst h
      obtain ⟨r, X, v, rest, hw, rfl, hc⟩ := localFire_eq_some hl
      exact ⟨r, pre, X, v, rest, by rw [hw, List.append_assoc], rfl, hc⟩
    | none =>
      rw [hl, Option.none_or] at h
      obtain ⟨r, pre', X, v, rest, hw, rfl, hc⟩ := ih h
      exact ⟨r, pre', X, v, rest, by simpa using hw, rfl, hc⟩

theorem firing?_builtins_eq_some {ws : List Token} (hws : ∀ t ∈ ws, isArith t = true)
    {f : Firing} (h : Library.builtins.firing? ws = some f) :
    ∃ r pre X v rest, ws = pre ++ X ++ rest ∧
      f = .rewritten r pre.length (pre ++ v :: rest) ∧ Contraction pre.getLast? X v := by
  rw [firing?_builtins ws hws] at h
  simpa using scan_eq_some h

/-- A reduction of the built-in rules on arithmetic with a `^`
right before a `-` ends, in a normal form or over its budget, with such a pair still there. -/
theorem reduceWith_stuckExponent (limit fuel depth : Nat) (ws : List Token) (p : Progress)
    (hws : ∀ t ∈ ws, isArith t = true) (hs : stuckExponent ws = true) :
    stuckExponent (Library.builtins.reduceWith limit fuel depth ws p).1.workspace = true := by
  fun_induction Library.builtins.reduceWith limit fuel depth ws p with
  | case1 | case2 | case3 => exact hs
  | case4 fuel depth ws p _ r pos ws' hfire n ih =>
    obtain ⟨r', pre, X, v, rest, rfl, hf, hc⟩ := firing?_builtins_eq_some hws hfire
    obtain ⟨-, -, rfl⟩ := Firing.rewritten.inj hf
    exact ih (hc.arith hws) (hc.stuckExponent hs)
  | case5 fuel depth ws p _ r pos body hfire =>
    obtain ⟨_, _, _, _, _, _, hf, _⟩ := firing?_builtins_eq_some hws hfire
    cases hf
  | case6 fuel depth ws p _ r pos body hfire =>
    obtain ⟨_, _, _, _, _, _, hf, _⟩ := firing?_builtins_eq_some hws hfire
    cases hf

end Arith

end Reckon

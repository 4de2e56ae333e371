import Reckon.Proofs.Logic.Rules

/-!
# Where a pass rewrites a formula of the grammar

As with arithmetic, no rule knows the grammar of formulas: precedence comes from the neighbours a
formula can have. A formula of level `l` stands after nothing or one of `formulaLeft l`, and
before nothing or one of `formulaRight l` (`Arith.around`).

In such a context the scan from the left first rewrites exactly the node that `Formula.step`
reduces (`Logic.scan_tokens`). Inside a comparison the arithmetic is rewritten as the rules of
arithmetic rewrite it alone: its neighbours, a comparison, `not`, `and`, `or` or a parenthesis,
are inert to them, and the rules of comparisons and connectives fire nowhere inside it
(`Logic.scan_expr`). A comparison waits for an arithmetic operator next to its operands, since
each binds tighter; a connective waits for a comparison after it, and `or` for an `and`; `not`
waits for its operand to become a truth value, and no rule fires at `not` before that.
-/

namespace Reckon

namespace Logic

open Arith (Expr around leftSyms rightSyms localFire endsOperand? parensAt negateAt binaryAt
  scanWith arithHead isArith)

/-! ### The tokens of a formula -/

namespace Formula

theorem tokens_ne_nil (f : Formula Number) : f.tokens ≠ [] := by
  cases f <;> simp [tokens]

theorem tokens_cons_cons {f : Formula Number} (hf : f.lit? = none) :
    ∃ t u rest, f.tokens = t :: u :: rest := by
  cases f with
  | cmp r x y =>
    obtain ⟨t, rest, h⟩ := List.exists_cons_of_ne_nil (Expr.tokens_ne_nil x)
    cases rest with
    | nil => exact ⟨t, .sym r.symbol, y.tokens, by simp [tokens, h]⟩
    | cons u rest => exact ⟨t, u, rest ++ .sym r.symbol :: y.tokens, by simp [tokens, h]⟩
  | lit => simp [lit?] at hf
  | paren f =>
    obtain ⟨t, rest, h⟩ := List.exists_cons_of_ne_nil (tokens_ne_nil f)
    exact ⟨.sym "(", t, rest ++ [.sym ")"], by simp [tokens, h]⟩
  | not f =>
    obtain ⟨t, rest, h⟩ := List.exists_cons_of_ne_nil (tokens_ne_nil f)
    exact ⟨.sym "not", t, rest, by simp [tokens, h]⟩
  | conn c f g =>
    obtain ⟨t, rest, h⟩ := List.exists_cons_of_ne_nil (tokens_ne_nil f)
    cases rest with
    | nil => exact ⟨t, .sym c.symbol, g.tokens, by simp [tokens, h]⟩
    | cons u rest => exact ⟨t, u, rest ++ .sym c.symbol :: g.tokens, by simp [tokens, h]⟩

theorem tokens_bool_cons {f : Formula Number} (hf : f.lit? = none) (hg : f.Grammatical) {b : Bool}
    {u : Token} {rest : List Token} (h : f.tokens = .bool b :: u :: rest) :
    ∃ c : Connective, u = .sym c.symbol ∧ c.level ≤ f.level := by
  induction f generalizing rest with
  | cmp r x y =>
    -- the tokens of arithmetic hold no truth value
    obtain ⟨t, xs, hx⟩ := List.exists_cons_of_ne_nil (Expr.tokens_ne_nil x)
    have harith := Expr.tokens_arith x t (by simp [hx])
    simp only [tokens, hx, List.cons_append, List.cons.injEq] at h
    rw [h.1] at harith
    simp [isArith] at harith
  | lit => simp [lit?] at hf
  | paren => simp [tokens] at h
  | not => simp [tokens] at h
  | conn c f g ihf =>
    obtain ⟨hfl, -, gf, -⟩ := hg
    cases hfl' : f.lit? with
    | some a =>
      rw [lit?_eq_some] at hfl'
      subst hfl'
      simp only [tokens, List.singleton_append, List.cons.injEq] at h
      exact ⟨c, h.2.1.symm, Nat.le_refl _⟩
    | none =>
      obtain ⟨t, u', rest', hft⟩ := tokens_cons_cons hfl'
      simp only [tokens, hft, List.cons_append, List.cons.injEq] at h
      obtain ⟨rfl, rfl, -⟩ := h
      obtain ⟨c', hu, hle⟩ := ihf hfl' gf hft
      exact ⟨c', hu, Nat.le_trans hle hfl⟩

theorem tokens_head_not_bool {f : Formula Number} (hf : f.lit? = none) (hg : f.Grammatical)
    (hlevel : f.level ≤ 1) {b : Bool} {rest : List Token} : f.tokens ≠ .bool b :: rest := by
  intro h
  obtain ⟨t, u, rest', hft⟩ := tokens_cons_cons hf
  rw [hft, List.cons.injEq] at h
  obtain ⟨rfl, -⟩ := h
  obtain ⟨c, -, hle⟩ := tokens_bool_cons hf hg hft
  have := c.rightLevel_lt_level
  cases c <;> simp_all [Connective.level, Connective.rightLevel] <;> omega

theorem tokens_value_cons {f : Formula Number} (hf : f.lit? = none) (hg : f.Grammatical)
    {t u : Token} {rest : List Token} (h : f.tokens = t :: u :: rest) (ht : t.isValue = true) :
    u.isSym ")" = false := by
  induction f generalizing rest with
  | cmp r x y =>
    obtain ⟨gx, -⟩ := hg
    cases hxl : x.leaf? with
    | some a =>
      rw [Expr.leaf?_eq_some] at hxl
      subst hxl
      simp only [tokens, Expr.tokens, List.singleton_append, List.cons.injEq] at h
      rw [← h.2.1]
      cases r <;> rfl
    | none =>
      obtain ⟨t', u', rest', hxt⟩ := Expr.tokens_cons_cons hxl
      simp only [tokens, hxt, List.cons_append, List.cons.injEq] at h
      obtain ⟨rfl, rfl, -⟩ := h
      -- a value of arithmetic is a number, and an operator follows it
      rcases Expr.isArith_cases (Expr.tokens_arith x t' (by simp [hxt])) with ⟨n, rfl⟩ | ⟨s, rfl⟩
      · obtain ⟨op, rfl, -⟩ := Expr.tokens_num_cons hxl gx hxt
        cases op <;> rfl
      · simp [Token.isValue, Token.kind] at ht
  | lit => simp [lit?] at hf
  | paren =>
    simp only [tokens, List.cons_append, List.cons.injEq] at h
    rw [← h.1] at ht
    simp [Token.isValue, Token.kind] at ht
  | not =>
    simp only [tokens, List.cons.injEq] at h
    rw [← h.1] at ht
    simp [Token.isValue, Token.kind] at ht
  | conn c f g ihf =>
    obtain ⟨-, -, gf, -⟩ := hg
    cases hfl : f.lit? with
    | some a =>
      rw [lit?_eq_some] at hfl
      subst hfl
      simp only [tokens, List.singleton_append, List.cons.injEq] at h
      rw [← h.2.1]
      cases c <;> rfl
    | none =>
      obtain ⟨t', u', rest', hft⟩ := tokens_cons_cons hfl
      simp only [tokens, hft, List.cons_append, List.cons.injEq] at h
      obtain ⟨rfl, rfl, -⟩ := h
      exact ihf hfl gf hft

end Formula

/-! ### The contexts of a formula -/

/-- The symbols that may stand just before a formula of level `l` in a formula of the grammar. -/
def formulaLeft : Nat → List String
  | 0 | 1 => ["(", "not", "and", "or"]
  | 2 => ["(", "or"]
  | _ => ["("]

/-- The symbols that may stand just after a formula of level `l` in a formula of the grammar. -/
def formulaRight : Nat → List String
  | 0 | 1 | 2 => [")", "and", "or"]
  | _ => [")", "or"]

theorem formulaLeft_anti {l l' : Nat} (h : l ≤ l') : ∀ s ∈ formulaLeft l', s ∈ formulaLeft l := by
  rcases l with _ | _ | _ | l <;> rcases l' with _ | _ | _ | l' <;>
    first | decide | omega | simp [formulaLeft]

theorem formulaRight_anti {l l' : Nat} (h : l ≤ l') :
    ∀ s ∈ formulaRight l', s ∈ formulaRight l := by
  rcases l with _ | _ | _ | l <;> rcases l' with _ | _ | _ | l' <;>
    first | decide | omega | simp [formulaRight]

theorem around_formulaLeft_anti {l l' : Nat} (h : l ≤ l') {t : Option Token}
    (ht : around (formulaLeft l') t = true) : around (formulaLeft l) t = true :=
  Arith.around_mono (formulaLeft_anti h) ht

theorem around_formulaRight_anti {l l' : Nat} (h : l ≤ l') {t : Option Token}
    (ht : around (formulaRight l') t = true) : around (formulaRight l) t = true :=
  Arith.around_mono (formulaRight_anti h) ht

@[simp] theorem around_formulaLeft_open (l : Nat) :
    around (formulaLeft l) (some (.sym "(")) = true := by
  rcases l with _ | _ | _ | l <;> rfl

@[simp] theorem around_formulaRight_close (l : Nat) :
    around (formulaRight l) (some (.sym ")")) = true := by
  rcases l with _ | _ | _ | l <;> rfl

theorem around_formulaLeft_not {l : Nat} (h : l ≤ 1) :
    around (formulaLeft l) (some (.sym "not")) = true := by
  rcases l with _ | _ | l
  all_goals first | rfl | omega

theorem around_formulaLeft_conn (c : Connective) {l : Nat} (h : l ≤ c.rightLevel) :
    around (formulaLeft l) (some (.sym c.symbol)) = true := by
  cases c <;> simp only [Connective.rightLevel] at h <;>
    rcases l with _ | _ | _ | l <;> first | rfl | omega

theorem around_formulaRight_conn (c : Connective) {l : Nat} (h : l ≤ c.level) :
    around (formulaRight l) (some (.sym c.symbol)) = true := by
  cases c <;> simp only [Connective.level] at h <;>
    rcases l with _ | _ | _ | _ | l <;> first | rfl | omega

theorem around_expr_left (l : Nat) {t : Option Token} (ht : around (formulaLeft 0) t = true) :
    around (leftSyms l ++ logicSyms) t = true := by
  refine Arith.around_mono (fun s hs => ?_) ht
  simp only [formulaLeft, List.mem_cons, List.not_mem_nil, or_false] at hs
  rcases hs with rfl | rfl | rfl | rfl
  · exact List.mem_append_left _ (List.elem_iff.1 (Arith.around_left_open l))
  all_goals exact List.mem_append_right _ (by decide)

theorem around_expr_right (l : Nat) {t : Option Token} (ht : around (formulaRight 0) t = true) :
    around (rightSyms l ++ logicSyms) t = true := by
  refine Arith.around_mono (fun s hs => ?_) ht
  simp only [formulaRight, List.mem_cons, List.not_mem_nil, or_false] at hs
  rcases hs with rfl | rfl | rfl
  · exact List.mem_append_left _ (List.elem_iff.1 (Arith.around_right_close l))
  all_goals exact List.mem_append_right _ (by decide)

theorem around_expr_rel (r : Rel) (syms : List String) :
    around (syms ++ logicSyms) (some (.sym r.symbol)) = true := by
  rw [Arith.around_append]
  cases r <;> simp [around, logicSyms, comparisonOps, Rel.symbol]

theorem endsOperand?_of_formulaLeft {l : Nat} {t : Option Token}
    (ht : around (formulaLeft l) t = true) : endsOperand? t = false := by
  rcases t with _ | ⟨_ | _ | _ | s | _ | _ | _ | _ | _⟩
  · rfl
  all_goals simp only [around, Bool.false_eq_true] at ht
  have hs := List.elem_iff.1 ht
  rcases l with _ | _ | _ | l <;> simp only [formulaLeft, List.mem_cons] at hs <;>
    rcases hs with rfl | rfl | rfl | rfl | hs <;> first | rfl | simp at hs

/-! ### Windows of a formula -/

theorem accepts_sym {k : Kind} (hk : k ≠ .symbol) (s : String) :
    Token.accepts k (.sym s) = false := by
  cases k <;> simp_all [Token.accepts, Token.isValue, Token.kind]

theorem binaryAt_operands {op : Operator} {prev : Option Token} {a b : Token} {R : List Token}
    (ha : Token.accepts op.operandKind a = true) (hb : Token.accepts op.operandKind b = true)
    (hbefore : Library.blocks op.tighter prev = false)
    (hafter : Library.blocks op.tighter R.head? = false)
    (hpeers : Library.blocks op.peers prev = false) (hleft : op.rightAssoc = false) :
    binaryAt op prev (a :: .sym op.symbol :: b :: R) = (op.eval a b).map (· :: R) := by
  simp [binaryAt, ha, hb, hbefore, hafter, hpeers, hleft, Token.isSym]

theorem localFire_bool (pre : List Token) (a : Bool) (ws : List Token) :
    localFire pre (.bool a :: ws) = none := by
  have hparens : parensAt (.bool a :: ws) = none := by
    rcases ws with _ | ⟨_, _ | ⟨_, _⟩⟩ <;> simp [parensAt, Token.isSym]
  have hnegate : negateAt pre.getLast? (.bool a :: ws) = none := by
    rcases ws with _ | ⟨_ | _ | _ | _ | _ | _ | _ | _ | _, _⟩ <;> simp [negateAt, Token.isSym]
  have hbinary : ∀ op : Operator, op.operandKind = .number →
      binaryAt op pre.getLast? (.bool a :: ws) = none := by
    intro op hk
    rcases ws with _ | ⟨_, _ | ⟨_, _⟩⟩ <;> simp [binaryAt, hk, Token.accepts, Token.kind]
  simp (disch := decide) [localFire, Arith.arithRules, List.findSome?_cons, Arith.rewriteWindow,
    hparens, hnegate, hbinary]

theorem localFire_logicSym {s : String} (hs : s ∈ logicSyms) (pre ws : List Token) :
    localFire pre (.sym s :: ws) = none := by
  have hp : (s == "(") = false := by
    simp only [logicSyms, comparisonOps, List.mem_append, List.mem_cons, List.not_mem_nil,
      or_false] at hs
    rcases hs with (rfl | rfl | rfl | rfl | rfl | rfl) | (rfl | rfl | rfl) <;> rfl
  have hm : (s == "-") = false := by
    simp only [logicSyms, comparisonOps, List.mem_append, List.mem_cons, List.not_mem_nil,
      or_false] at hs
    rcases hs with (rfl | rfl | rfl | rfl | rfl | rfl) | (rfl | rfl | rfl) <;> rfl
  simp (disch := decide) [localFire, Arith.arithRules, List.findSome?_cons, Arith.rewriteWindow,
    Arith.parensAt_sym hp, Arith.negateAt_sym hm, Arith.binaryAt_sym]

theorem localFire_num_rel (r : Rel) (pre : List Token) (a : Number) (ws : List Token) :
    localFire pre (.num a :: .sym r.symbol :: ws) = none := by
  cases r <;> simp (disch := decide) [localFire, Arith.arithRules, List.findSome?_cons,
    Arith.rewriteWindow, Arith.parensAt_num, Arith.negateAt_num, Arith.binaryAt_other, Rel.symbol]

theorem localFire_open (pre : List Token) {f : Formula Number} (hf : f.lit? = none)
    (hg : f.Grammatical) (R : List Token) : localFire pre (.sym "(" :: (f.tokens ++ R)) = none := by
  obtain ⟨t, u, rest, hft⟩ := Formula.tokens_cons_cons hf
  rw [hft, List.cons_append, List.cons_append]
  -- the parentheses would need a value followed by the closing one
  have hparens : parensAt (.sym "(" :: t :: u :: (rest ++ R)) = none := by
    cases ht : t.isValue
    · simp [parensAt, ht]
    · simp [parensAt, Formula.tokens_value_cons hf hg hft ht]
  simp (disch := decide) [localFire, Arith.arithRules, List.findSome?_cons, Arith.rewriteWindow,
    hparens, Arith.negateAt_sym, Arith.binaryAt_sym]

theorem binaryAt_rejects_right {op : Operator} {prev : Option Token} {a t b : Token}
    {rest : List Token} (h : Token.accepts op.operandKind b = false) :
    binaryAt op prev (a :: t :: b :: rest) = none := by
  simp [binaryAt, h]

theorem Rel.symbol_mem (r : Rel) : r.symbol ∈ logicSyms := by
  cases r <;> decide

theorem Connective.symbol_mem (c : Connective) : c.symbol ∈ logicSyms := by
  cases c <;> decide

/-! ### The rules of comparisons and connectives at one position -/

theorem connFire_sym {s : String} (hs : (s == "not") = false) (pre ws : List Token) :
    connFire pre (.sym s :: ws) = none := by
  have hnot : notAt pre.getLast? (.sym s :: ws) = none := by
    rcases ws with _ | ⟨_ | _ | _ | _ | _ | _ | _ | _ | _, _⟩ <;> simp [notAt, Token.isSym, hs]
  have hbinary : ∀ op : Operator, binaryAt op pre.getLast? (.sym s :: ws) = none := by
    intro op
    rcases ws with _ | ⟨_, _ | ⟨_, _⟩⟩ <;>
      simp [binaryAt, accepts_sym (Arith.operandKind_ne_symbol op)]
  simp [connFire, logicRules, logicWindow, hnot, hbinary]

theorem connFire_num {s : String} (hs : comparisonOps.contains s = false) (pre : List Token)
    (a : Number) (ws : List Token) : connFire pre (.num a :: .sym s :: ws) = none := by
  simp only [comparisonOps, List.contains_eq_mem, List.mem_cons, List.not_mem_nil, or_false,
    decide_eq_false_iff_not, not_or] at hs
  rcases ws with _ | ⟨_, _⟩ <;>
    simp [connFire, logicRules, logicWindow, notAt, binaryAt, Token.isSym, Token.accepts,
      Token.kind, Operator.operandKind, Operator.symbol, hs]

theorem symbols_not_logic {s : String} (h : Arith.symbols.contains s = true) :
    (s == "not") = false ∧ comparisonOps.contains s = false := by
  simp [Arith.symbols] at h
  rcases h with rfl | rfl | rfl | rfl | rfl | rfl | rfl <;> decide

theorem connFire_arithHead {ws : List Token} (h : arithHead ws = true) (pre : List Token) :
    connFire pre ws = none := by
  rcases ws with _ | ⟨t, rest⟩
  · simp [arithHead] at h
  cases t with
  | sym s => exact connFire_sym (symbols_not_logic h).1 pre rest
  | num a =>
    rcases rest with _ | ⟨u, rest⟩
    · simp [arithHead] at h
    cases u with
    | sym s => exact connFire_num (symbols_not_logic h).2 pre a rest
    | _ => simp [arithHead] at h
  | _ => simp [arithHead] at h

theorem fire_of_localFire {pre ws : List Token} {f : Firing} (h : localFire pre ws = some f) :
    fire pre ws = some f := by
  simp [fire, h]

theorem fire_of_connFire {pre ws : List Token} {f : Firing} (h : localFire pre ws = none)
    (hc : connFire pre ws = some f) : fire pre ws = some f := by
  simp [fire, h, hc]

theorem fire_eq_none {pre ws : List Token} (h : localFire pre ws = none)
    (hc : connFire pre ws = none) : fire pre ws = none := by
  simp [fire, h, hc]

/-- Beside the neighbours a comparison gives them, the first
rewrite of a pass over the tokens of a tree of arithmetic is the node `Expr.step` reduces. -/
theorem scan_expr (e : Expr Number) :
    ∀ {e'}, e.step = some e' → e.Grammatical → e.NoNegatedExponent →
      ∀ pre R, around (leftSyms e.level ++ logicSyms) pre.getLast? = true →
        around (rightSyms e.level ++ logicSyms) R.head? = true →
        ∃ r pos, scanWith fire pre (e.tokens ++ R) =
          some (.rewritten r pos (pre ++ e'.tokens ++ R)) :=
  Arith.scanWith_tokens (fun _ _ _ h => fire_of_localFire h)
    (fun pre _ hh h => fire_eq_none h (connFire_arithHead hh pre)) logicSyms_inert
    (Arith.quiet_of_inert logicSyms_inert) e

theorem connFire_rel_lit (r : Rel) (pre : List Token) (a b : Number) (R : List Token)
    (hl : around (formulaLeft 0) pre.getLast? = true) (hr : around (formulaRight 0) R.head? = true) :
    connFire pre (.num a :: .sym r.symbol :: .num b :: R) =
      some (.rewritten (Builtin.binary r.operator).rule pre.length
        (pre ++ .bool (r.holds a b) :: R)) := by
  have hbin : binaryAt r.operator pre.getLast? (.num a :: .sym r.operator.symbol :: .num b :: R) =
      some (.bool (r.holds a b) :: R) := by
    rw [binaryAt_operands (r.accepts_num a) (r.accepts_num b)
      (Arith.blocks_of_around hl (by cases r <;> decide))
      (Arith.blocks_of_around hr (by cases r <;> decide))
      (Arith.blocks_of_around hl (by cases r <;> decide)) (by cases r <;> rfl), r.operator_eval]
    rfl
  cases r <;> simp only [Rel.operator, Rel.symbol, Operator.symbol] at hbin ⊢ <;>
    simp (disch := decide) [connFire, logicRules, List.findSome?_cons, logicWindow,
      Arith.binaryAt_other, hbin]

theorem connFire_rel_head (r : Rel) (pre : List Token) (a : Number) {y : Expr Number}
    (hy : y.leaf? = none) (hg : y.Grammatical) (R : List Token) :
    connFire pre (.num a :: .sym r.symbol :: (y.tokens ++ R)) = none := by
  obtain ⟨t, u, rest, hyt⟩ := Expr.tokens_cons_cons hy
  rw [hyt, List.cons_append, List.cons_append]
  rcases Expr.isArith_cases (Expr.tokens_arith y t (by simp [hyt])) with ⟨b, rfl⟩ | ⟨s, rfl⟩
  · obtain ⟨op, rfl, -⟩ := Expr.tokens_num_cons hy hg hyt
    cases op <;> simp (disch := decide) [connFire, logicRules, List.findSome?_cons, logicWindow,
      notAt, Arith.binaryAt_tighter_after, Arith.BinOp.symbol]
  · simp [connFire, logicRules, logicWindow, notAt, binaryAt, Token.accepts, Token.isValue,
      Token.kind, Operator.operandKind]

theorem connFire_not_lit (pre : List Token) (b : Bool) (R : List Token)
    (hends : endsOperand? pre.getLast? = false) :
    connFire pre (.sym "not" :: .bool b :: R) =
      some (.rewritten Builtin.logicalNot.rule pre.length (pre ++ .bool (!b) :: R)) := by
  have hbinary : ∀ op : Operator, binaryAt op pre.getLast? (.sym "not" :: .bool b :: R) = none := by
    intro op
    rcases R with _ | ⟨_, _⟩ <;> simp [binaryAt, accepts_sym (Arith.operandKind_ne_symbol op)]
  simp [connFire, logicRules, logicWindow, hbinary, notAt, Token.isSym, hends]

theorem connFire_not_head (pre : List Token) {f : Formula Number} (hf : f.lit? = none)
    (hg : f.Grammatical) (hlevel : f.level ≤ 1) (R : List Token) :
    connFire pre (.sym "not" :: (f.tokens ++ R)) = none := by
  obtain ⟨t, u, rest, hft⟩ := Formula.tokens_cons_cons hf
  have hnot : notAt pre.getLast? (.sym "not" :: t :: u :: (rest ++ R)) = none := by
    cases t with
    | bool b => exact absurd hft (Formula.tokens_head_not_bool hf hg hlevel)
    | _ => simp [notAt]
  have hbinary : ∀ op : Operator,
      binaryAt op pre.getLast? (.sym "not" :: t :: u :: (rest ++ R)) = none := by
    intro op
    simp [binaryAt, accepts_sym (Arith.operandKind_ne_symbol op)]
  rw [hft, List.cons_append, List.cons_append]
  simp [connFire, logicRules, logicWindow, hnot, hbinary]

theorem connFire_conn_lit (c : Connective) (pre : List Token) (a b : Bool) (R : List Token)
    (hl : around (formulaLeft c.level) pre.getLast? = true)
    (hr : around (formulaRight c.level) R.head? = true) :
    connFire pre (.bool a :: .sym c.symbol :: .bool b :: R) =
      some (.rewritten (Builtin.binary c.operator).rule pre.length
        (pre ++ .bool (c.apply a b) :: R)) := by
  have hbin : binaryAt c.operator pre.getLast? (.bool a :: .sym c.operator.symbol :: .bool b :: R) =
      some (.bool (c.apply a b) :: R) := by
    rw [binaryAt_operands (by cases c <;> rfl) (by cases c <;> rfl)
      (Arith.blocks_of_around hl (by cases c <;> decide))
      (Arith.blocks_of_around hr (by cases c <;> decide))
      (Arith.blocks_of_around hl (by cases c <;> decide)) (by cases c <;> rfl), c.operator_eval]
    rfl
  cases c <;> simp only [Connective.operator, Connective.symbol, Operator.symbol] at hbin ⊢ <;>
    simp (disch := decide) [connFire, logicRules, List.findSome?_cons, logicWindow,
      Arith.binaryAt_other, notAt, hbin]

theorem connFire_conn_head (c : Connective) (pre : List Token) (a : Bool) {g : Formula Number}
    (hg : g.lit? = none) (hgr : g.Grammatical) (hlevel : g.level ≤ c.rightLevel)
    (R : List Token) : connFire pre (.bool a :: .sym c.symbol :: (g.tokens ++ R)) = none := by
  obtain ⟨t, u, rest, hgt⟩ := Formula.tokens_cons_cons hg
  rw [hgt, List.cons_append, List.cons_append]
  by_cases hb : ∃ b, t = .bool b
  · obtain ⟨b, rfl⟩ := hb
    obtain ⟨c', rfl, hle⟩ := Formula.tokens_bool_cons hg hgr hgt
    -- the operand's connective is looser than `c` allows unless it is an `and` under an `or`
    cases c <;> cases c' <;> simp only [Connective.level, Connective.rightLevel] at hle hlevel <;>
      first
      | omega
      | simp (disch := decide) [connFire, logicRules, List.findSome?_cons, logicWindow, notAt,
          Arith.binaryAt_other, Arith.binaryAt_tighter_after, Connective.symbol]
  · -- a connective needs a truth value on its right
    have hbool : Token.accepts .bool t = false := by
      cases t <;> simp_all [Token.accepts, Token.kind]
    have hand : binaryAt .and pre.getLast? (.bool a :: .sym c.symbol :: t :: u :: (rest ++ R)) =
        none := binaryAt_rejects_right hbool
    have hor : binaryAt .or pre.getLast? (.bool a :: .sym c.symbol :: t :: u :: (rest ++ R)) =
        none := binaryAt_rejects_right hbool
    cases c <;> simp only [Connective.symbol] at hand hor ⊢ <;>
      simp (disch := decide) [connFire, logicRules, List.findSome?_cons, logicWindow, notAt,
        Arith.binaryAt_other, hand, hor]

/-! ### The scan over a formula -/

/-- In a context its level admits, the first rewrite
of a pass over the tokens of a formula of the grammar is the node `Formula.step` reduces, with
everything around it kept. -/
theorem scan_tokens (f : Formula Number) :
    ∀ {f'}, f.step = some f' → f.Grammatical → f.NoNegatedExponent →
      ∀ pre R, around (formulaLeft f.level) pre.getLast? = true →
        around (formulaRight f.level) R.head? = true →
        ∃ r pos, scanWith fire pre (f.tokens ++ R) =
          some (.rewritten r pos (pre ++ f'.tokens ++ R)) := by
  fun_induction Formula.step f with
  | case1 r x y a b ha hb =>
    rw [Expr.leaf?_eq_some] at ha hb
    subst ha hb
    rintro _ ⟨⟩ - - pre R hl hr
    have hfire := fire_of_connFire (localFire_num_rel r pre a _) (connFire_rel_lit r pre a b R hl hr)
    exact ⟨_, _, by simpa [Formula.tokens, Expr.tokens] using Arith.scanWith_cons_of_some hfire⟩
  | case2 r x y a hy hx =>
    rw [Expr.leaf?_eq_some] at hx
    subst hx
    intro f' h hg hn pre R _ hr
    obtain ⟨y', hy', rfl⟩ := Option.map_eq_some_iff.1 h
    -- the scan passes the number and the comparison, then reduces the right operand
    obtain ⟨r', pos, hscan⟩ := scan_expr y hy' hg.2 hn.2 (pre ++ [.num a] ++ [.sym r.symbol]) R
      (by simpa using around_expr_rel r (leftSyms y.level)) (around_expr_right y.level hr)
    refine ⟨r', pos, ?_⟩
    simp only [Formula.tokens, Expr.tokens, List.append_assoc,
      List.cons_append, List.nil_append]
    rw [Arith.scanWith_cons_of_none
        (fire_eq_none (localFire_num_rel r pre a _) (connFire_rel_head r pre a hy hg.2 R)),
      Arith.scanWith_cons_of_none (fire_eq_none (localFire_logicSym r.symbol_mem _ _)
        (connFire_sym (by cases r <;> rfl) _ _)), hscan]
    simp
  | case3 r x y hx =>
    intro f' h hg hn pre R hl _
    obtain ⟨x', hx', rfl⟩ := Option.map_eq_some_iff.1 h
    obtain ⟨r', pos, hscan⟩ := scan_expr x hx' hg.1 hn.1 pre (.sym r.symbol :: (y.tokens ++ R))
      (around_expr_left x.level hl) (by simpa using around_expr_rel r (rightSyms x.level))
    refine ⟨r', pos, ?_⟩
    simp only [Formula.tokens, List.append_assoc, List.cons_append] at hscan ⊢
    exact hscan
  | case4 => simp
  | case5 f b hb =>
    rw [Formula.lit?_eq_some] at hb
    subst hb
    rintro _ ⟨⟩ - - pre R - -
    have hfire := fire_of_localFire (Arith.localFire_paren_value pre (v := .bool b) rfl R)
    exact ⟨_, _, by simpa [Formula.tokens] using Arith.scanWith_cons_of_some hfire⟩
  | case6 f hf ih =>
    intro f' h hg hn pre R _ _
    obtain ⟨f₁, h₁, rfl⟩ := Option.map_eq_some_iff.1 h
    -- inside the parentheses any formula stands between them
    obtain ⟨r, pos, hscan⟩ := ih h₁ hg hn (pre ++ [.sym "("]) (.sym ")" :: R) (by simp) (by simp)
    refine ⟨r, pos, ?_⟩
    simp only [Formula.tokens, List.cons_append, List.nil_append, List.append_assoc]
    rw [Arith.scanWith_cons_of_none
      (fire_eq_none (localFire_open pre hf hg _) (connFire_sym rfl _ _)), hscan]
    simp
  | case7 f b hb =>
    rw [Formula.lit?_eq_some] at hb
    subst hb
    rintro _ ⟨⟩ - - pre R hl -
    have hfire := fire_of_connFire (localFire_logicSym (by decide) pre _)
      (connFire_not_lit pre b R (endsOperand?_of_formulaLeft hl))
    exact ⟨_, _, by simpa [Formula.tokens] using Arith.scanWith_cons_of_some hfire⟩
  | case8 f hf ih =>
    intro f' h hg hn pre R _ hr
    obtain ⟨f₁, h₁, rfl⟩ := Option.map_eq_some_iff.1 h
    obtain ⟨hlevel, gf⟩ := hg
    obtain ⟨r, pos, hscan⟩ := ih h₁ gf hn (pre ++ [.sym "not"]) R
      (by simpa using around_formulaLeft_not hlevel) (around_formulaRight_anti hlevel hr)
    refine ⟨r, pos, ?_⟩
    simp only [Formula.tokens, List.cons_append]
    rw [Arith.scanWith_cons_of_none (fire_eq_none (localFire_logicSym (by decide) pre _)
      (connFire_not_head pre hf gf hlevel R)), hscan]
    simp
  | case9 c f g a b ha hb =>
    rw [Formula.lit?_eq_some] at ha hb
    subst ha hb
    rintro _ ⟨⟩ - - pre R hl hr
    have hfire := fire_of_connFire (localFire_bool pre a _) (connFire_conn_lit c pre a b R hl hr)
    exact ⟨_, _, by simpa [Formula.tokens] using Arith.scanWith_cons_of_some hfire⟩
  | case10 c f g a hg hf ih =>
    rw [Formula.lit?_eq_some] at hf
    subst hf
    intro f' h hgr hn pre R _ hr
    obtain ⟨g₁, h₁, rfl⟩ := Option.map_eq_some_iff.1 h
    obtain ⟨-, hglevel, -, gg⟩ := hgr
    -- the scan passes the truth value and the connective, then reduces the right operand
    have hright : g.level ≤ c.level := Nat.le_of_lt (Nat.lt_of_le_of_lt hglevel c.rightLevel_lt_level)
    obtain ⟨r, pos, hscan⟩ := ih h₁ gg hn.2 (pre ++ [.bool a] ++ [.sym c.symbol]) R
      (by simpa using around_formulaLeft_conn c hglevel) (around_formulaRight_anti hright hr)
    refine ⟨r, pos, ?_⟩
    simp only [Formula.tokens, List.append_assoc, List.cons_append,
      List.nil_append]
    rw [Arith.scanWith_cons_of_none
        (fire_eq_none (localFire_bool pre a _) (connFire_conn_head c pre a hg gg hglevel R)),
      Arith.scanWith_cons_of_none (fire_eq_none (localFire_logicSym c.symbol_mem _ _)
        (connFire_sym (by cases c <;> rfl) _ _)), hscan]
    simp
  | case11 c f g hf ih =>
    intro f' h hgr hn pre R hl _
    obtain ⟨f₁, h₁, rfl⟩ := Option.map_eq_some_iff.1 h
    obtain ⟨hflevel, -, gf, -⟩ := hgr
    obtain ⟨r, pos, hscan⟩ := ih h₁ gf hn.1 pre (.sym c.symbol :: (g.tokens ++ R))
      (around_formulaLeft_anti hflevel hl) (around_formulaRight_conn c hflevel)
    refine ⟨r, pos, ?_⟩
    simp only [Formula.tokens, List.append_assoc, List.cons_append] at hscan ⊢
    exact hscan

end Logic

end Reckon

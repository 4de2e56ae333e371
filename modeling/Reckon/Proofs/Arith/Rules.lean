import Reckon.Proofs.Rule.Attempt
import Reckon.Proofs.Arith.Expr

/-!
# The built-in rules on arithmetic

On a workspace of numbers and the symbols `( ) + - * / ^`, only seven built-in rules can fire:
the parentheses, negation and the five arithmetic operators. Every other rule's template holds
a symbol such a workspace lacks (a bracket, a word, a comparison), so it is never a candidate.
Each of the seven looks at a window of two or three tokens, the token before it and the token
after it: `parensAt`, `negateAt` and `binaryAt` say what it does there.

A pass is then a scan from the left (`Arith.scan`): the first position where one of the seven
rewrites its window (`Arith.localFire`), with the rules in registration order.
-/

namespace Reckon

namespace Arith

/-- The symbols of arithmetic. -/
def symbols : List String := ["(", ")", "+", "-", "*", "/", "^"]

/-- Whether the token can stand in arithmetic: a number or a symbol of arithmetic. -/
def isArith : Token → Bool
  | .num _ => true
  | .sym s => symbols.contains s
  | _ => false

/-- Whether the token before a position ends an operand. -/
def endsOperand? (prev : Option Token) : Bool := (prev.map Tokens.endsOperand).getD false

/-- `( v )` around one value drops the parentheses. -/
def parensAt : List Token → Option (List Token)
  | t :: v :: t' :: rest =>
    if t.isSym "(" && v.isValue && t'.isSym ")" then some (v :: rest) else none
  | _ => none

/-- `- n` negates a number, where no operand ends just before it and no power stands next to
it. -/
def negateAt (prev : Option Token) : List Token → Option (List Token)
  | t :: .num n :: rest =>
    if t.isSym "-" && !endsOperand? prev && !Library.blocks powerOps prev &&
        !Library.blocks powerOps rest.head? then some (.num n.neg :: rest)
    else none
  | _ => none

/-- `a op b` for a binary operator, where no peer claims an operand first and no tighter
operator stands next to the span. -/
def binaryAt (op : Operator) (prev : Option Token) : List Token → Option (List Token)
  | a :: t :: b :: rest =>
    let yields :=
      if op.rightAssoc then Library.blocks op.peers rest.head? else Library.blocks op.peers prev
    if Token.accepts op.operandKind a && t.isSym op.symbol && Token.accepts op.operandKind b &&
        !yields && !Library.blocks op.tighter prev && !Library.blocks op.tighter rest.head? then
      (op.eval a b).map (· :: rest)
    else none
  | _ => none

/-! The windows that cannot be rewritten, by their first tokens: only `(` opens parentheses,
only `-` a negation, and an operation needs an operand first. -/

theorem parensAt_num (a : Number) (ws : List Token) : parensAt (.num a :: ws) = none := by
  rcases ws with _ | ⟨_, _ | ⟨_, _⟩⟩ <;> simp [parensAt, Token.isSym]

theorem parensAt_sym {s : String} (hs : (s == "(") = false) (ws : List Token) :
    parensAt (.sym s :: ws) = none := by
  rcases ws with _ | ⟨_, _ | ⟨_, _⟩⟩ <;> simp [parensAt, Token.isSym, hs]

theorem negateAt_num (prev : Option Token) (a : Number) (ws : List Token) :
    negateAt prev (.num a :: ws) = none := by
  rcases ws with _ | ⟨_ | _ | _ | _ | _ | _ | _ | _ | _, _⟩ <;> simp [negateAt, Token.isSym]

theorem negateAt_sym {s : String} (hs : (s == "-") = false) (prev : Option Token)
    (ws : List Token) : negateAt prev (.sym s :: ws) = none := by
  rcases ws with _ | ⟨_ | _ | _ | _ | _ | _ | _ | _ | _, _⟩ <;> simp [negateAt, Token.isSym, hs]

theorem binaryAt_sym {op : Operator} (hk : op.operandKind = .number) (prev : Option Token)
    (s : String) (ws : List Token) : binaryAt op prev (.sym s :: ws) = none := by
  rcases ws with _ | ⟨_, _ | ⟨_, _⟩⟩ <;> simp [binaryAt, hk, Token.accepts, Token.kind]

theorem binaryAt_other {op : Operator} {s : String} (hs : (s == op.symbol) = false)
    (prev : Option Token) (a : Token) (ws : List Token) :
    binaryAt op prev (a :: .sym s :: ws) = none := by
  rcases ws with _ | ⟨_, _⟩ <;> simp [binaryAt, Token.isSym, hs]

theorem binaryAt_sym_operand {op : Operator} (hk : op.operandKind = .number)
    (prev : Option Token) (a t : Token) (s : String) (rest : List Token) :
    binaryAt op prev (a :: t :: .sym s :: rest) = none := by
  simp [binaryAt, hk, Token.accepts, Token.kind]

theorem binaryAt_tighter_after {op : Operator} {t' : Token}
    (h : Library.blocks op.tighter (some t') = true) (prev : Option Token) (a t b : Token)
    (rest : List Token) : binaryAt op prev (a :: t :: b :: t' :: rest) = none := by
  simp [binaryAt, h]

theorem binaryAt_yields_after {op : Operator} {t' : Token} (hr : op.rightAssoc = true)
    (h : Library.blocks op.peers (some t') = true) (prev : Option Token) (a t b : Token)
    (rest : List Token) : binaryAt op prev (a :: t :: b :: t' :: rest) = none := by
  simp [binaryAt, hr, h]

theorem negateAt_eq_none_of_endsOperand {prev : Option Token} (h : endsOperand? prev = true)
    (ws : List Token) : negateAt prev ws = none := by
  rcases ws with _ | ⟨_, _ | ⟨_ | _ | _ | _ | _ | _ | _ | _ | _, _⟩⟩ <;> simp [negateAt, h]

/-! What a window becomes when it is rewritten. -/

theorem parensAt_eq_some {w w' : List Token} (h : parensAt w = some w') :
    ∃ v rest, w = .sym "(" :: v :: .sym ")" :: rest ∧ w' = v :: rest ∧ v.isValue = true := by
  match w with
  | t :: v :: t' :: rest =>
    rw [parensAt] at h
    split at h
    · rename_i hc
      simp only [Bool.and_eq_true, Token.isSym_eq_true] at hc
      obtain ⟨⟨rfl, hv⟩, rfl⟩ := hc
      cases h
      exact ⟨v, rest, rfl, rfl, hv⟩
    · cases h
  | [] | [_] | [_, _] => simp [parensAt] at h

theorem negateAt_eq_some {prev : Option Token} {w w' : List Token} (h : negateAt prev w = some w') :
    ∃ n rest, w = .sym "-" :: .num n :: rest ∧ w' = .num n.neg :: rest ∧
      Library.blocks powerOps prev = false := by
  match w with
  | t :: .num n :: rest =>
    rw [negateAt] at h
    split at h
    · rename_i hc
      simp only [Bool.and_eq_true, Bool.not_eq_true', Token.isSym_eq_true] at hc
      obtain ⟨⟨⟨rfl, -⟩, hpow⟩, -⟩ := hc
      cases h
      exact ⟨n, rest, rfl, rfl, hpow⟩
    · cases h
  | [] | [_] | _ :: .text _ :: _ | _ :: .bool _ :: _ | _ :: .sym _ :: _ | _ :: .list _ :: _
  | _ :: .map _ :: _ | _ :: .var _ _ :: _ | _ :: .listCap _ _ :: _ | _ :: .mapCap _ _ _ :: _ =>
    simp [negateAt] at h

theorem binaryAt_eq_some {op : Operator} {prev : Option Token} {w w' : List Token}
    (h : binaryAt op prev w = some w') :
    ∃ a b v rest, w = a :: .sym op.symbol :: b :: rest ∧ w' = v :: rest ∧
      Token.accepts op.operandKind a = true ∧ Token.accepts op.operandKind b = true ∧
      op.eval a b = some v := by
  match w with
  | a :: t :: b :: rest =>
    simp only [binaryAt, Option.ite_none_right_eq_some, Bool.and_eq_true] at h
    obtain ⟨⟨⟨⟨⟨⟨ha, ht⟩, hb⟩, -⟩, -⟩, -⟩, h⟩ := h
    obtain rfl := Token.isSym_eq_true.1 ht
    obtain ⟨v, hv, rfl⟩ := Option.map_eq_some_iff.1 h
    exact ⟨a, b, v, rest, rfl, rfl, ha, hb, hv⟩
  | [] | [_] | [_, _] => simp [binaryAt] at h

/-! ### The seven rules, each at one position -/

@[simp] theorem rule_template (b : Builtin) : b.rule.template = b.template := rfl

@[simp] theorem rule_subordinateTo (b : Builtin) : b.rule.subordinateTo = b.subordinateTo := rfl

theorem rule_fire (b : Builtin) (ws : List Token) (pos : Nat) :
    b.rule.fire ws pos = (b.apply ws pos).map (.rewritten b.rule pos) := rfl

theorem attempt_parens (pre ws : List Token) :
    Library.attempt Builtin.parens.rule (pre ++ ws) pre.length =
      (parensAt ws).map fun ws' => .rewritten Builtin.parens.rule pre.length (pre ++ ws') := by
  unfold Library.attempt
  rw [Library.fits_append]
  match ws with
  | t :: v :: t' :: rest =>
    simp only [Builtin.rule, Builtin.template, Builtin.anyVar, Library.fits_cons_cons,
      Library.fitsToken_sym, Library.fitsToken_var _ (by decide : Kind.any ≠ .symbol),
      Library.fits_nil, Bool.and_true, List.isEmpty_cons, Bool.false_or, parensAt]
    simp only [Token.accepts, beq_self_eq_true, if_true]
    by_cases hC : (t.isSym "(" && v.isValue && t'.isSym ")") = true
    · rw [if_pos (by simpa only [Bool.and_assoc] using hC), if_pos hC]
      simp only [Rule.eligible, Builtin.subordinateTo, List.isEmpty_nil, Bool.true_or, if_true,
        Rule.fire, Builtin.apply, Template.firstMatch_append]
      rw [Template.firstMatch_zero (by simp [Builtin.template]) (by simp [Builtin.template])]
      simp only [Bool.and_eq_true] at hC
      simp [Pattern.matchAll_cons, Pattern.matchOne_sym,
        Pattern.matchOne_var_fresh "X" .any v [] rfl, hC, Token.accepts, Builtin.template,
        Builtin.anyVar, Tokens.splice_append]
    · rw [if_neg (by simpa only [Bool.and_assoc] using hC), if_neg hC]
      rfl
  | [] | [_] | [_, _] => simp [Library.fits, Builtin.rule, Builtin.template, parensAt]

theorem attempt_negate (pre ws : List Token) :
    Library.attempt Builtin.negate.rule (pre ++ ws) pre.length =
      (negateAt pre.getLast? ws).map
        fun ws' => .rewritten Builtin.negate.rule pre.length (pre ++ ws') := by
  unfold Library.attempt
  rw [Library.fits_append]
  match ws with
  | t :: x :: rest =>
    simp only [rule_template, Builtin.template, Library.fits_cons_cons, Library.fitsToken_sym,
      Library.fitsToken_var _ (by decide : Kind.number ≠ .symbol), Library.fits_nil,
      Bool.and_true, List.isEmpty_cons, Bool.false_or]
    by_cases hC : (t.isSym "-" && Token.accepts .number x) = true
    · obtain ⟨ht, hx⟩ := Bool.and_eq_true_iff.1 hC
      obtain ⟨n, rfl⟩ : ∃ n, x = .num n := by
        cases x <;> simp_all [Token.accepts, Token.kind]
      rw [if_pos hC]
      simp only [Library.eligible_append Builtin.negate.rule pre (t :: .num n :: rest)
        (by simp [Builtin.template]), rule_fire, Builtin.apply, Template.firstMatch_append]
      rw [Template.firstMatch_zero (by simp [Builtin.template]) (by simp [Builtin.template])]
      simp [Pattern.matchAll_cons, Pattern.matchOne_sym,
        Pattern.matchOne_var_fresh "X" .number (.num n) [] rfl, ht, Token.accepts, Token.kind,
        Builtin.template, Tokens.splice_append, negateAt, endsOperand?,
        Builtin.subordinateTo, powerOps, ← List.head?_eq_getElem?]
      have hprev : (0 < pre.length ∧ (Option.map Tokens.endsOperand
          (pre ++ t :: Token.num n :: rest)[pre.length - 1]?).getD false = true) ↔
          (Option.map Tokens.endsOperand pre.getLast?).getD false = true :=
        @Library.before_append pre (t :: .num n :: rest)
          (fun o => (o.map Tokens.endsOperand).getD false) rfl
      simp only [hprev]
      by_cases hE : (Option.map Tokens.endsOperand pre.getLast?).getD false = true <;>
        simp [hE]
    · rw [if_neg hC]
      cases x <;> simp_all [negateAt, Token.accepts, Token.kind]
  | [] | [_] => simp [Library.fits, Builtin.rule, Builtin.template, negateAt]

theorem operandKind_ne_symbol (op : Operator) : op.operandKind ≠ .symbol := by
  cases op <;> decide

theorem attempt_binary (op : Operator) (pre ws : List Token) :
    Library.attempt (Builtin.binary op).rule (pre ++ ws) pre.length =
      (binaryAt op pre.getLast? ws).map
        fun ws' => .rewritten (Builtin.binary op).rule pre.length (pre ++ ws') := by
  unfold Library.attempt
  rw [Library.fits_append]
  match ws with
  | a :: t :: b :: rest =>
    simp only [rule_template, Builtin.template, Library.fits_cons_cons, Library.fitsToken_sym,
      Library.fitsToken_var _ (operandKind_ne_symbol op), Library.fits_nil,
      Bool.and_true, List.isEmpty_cons, Bool.false_or]
    by_cases hC : (Token.accepts op.operandKind a && (t.isSym op.symbol &&
        Token.accepts op.operandKind b)) = true
    · obtain ⟨ha, ht, hb⟩ : Token.accepts op.operandKind a = true ∧ t.isSym op.symbol = true ∧
          Token.accepts op.operandKind b = true := by simpa using hC
      rw [if_pos hC]
      simp only [Library.eligible_append (Builtin.binary op).rule pre (a :: t :: b :: rest)
        (by simp [Builtin.template]), rule_fire, Builtin.apply, Template.firstMatch_append]
      rw [Template.firstMatch_zero (by simp [Builtin.template]) (by simp [Builtin.template])]
      simp [Pattern.matchAll_cons, Pattern.matchOne_sym,
        Pattern.matchOne_var_fresh "A" op.operandKind a [] rfl,
        Pattern.matchOne_var_fresh "B" op.operandKind b [("A", a)] rfl, ha, ht, hb,
        Builtin.template, Tokens.splice_append, binaryAt, Builtin.subordinateTo,
        ← List.head?_eq_getElem?, Library.blocks_eq, Library.after_append,
        Library.before_append pre _ (Library.blocks_none op.peers)]
      have hB : List.lookup "B" [("A", a), ("B", b)] = some b := rfl
      simp only [hB, Option.bind_some]
      by_cases hT : Library.blocks op.tighter pre.getLast? = false ∧
          Library.blocks op.tighter rest.head? = false
      · obtain ⟨h1, h2⟩ := hT
        cases op.rightAssoc <;> cases op.eval a b <;>
          cases Library.blocks op.peers pre.getLast? <;> cases Library.blocks op.peers rest.head? <;>
          simp [h1, h2]
      · rw [if_neg hT, if_neg (fun h => hT ⟨h.1.2, h.2⟩)]
        rfl
    · rw [if_neg hC]
      simp only [binaryAt]
      rw [if_neg fun h => hC (by
        simp only [Bool.and_eq_true] at h ⊢
        exact ⟨h.1.1.1.1.1, h.1.1.1.1.2, h.1.1.1.2⟩)]
      rfl
  | [] | [_] | [_, _] => simp [Library.fits, Builtin.rule, Builtin.template, binaryAt]

/-! ### A pass over arithmetic -/

/-- The seven rules that rewrite arithmetic, in registration order. -/
def arithRules : List Builtin :=
  [.parens, .negate, .binary .power, .binary .times, .binary .divide, .binary .plus, .binary .minus]

/-- What the rule `b` makes of the window at the start of `ws`, after the token `prev`. -/
def rewriteWindow (prev : Option Token) (ws : List Token) : Builtin → Option (List Token)
  | .parens => parensAt ws
  | .negate => negateAt prev ws
  | .binary op => binaryAt op prev ws
  | _ => none

/-- The first of the seven rules that rewrites the window at the start of `ws`, after the
tokens `pre`, as a firing on the whole workspace. -/
def localFire (pre ws : List Token) : Option Firing :=
  arithRules.findSome? fun b =>
    (rewriteWindow pre.getLast? ws b).map fun ws' => .rewritten b.rule pre.length (pre ++ ws')

/-- The first firing of a pass at the positions of `ws`, after the tokens `pre`. -/
def scan (pre : List Token) : List Token → Option Firing
  | [] => none
  | t :: ws => (localFire pre (t :: ws)).or (scan (pre ++ [t]) ws)

/-- The first firing of a pass at the positions of `ws` after the tokens `pre`, where `F` says
what fires at one position: `scan` is the one of `localFire`, and a pass over a larger language
is one with more rules. -/
def scanWith (F : List Token → List Token → Option Firing) (pre : List Token) :
    List Token → Option Firing
  | [] => none
  | t :: ws => (F pre (t :: ws)).or (scanWith F (pre ++ [t]) ws)

theorem scan_eq_scanWith (pre ws : List Token) : scan pre ws = scanWith localFire pre ws := by
  induction ws generalizing pre with
  | nil => rfl
  | cons t ws ih => simp only [scan, scanWith, ih]

/-- Whether the rule's template holds a symbol that arithmetic lacks. -/
def foreign (b : Builtin) : Bool :=
  b.template.any fun t => match t with
    | .sym s => !symbols.contains s
    | _ => false

theorem attempt_foreign {pre ws : List Token} (hws : ∀ t ∈ ws, isArith t = true) {b : Builtin}
    (hb : foreign b = true) : Library.attempt b.rule (pre ++ ws) pre.length = none := by
  obtain ⟨t, ht, hs⟩ := List.any_eq_true.1 hb
  cases t with
  | sym s =>
    refine Library.attempt_eq_none_of_sym ht pre ws fun hmem => ?_
    have := hws _ hmem
    simp_all [isArith]
  | _ => simp at hs

theorem findSome?_attempt (pre ws : List Token) (hws : ∀ t ∈ ws, isArith t = true) :
    Library.builtins.rules.findSome? (Library.attempt · (pre ++ ws) pre.length) =
      localFire pre ws := by
  simp (disch := decide) only [Library.builtins, Builtin.rules, List.map_cons, List.map_nil,
    List.findSome?_cons, List.findSome?_nil, attempt_foreign hws, attempt_parens,
    attempt_negate, attempt_binary .power, attempt_binary .times, attempt_binary .divide,
    attempt_binary .plus, attempt_binary .minus, localFire, arithRules, rewriteWindow]

theorem firing?_scanWith {lib : Library} {P : Token → Prop}
    {F : List Token → List Token → Option Firing}
    (hF : ∀ pre ws, (∀ t ∈ ws, P t) →
      lib.rules.findSome? (Library.attempt · (pre ++ ws) pre.length) = F pre ws)
    (ws : List Token) (hws : ∀ t ∈ ws, P t) : lib.firing? ws = scanWith F [] ws := by
  rw [Library.firing?_eq, List.range_eq_range']
  -- the positions still to try are those of `ws` after the prefix `pre`
  suffices h : ∀ pre, (∀ t ∈ ws, P t) →
      (List.range' pre.length ws.length).findSome?
        (fun pos => lib.rules.findSome? (Library.attempt · (pre ++ ws) pos)) =
        scanWith F pre ws from h [] hws
  clear hws
  induction ws with
  | nil => intro pre _; rfl
  | cons t ws ih =>
    intro pre hall
    have hrest : ∀ t ∈ ws, P t := fun t' h => hall t' (List.mem_cons_of_mem _ h)
    have hsplit : pre ++ t :: ws = (pre ++ [t]) ++ ws := by simp
    rw [List.length_cons, List.range'_succ, List.findSome?_cons, hF pre _ hall,
      scanWith, hsplit, ← ih (pre ++ [t]) hrest, List.length_append, List.length_singleton]
    cases F pre (t :: ws) <;> rfl

theorem firing?_builtins (ws : List Token) (hws : ∀ t ∈ ws, isArith t = true) :
    Library.builtins.firing? ws = scan [] ws := by
  rw [firing?_scanWith (fun pre ws h => findSome?_attempt pre ws h) ws hws, scan_eq_scanWith]

end Arith

end Reckon

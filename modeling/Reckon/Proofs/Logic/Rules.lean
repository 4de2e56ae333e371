import Reckon.Proofs.Arith.Scan
import Reckon.Proofs.Logic.Formula

/-!
# The built-in rules on formulas

On a workspace of numbers, truth values, the symbols of arithmetic, the comparisons and the words
`not`, `and` and `or`, sixteen built-in rules can fire: the seven of arithmetic, the six
comparisons, `not` and the two connectives. Every other rule's template holds a symbol such a
workspace lacks. The comparisons and connectives rewrite their window as `binaryAt` says; `not`
negates a truth value where no operand ends just before it (`notAt`).

A pass is then the scan from the left with `Logic.fire`: at each position, the rules of
arithmetic first, then those of comparisons and connectives (`Logic.firing?_builtins`).
-/

namespace Reckon

namespace Logic

open Arith (localFire endsOperand? parensAt negateAt binaryAt scanWith)

/-- The symbols of comparisons and connectives. -/
def logicSyms : List String := comparisonOps ++ ["not", "and", "or"]

theorem logicSyms_inert : logicSyms.all Arith.inert = true := by
  decide

/-- Whether the token can stand in a formula: a number, a truth value, or a symbol of
arithmetic, of a comparison or of a connective. -/
def isLogic : Token → Bool
  | .num _ | .bool _ => true
  | .sym s => (Arith.symbols ++ logicSyms).contains s
  | _ => false

/-- `not b` negates a truth value, where no operand ends just before it. -/
def notAt (prev : Option Token) : List Token → Option (List Token)
  | t :: .bool b :: rest =>
    if t.isSym "not" && !endsOperand? prev then some (.bool (!b) :: rest) else none
  | _ => none

theorem attempt_not (pre ws : List Token) :
    Library.attempt Builtin.logicalNot.rule (pre ++ ws) pre.length =
      (notAt pre.getLast? ws).map
        fun ws' => .rewritten Builtin.logicalNot.rule pre.length (pre ++ ws') := by
  unfold Library.attempt
  rw [Library.fits_append]
  rcases ws with _ | ⟨t, _ | ⟨x, rest⟩⟩
  · simp [Library.fits, Builtin.rule, Builtin.template, notAt]
  · simp [Library.fits, Builtin.rule, Builtin.template, notAt]
  simp only [Arith.rule_template, Builtin.template, Library.fits_cons_cons, Library.fitsToken_sym,
    Library.fitsToken_var _ (by decide : Kind.bool ≠ .symbol), Library.fits_nil, Bool.and_true,
    List.isEmpty_cons, Bool.false_or]
  by_cases hC : (t.isSym "not" && Token.accepts .bool x) = true
  · obtain ⟨ht, hx⟩ := Bool.and_eq_true_iff.1 hC
    obtain ⟨b, rfl⟩ : ∃ b, x = .bool b := by
      cases x <;> simp_all [Token.accepts, Token.kind]
    rw [if_pos hC]
    simp only [Library.eligible_append Builtin.logicalNot.rule pre (t :: .bool b :: rest)
      (by simp [Builtin.template]), Arith.rule_fire, Builtin.apply, Template.firstMatch_append]
    rw [Template.firstMatch_zero (by simp [Builtin.template]) (by simp [Builtin.template])]
    simp [Pattern.matchAll_cons, Pattern.matchOne_sym,
      Pattern.matchOne_var_fresh "X" .bool (.bool b) [] rfl, ht, Token.accepts, Token.kind,
      Builtin.template, Tokens.splice_append, notAt, endsOperand?, Builtin.subordinateTo]
    -- the rule sees the token before its position, which is the last one of `pre`
    have hprev : (0 < pre.length ∧ (Option.map Tokens.endsOperand
        (pre ++ t :: Token.bool b :: rest)[pre.length - 1]?).getD false = true) ↔
        (Option.map Tokens.endsOperand pre.getLast?).getD false = true :=
      @Library.before_append pre (t :: .bool b :: rest)
        (fun o => (o.map Tokens.endsOperand).getD false) rfl
    simp only [hprev]
    by_cases hE : (Option.map Tokens.endsOperand pre.getLast?).getD false = true <;>
      simp [hE]
  · rw [if_neg hC]
    cases x <;> simp_all [notAt, Token.accepts, Token.kind]

/-- The rules of comparisons and connectives, in registration order. -/
def logicRules : List Builtin :=
  [.binary .equal, .binary .notEqual, .binary .less, .binary .greater, .binary .atMost,
    .binary .atLeast, .logicalNot, .binary .and, .binary .or]

/-- What a rule of comparisons or connectives makes of the window at the start of `ws`, after
the token `prev`. -/
def logicWindow (prev : Option Token) (ws : List Token) : Builtin → Option (List Token)
  | .logicalNot => notAt prev ws
  | .binary op => binaryAt op prev ws
  | _ => none

/-- The first rule of comparisons and connectives that rewrites the window at the start of `ws`,
after the tokens `pre`, as a firing on the whole workspace. -/
def connFire (pre ws : List Token) : Option Firing :=
  logicRules.findSome? fun b =>
    (logicWindow pre.getLast? ws b).map fun ws' => .rewritten b.rule pre.length (pre ++ ws')

/-- What a pass over a formula fires at one position: a rule of arithmetic, or else one of
comparisons and connectives. -/
def fire (pre ws : List Token) : Option Firing := (localFire pre ws).or (connFire pre ws)

/-- Whether the rule's template holds a symbol that formulas lack. -/
def foreign (b : Builtin) : Bool :=
  b.template.any fun t => match t with
    | .sym s => !(Arith.symbols ++ logicSyms).contains s
    | _ => false

theorem attempt_foreign {pre ws : List Token} (hws : ∀ t ∈ ws, isLogic t = true) {b : Builtin}
    (hb : foreign b = true) : Library.attempt b.rule (pre ++ ws) pre.length = none := by
  obtain ⟨t, ht, hs⟩ := List.any_eq_true.1 hb
  cases t with
  | sym s =>
    refine Library.attempt_eq_none_of_sym ht pre ws fun hmem => ?_
    have := hws _ hmem
    simp_all [isLogic]
  | _ => simp at hs

theorem findSome?_cons_eq_or {α β : Type} (f : α → Option β) (a : α) (l : List α) :
    (a :: l).findSome? f = (f a).or (l.findSome? f) := by
  rw [List.findSome?_cons]
  cases f a <;> rfl

theorem findSome?_attempt (pre ws : List Token) (hws : ∀ t ∈ ws, isLogic t = true) :
    Library.builtins.rules.findSome? (Library.attempt · (pre ++ ws) pre.length) = fire pre ws := by
  simp (disch := decide) only [Library.builtins, Builtin.rules, List.map_cons, List.map_nil,
    findSome?_cons_eq_or, List.findSome?_nil, attempt_foreign hws, Arith.attempt_parens,
    Arith.attempt_negate, Arith.attempt_binary, attempt_not, fire, localFire, Arith.arithRules,
    Arith.rewriteWindow, connFire, logicRules, logicWindow, Option.none_or, Option.or_assoc,
    Option.or_none]

theorem firing?_builtins (ws : List Token) (hws : ∀ t ∈ ws, isLogic t = true) :
    Library.builtins.firing? ws = scanWith fire [] ws :=
  Arith.firing?_scanWith (fun pre ws h => findSome?_attempt pre ws h) ws hws

end Logic

end Reckon

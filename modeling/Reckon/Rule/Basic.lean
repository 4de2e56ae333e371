import Reckon.Pattern.Substitute

/-!
# Rules

A rule rewrites a workspace at a position. It has a name, under which it is listed and
traced; a template, the shape of the tokens it starts matching at the position; and a set of
operator symbols it is subordinate to: it does not fire right beneath one of them, so that a
tighter operator is reduced first. The built-in rules are fixed behaviours; a user rule
rewrites the span its template matches into its replacement, with the bindings substituted
and the result reduced on its own first.

The binary operators come in groups from the tightest to the loosest: powers, products, sums,
comparisons, `and`, `or`. Word aliases belong to the group of the symbol they stand for.
-/

namespace Reckon

/-- The operators of the power group. -/
def powerOps : List String := ["^", "to"]

/-- The operators of the product group. -/
def productOps : List String :=
  ["*", "/", "times", "multiply", "multiplied", "divide", "divided", "over"]

/-- The operators of the sum group. -/
def sumOps : List String := ["+", "-", "plus", "minus"]

/-- The comparison operators. -/
def comparisonOps : List String := ["==", "!=", "<", ">", "<=", ">="]

/-- The binary operators of the built-in rules. -/
inductive Operator where
  | power
  | times
  | divide
  | plus
  | minus
  | equal
  | notEqual
  | less
  | greater
  | atMost
  | atLeast
  | and
  | or
  deriving DecidableEq, Repr

namespace Operator

/-- The symbol of an operator. -/
def symbol : Operator → String
  | .power => "^"
  | .times => "*"
  | .divide => "/"
  | .plus => "+"
  | .minus => "-"
  | .equal => "=="
  | .notEqual => "!="
  | .less => "<"
  | .greater => ">"
  | .atMost => "<="
  | .atLeast => ">="
  | .and => "and"
  | .or => "or"

/-- The operators that bind as tightly as this one. -/
def peers : Operator → List String
  | .power => powerOps
  | .times | .divide => productOps
  | .plus | .minus => sumOps
  | .equal | .notEqual | .less | .greater | .atMost | .atLeast => comparisonOps
  | .and => ["and"]
  | .or => ["or"]

/-- The operators that bind more tightly: the rule does not fire beneath them. -/
def tighter : Operator → List String
  | .power => []
  | .times | .divide => powerOps
  | .plus | .minus => powerOps ++ productOps
  | .equal | .notEqual | .less | .greater | .atMost | .atLeast => powerOps ++ productOps ++ sumOps
  | .and => powerOps ++ productOps ++ sumOps ++ comparisonOps
  | .or => powerOps ++ productOps ++ sumOps ++ comparisonOps ++ ["and"]

/-- Whether the operator groups to the right: only the power does. -/
def rightAssoc : Operator → Bool
  | .power => true
  | _ => false

/-- The category of the operands. -/
def operandKind : Operator → Kind
  | .equal | .notEqual => .any
  | .and | .or => .bool
  | _ => .number

/-- The value of `a op b`, or none when the operation has no result. -/
def eval (op : Operator) (a b : Token) : Option Token :=
  match op, a, b with
  | .power, .num x, .num y => (x.pow y).toOption.map .num
  | .times, .num x, .num y => some (.num (x.mul y))
  | .divide, .num x, .num y => (x.quo y).toOption.map .num
  | .plus, .num x, .num y => some (.num (x.add y))
  | .minus, .num x, .num y => some (.num (x.sub y))
  | .equal, a, b => some (.bool (a.equal b))
  | .notEqual, a, b => some (.bool !(a.equal b))
  | .less, .num x, .num y => some (.bool (x.compare y < 0))
  | .greater, .num x, .num y => some (.bool (x.compare y > 0))
  | .atMost, .num x, .num y => some (.bool (x.compare y ≤ 0))
  | .atLeast, .num x, .num y => some (.bool (x.compare y ≥ 0))
  | .and, .bool x, .bool y => some (.bool (x && y))
  | .or, .bool x, .bool y => some (.bool (x || y))
  | _, _, _ => none

end Operator

/-- The fixed behaviours of the built-in rules. -/
inductive Builtin where
  /-- `( X )` around one value drops the parentheses. -/
  | parens
  /-- `[ a , b ]` and `[ a , b ... L ]` over values fold into a list. -/
  | listFold
  /-- `{ k : v , ... }` and `{ k : v ... M }` over values fold into a map. -/
  | mapFold
  /-- A word operator becomes its symbol. -/
  | alias (words : List String) (target : String)
  /-- `- n` negates a number where no operand ends just before it. -/
  | negate
  /-- `A op B` for a binary operator. -/
  | binary (op : Operator)
  /-- `not b` negates a boolean where no operand ends just before it. -/
  | logicalNot
  /-- `if c then A else B` with a boolean `c` chooses a branch. -/
  | conditional
  /-- `get K from M` looks a key up in a map. -/
  | lookup

/-- What a rule does when it fires. -/
inductive Action where
  | builtin (b : Builtin)
  | rewrite (replacement : List Token)

/-- A rewrite rule. -/
structure Rule where
  name : String
  template : List Token
  subordinateTo : List String
  action : Action

namespace Rule

/-- The replacement of a user rule; a built-in rule has none. -/
def replacement? (r : Rule) : Option (List Token) :=
  match r.action with
  | .rewrite repl => some repl
  | .builtin _ => none

/-- The rule under another name. -/
def renamed (r : Rule) (name : String) : Rule := { r with name := name }

end Rule

end Reckon

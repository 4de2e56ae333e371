import Reckon.Rule.Basic

/-!
# The built-in rules

Every session starts with these rules, in this order: parentheses, list and map folding, the
word aliases, negation, the binary operators from the tightest to the loosest with `not`
before `and`, the conditional and the map lookup.

A left-grouping binary operator does not fire when a peer operator stands just before its
left operand, and the right-grouping power does not fire when a peer stands just after its
right operand: the peer claims that operand first. Negation and `not` do not fire right after
the end of an operand (a value or a closing bracket), where the minus is a subtraction.

The conditional `if c then A else B` looks for the `else` that belongs to it, skipping
brackets and nested conditionals. The else-branch ends, outside brackets and nested
conditionals, at a `,`, `...`, `:`, `then` or `else`, at a bracket that closes an enclosing
structure, or at the end of the workspace. The chosen branch replaces the whole conditional,
in parentheses when it has more than one token; an empty branch leaves the conditional as
it is.
-/

namespace Reckon

namespace Tokens

/-- The workspace with the span `[start, stop)` replaced by `repl`. -/
def splice (ws : List Token) (start stop : Nat) (repl : List Token) : List Token :=
  ws.take start ++ repl ++ ws.drop stop

/-- Whether the token opens a bracket. -/
def opens (t : Token) : Bool := t.isSym "(" || t.isSym "[" || t.isSym "\x7b"

/-- Whether the token closes a bracket. -/
def closes (t : Token) : Bool := t.isSym ")" || t.isSym "]" || t.isSym "\x7d"

/-- Whether the token ends an operand: a value or a closing bracket. -/
def endsOperand (t : Token) : Bool := t.isValue || closes t

end Tokens

namespace Builtin

/-- A variable of category `any`. -/
def anyVar (name : String) : Token := .var name .any

/-- The template of a built-in rule. -/
def template : Builtin → List Token
  | .parens => [.sym "(", anyVar "X", .sym ")"]
  | .listFold => [.sym "["]
  | .mapFold => [.sym "\x7b"]
  | .alias words _ => words.map .sym
  | .negate => [.sym "-", .var "X" .number]
  | .binary op => [.var "A" op.operandKind, .sym op.symbol, .var "B" op.operandKind]
  | .logicalNot => [.sym "not", .var "X" .bool]
  | .conditional => [.sym "if", .var "C" .bool, .sym "then"]
  | .lookup => [.sym "get", anyVar "K", .sym "from", .var "M" .map]

/-- The name of a built-in rule. -/
def name : Builtin → String
  | .parens => "()"
  | .listFold => "[]"
  | .mapFold => "\x7b\x7d"
  | .alias words _ => " ".intercalate words
  | .negate => "negate"
  | .binary op => op.symbol
  | .logicalNot => "not"
  | .conditional => "if"
  | .lookup => "get"

/-- The operators a built-in rule does not fire beneath. -/
def subordinateTo : Builtin → List String
  | .negate => powerOps
  | .binary op => op.tighter
  | _ => []

/-- The rule of a built-in behaviour. -/
def rule (b : Builtin) : Rule := ⟨b.name, b.template, b.subordinateTo, .builtin b⟩

/-- Folds the items of a list from position `i` on, after an opening bracket at `start`;
`items` holds the items folded so far. -/
def foldList (ws : List Token) (start i : Nat) (items : List Token) : Option (List Token) :=
  if i + 1 < ws.length then
    match ws.drop i with
    | t :: next :: after =>
      if t.isValue then
        let items := items ++ [t]
        if next.isSym "," then foldList ws start (i + 2) items
        else if next.isSym "]" then some (Tokens.splice ws start (i + 2) [.list items])
        else if next.isSym "..." then
          match after with
          | .list tail :: close :: _ =>
            if close.isSym "]" then some (Tokens.splice ws start (i + 4) [.list (items ++ tail)])
            else none
          | _ => none
        else none
      else none
    | _ => none
  else none
termination_by ws.length - i

/-- Folds the entries of a map from position `i` on, after an opening brace at `start`;
`entries` holds the entries folded so far. -/
def foldMap (ws : List Token) (start i : Nat) (entries : List (Token × Token)) :
    Option (List Token) :=
  if i + 3 < ws.length then
    match ws.drop i with
    | k :: colon :: v :: next :: after =>
      if k.isValue && colon.isSym ":" && v.isValue then
        let entries := entries ++ [(k, v)]
        if next.isSym "," then foldMap ws start (i + 4) entries
        else if next.isSym "\x7d" then
          some (Tokens.splice ws start (i + 4) [.map (Entries.build entries)])
        else if next.isSym "..." then
          match after with
          | .map rest :: close :: _ =>
            if close.isSym "\x7d" then
              some (Tokens.splice ws start (i + 6) [.map (Entries.merge rest (Entries.build entries))])
            else none
          | _ => none
        else none
      else none
    | _ => none
  else none
termination_by ws.length - i

/-- The position of the `else` that belongs to a then-branch starting at `i`, with the
bracket depth and the number of nested conditionals open so far. -/
def findElse (ws : List Token) (i depth nested : Nat) : Option Nat :=
  if h : i < ws.length then
    let t := ws[i]
    if Tokens.opens t then findElse ws (i + 1) (depth + 1) nested
    else if Tokens.closes t then
      if depth == 0 then none else findElse ws (i + 1) (depth - 1) nested
    else if 0 < depth then findElse ws (i + 1) depth nested
    else if t.isSym "if" then findElse ws (i + 1) depth (nested + 1)
    else if t.isSym "else" then
      if nested == 0 then some i else findElse ws (i + 1) depth (nested - 1)
    else findElse ws (i + 1) depth nested
  else none
termination_by ws.length - i

/-- The position just past an else-branch starting at `i`. -/
def branchEnd (ws : List Token) (i depth nested : Nat) : Nat :=
  if h : i < ws.length then
    let t := ws[i]
    if Tokens.opens t then branchEnd ws (i + 1) (depth + 1) nested
    else if Tokens.closes t then
      if depth == 0 then i else branchEnd ws (i + 1) (depth - 1) nested
    else if 0 < depth then branchEnd ws (i + 1) depth nested
    else if t.isSym "if" then branchEnd ws (i + 1) depth (nested + 1)
    else if t.isSym "else" && 0 < nested then branchEnd ws (i + 1) depth (nested - 1)
    else if nested == 0 && (t.isSym "," || t.isSym "..." || t.isSym ":" || t.isSym "then" ||
        t.isSym "else") then i
    else branchEnd ws (i + 1) depth nested
  else ws.length
termination_by ws.length - i

/-- The tokens of `[start, stop)`. -/
def slice (ws : List Token) (start stop : Nat) : List Token :=
  (ws.drop start).take (stop - start)

/-- The workspace after the built-in behaviour fires at `pos`, or none when it does not
apply there. -/
def apply (b : Builtin) (ws : List Token) (pos : Nat) : Option (List Token) :=
  match b with
  | .parens => do
    let bs ← Template.firstMatch b.template ws pos
    let x ← bs.lookup "X"
    some (Tokens.splice ws pos (pos + 3) [x])
  | .listFold =>
    if (ws[pos + 1]?.map (·.isSym "]")).getD false then
      some (Tokens.splice ws pos (pos + 2) [.list []])
    else foldList ws pos (pos + 1) []
  | .mapFold =>
    if (ws[pos + 1]?.map (·.isSym "\x7d")).getD false then
      some (Tokens.splice ws pos (pos + 2) [.map []])
    else foldMap ws pos (pos + 1) []
  | .alias words target => do
    let _ ← Template.firstMatch b.template ws pos
    some (Tokens.splice ws pos (pos + words.length) [.sym target])
  | .negate | .logicalNot => do
    let bs ← Template.firstMatch b.template ws pos
    if 0 < pos && (ws[pos - 1]?.map Tokens.endsOperand).getD false then none
    else
      let x ← bs.lookup "X"
      let y ← match x with
        | .num n => some (Token.num n.neg)
        | .bool v => some (Token.bool !v)
        | _ => none
      some (Tokens.splice ws pos (pos + 2) [y])
  | .binary op => do
    let bs ← Template.firstMatch b.template ws pos
    let yields :=
      if op.rightAssoc then
        (ws[pos + 3]?.map fun t => (t.symName?.map op.peers.contains).getD false).getD false
      else
        0 < pos && (ws[pos - 1]?.map fun t => (t.symName?.map op.peers.contains).getD false).getD false
    if yields then none
    else
      let r ← op.eval (← bs.lookup "A") (← bs.lookup "B")
      some (Tokens.splice ws pos (pos + 3) [r])
  | .conditional => do
    let bs ← Template.firstMatch b.template ws pos
    let thenAt := pos + 3
    let elseAt ← findElse ws thenAt 0 0
    let stop := branchEnd ws (elseAt + 1) 0 0
    let chosen ← match bs.lookup "C" with
      | some (.bool true) => some (slice ws thenAt elseAt)
      | some (.bool false) => some (slice ws (elseAt + 1) stop)
      | _ => none
    match chosen with
    | [] => none
    | [t] => some (Tokens.splice ws pos stop [t])
    | ts => some (Tokens.splice ws pos stop (.sym "(" :: ts ++ [.sym ")"]))
  | .lookup => do
    let bs ← Template.firstMatch b.template ws pos
    match bs.lookup "M", bs.lookup "K" with
    | some (.map es), some k =>
      let v ← Entries.get? es k
      some (Tokens.splice ws pos (pos + 4) [v])
    | _, _ => none

/-- The built-in rules, in the order every session registers them. -/
def rules : List Rule :=
  [Builtin.parens, .listFold, .mapFold,
    .alias ["plus"] "+", .alias ["minus"] "-", .alias ["times"] "*", .alias ["multiply"] "*",
    .alias ["multiplied", "by"] "*", .alias ["divide"] "/", .alias ["divided", "by"] "/",
    .alias ["over"] "/", .alias ["to", "the", "power", "of"] "^",
    .negate,
    .binary .power, .binary .times, .binary .divide, .binary .plus, .binary .minus,
    .binary .equal, .binary .notEqual, .binary .less, .binary .greater, .binary .atMost,
    .binary .atLeast,
    .logicalNot, .binary .and, .binary .or,
    .conditional, .lookup].map Builtin.rule

end Builtin

end Reckon

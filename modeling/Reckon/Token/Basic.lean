import Reckon.Number.Basic
import Reckon.Text.Quoted

/-!
# Tokens

A workspace of the calculator is a sequence of tokens. The values are numbers, texts,
booleans, lists and maps; symbols are operators, brackets and bare words; placeholders occur
in rule templates: a variable, which binds one value of its category, a list capture
`[H ... T]` and a map capture `{K: V ... R}`.

Equality of tokens is structural: numbers compare by value (so the exact `5` equals the real
`5`), lists element by element, maps as sets of entries whatever their order, and
placeholders by name and category. A map holds its entries in insertion order; looking a key
up finds the first entry whose key equals it.
-/

namespace Reckon

/-- The kinds of tokens. `any` is no kind of token: it is the category of a placeholder that
binds any value. -/
inductive Kind where
  | any
  | number
  | text
  | bool
  | symbol
  | list
  | map
  | var
  | listCapture
  | mapCapture
  deriving DecidableEq, Repr

namespace Kind

/-- The name of a kind, as written after a placeholder's name. -/
def name : Kind → String
  | .any => "any"
  | .number => "number"
  | .text => "text"
  | .bool => "bool"
  | .symbol => "symbol"
  | .list => "list"
  | .map => "map"
  | .var => "var"
  | .listCapture => "list-capture"
  | .mapCapture => "map-capture"

/-- All kinds, in order. -/
def all : List Kind :=
  [.any, .number, .text, .bool, .symbol, .list, .map, .var, .listCapture, .mapCapture]

/-- The kind of the given name. -/
def ofName? (s : String) : Option Kind :=
  all.find? (·.name == s)

end Kind

/-- A token of a workspace or of a rule template. -/
inductive Token where
  | num (n : Number)
  | text (s : String)
  | bool (b : Bool)
  | sym (s : String)
  | list (items : List Token)
  | map (entries : List (Token × Token))
  | var (name : String) (category : Kind)
  | listCap (head tail : Token)
  | mapCap (key value rest : Token)

namespace Token

/-- The kind of a token. -/
def kind : Token → Kind
  | .num _ => .number
  | .text _ => .text
  | .bool _ => .bool
  | .sym _ => .symbol
  | .list _ => .list
  | .map _ => .map
  | .var .. => .var
  | .listCap .. => .listCapture
  | .mapCap .. => .mapCapture

/-- Whether a token is a value: a number, text, boolean, list or map. -/
def isValue (t : Token) : Bool :=
  match t.kind with
  | .number | .text | .bool | .list | .map => true
  | _ => false

/-- Whether a token is a placeholder: a variable or a capture. -/
def isPlaceholder (t : Token) : Bool :=
  match t.kind with
  | .var | .listCapture | .mapCapture => true
  | _ => false

/-- Whether a token is the symbol `s`. -/
def isSym (t : Token) (s : String) : Bool :=
  match t with
  | .sym x => x == s
  | _ => false

/-- The name of a symbol. -/
def symName? : Token → Option String
  | .sym s => some s
  | _ => none

theorem sizeOf_fst_lt {α β : Type} [SizeOf α] [SizeOf β] {e : α × β} {es : List (α × β)}
    (h : e ∈ es) : sizeOf e.1 < sizeOf es := by
  have := List.sizeOf_lt_of_mem h
  cases e; simp at *; omega

theorem sizeOf_snd_lt {α β : Type} [SizeOf α] [SizeOf β] {e : α × β} {es : List (α × β)}
    (h : e ∈ es) : sizeOf e.2 < sizeOf es := by
  have := List.sizeOf_lt_of_mem h
  cases e; simp at *; omega

/-- Structural equality. Maps are equal when they have as many entries and each entry's key
finds, in the other map, an entry whose value is equal to its own. -/
def equal (a b : Token) : Bool :=
  match a, b with
  | .num x, .num y => x.equal y
  | .text x, .text y => x == y
  | .bool x, .bool y => x == y
  | .sym x, .sym y => x == y
  | .list xs, .list ys =>
    xs.length == ys.length && (xs.attach.zip ys.attach).all (fun p => equal p.1.1 p.2.1)
  | .map es, .map fs =>
    es.length == fs.length && es.attach.all (fun e =>
      match fs.attach.find? (fun f => equal f.1.1 e.1.1) with
      | some f => equal f.1.2 e.1.2
      | none => false)
  | .var n c, .var m d => n == m && c == d
  | .listCap h t, .listCap h' t' => equal h h' && equal t t'
  | .mapCap k v r, .mapCap k' v' r' => equal k k' && equal v v' && equal r r'
  | _, _ => false
termination_by sizeOf a + sizeOf b
decreasing_by
  all_goals simp_wf
  · have := List.sizeOf_lt_of_mem p.1.2; have := List.sizeOf_lt_of_mem p.2.2; omega
  · have := sizeOf_fst_lt f.2; have := sizeOf_fst_lt e.2; omega
  · have := sizeOf_snd_lt f.2; have := sizeOf_snd_lt e.2; omega
  all_goals omega

/-- Whether a token is, or holds inside its lists and maps, a placeholder. -/
def hasPlaceholder : Token → Bool
  | .var .. | .listCap .. | .mapCap .. => true
  | .list xs => anyItem xs
  | .map es => anyEntry es
  | _ => false
where
  /-- Whether one of the items holds a placeholder. -/
  anyItem : List Token → Bool
    | [] => false
    | x :: xs => hasPlaceholder x || anyItem xs
  /-- Whether one of the entries holds a placeholder in its key or its value. -/
  anyEntry : List (Token × Token) → Bool
    | [] => false
    | (k, v) :: es => hasPlaceholder k || hasPlaceholder v || anyEntry es

mutual
/-- The text of a token: a number in its own form, a text quoted, a list as `[a, b]`, a map as
`{k: v}`, a typed placeholder as `Name:kind`, and the captures as `[H ... T]` and
`{K: V ... R}`. -/
def render : Token → String
  | .num n => n.text
  | .text s => Text.quote s
  | .bool b => if b then "true" else "false"
  | .sym s => s
  | .list xs => "[" ++ renderItems xs ++ "]"
  | .map es => "\x7b" ++ renderEntries es ++ "\x7d"
  | .var n c => if c == .any then n else n ++ ":" ++ c.name
  | .listCap h t => "[" ++ h.render ++ " ... " ++ t.render ++ "]"
  | .mapCap k v r => "\x7b" ++ k.render ++ ": " ++ v.render ++ " ... " ++ r.render ++ "\x7d"
/-- The items of a list, separated by commas. -/
def renderItems : List Token → String
  | [] => ""
  | [x] => x.render
  | x :: xs => x.render ++ ", " ++ renderItems xs
/-- The entries of a map, separated by commas. -/
def renderEntries : List (Token × Token) → String
  | [] => ""
  | [(k, v)] => k.render ++ ": " ++ v.render
  | (k, v) :: es => k.render ++ ": " ++ v.render ++ ", " ++ renderEntries es
end

/-- Whether the variable `name:category` may bind `t`: a placeholder of category `any` binds
any value, and any other binds the tokens of its kind. -/
def accepts (category : Kind) (t : Token) : Bool :=
  if category == .any then t.isValue else t.kind == category

end Token

/-! ### Token sequences: workspaces, templates and replacements -/

namespace Tokens

/-- The tokens' texts separated by single spaces. -/
def render (ts : List Token) : String :=
  " ".intercalate (ts.map Token.render)

/-- Whether two sequences have the same length and equal tokens at each position. -/
def equal : List Token → List Token → Bool
  | [], [] => true
  | a :: as, b :: bs => a.equal b && equal as bs
  | _, _ => false

/-- The symbols that directly surround the span `[start, stop)`: the symbol just before it,
if `start` is a position after the first, then the symbol at `stop`, if there is one. -/
def enclosing (ts : List Token) (start stop : Int) : List Token :=
  let before :=
    if 0 < start && start ≤ ts.length then
      match ts[(start - 1).toNat]? with
      | some (.sym s) => [Token.sym s]
      | _ => []
    else []
  let after :=
    if 0 ≤ stop then
      match ts[stop.toNat]? with
      | some (.sym s) => [Token.sym s]
      | _ => []
    else []
  before ++ after

end Tokens

end Reckon

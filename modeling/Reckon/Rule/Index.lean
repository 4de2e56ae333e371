import Reckon.Token.Basic

/-!
# The template index

Rules are screened by a trie keyed by the shape of their templates. Every template token is one
segment of the rule's path (`Segment.ofTemplate`): a symbol is the segment of that symbol, an
untyped placeholder the segment of any value, and a typed placeholder, a capture or a literal
the segment of its kind. A rule is stored, by its registration id, at the node where its path
ends (`Trie.insert`).

A lookup at a position walks the workspace from there (`Trie.lookup`). From each node of the
frontier it follows every segment the token at hand carries (`Segment.ofSubject`): a symbol
carries its own segment, a value the segment of its kind and that of any value, and any other
token the segment of its kind. It collects the rules of every node it reaches, the root
included, and sorts their ids.
-/

namespace Reckon

/-- The shape of one token, as seen by the candidate screen. -/
inductive Segment where
  | sym (s : String)
  | kind (k : Kind)
  | anyValue
  deriving DecidableEq

namespace Segment

/-- The segment of a template token. -/
def ofTemplate : Token → Segment
  | .sym s => .sym s
  | .var _ c => if c == .any then .anyValue else .kind c
  | .listCap .. => .kind .list
  | .mapCap .. => .kind .map
  | t => .kind t.kind

/-- The segments a workspace token satisfies. -/
def ofSubject (t : Token) : List Segment :=
  match t with
  | .sym s => [.sym s]
  | _ => if t.isValue then [.kind t.kind, .anyValue] else [.kind t.kind]

end Segment

/-- A node of the index: the ids of the rules whose template ends here, and a child per
segment. -/
inductive Trie where
  | node (rules : List Nat) (children : List (Segment × Trie))

namespace Trie

def empty : Trie := .node [] []

def rules : Trie → List Nat
  | .node rs _ => rs

def children : Trie → List (Segment × Trie)
  | .node _ cs => cs

def child? (t : Trie) (s : Segment) : Option Trie := t.children.lookup s

/-- The children with the child along `s` set to `c`, added when there was none. -/
def setChild : List (Segment × Trie) → Segment → Trie → List (Segment × Trie)
  | [], s, c => [(s, c)]
  | (s', c') :: cs, s, c => if s' = s then (s, c) :: cs else (s', c') :: setChild cs s c

/-- Stores `id` at the end of the path, making the nodes missing on the way. -/
def insert : Trie → List Segment → Nat → Trie
  | t, [], id => .node (t.rules ++ [id]) t.children
  | t, s :: path, id =>
    .node t.rules (setChild t.children s (insert ((t.child? s).getD empty) path id))

/-- The nodes reached from the frontier along a token with the segments `segs`. -/
def step (segs : List Segment) (frontier : List Trie) : List Trie :=
  frontier.flatMap fun n => segs.filterMap n.child?

/-- The ids at the nodes a walk from the frontier reaches, level by level. The walk stops at the
end of the workspace or when the frontier is empty. -/
def walk : List Trie → List Token → List Nat
  | [], _ => []
  | _, [] => []
  | frontier, t :: ts =>
    let next := step (Segment.ofSubject t) frontier
    next.flatMap rules ++ walk next ts

def insertId (n : Nat) : List Nat → List Nat
  | [] => [n]
  | m :: ms => if n ≤ m then n :: m :: ms else m :: insertId n ms

/-- Ids in ascending order, by insertion. -/
def sortIds : List Nat → List Nat
  | [] => []
  | n :: ns => insertId n (sortIds ns)

/-- The ids, in ascending order, of the rules the index offers at `pos`. -/
def lookup (root : Trie) (ws : List Token) (pos : Nat) : List Nat :=
  sortIds (root.rules ++ walk [root] (ws.drop pos))

end Trie

end Reckon

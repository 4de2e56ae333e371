import Reckon.Rule.Builtin
import Reckon.Rule.Index

/-!
# Rule libraries

A library holds rules in registration order. Its template index holds each rule under its
registration id, inserted in the order of registration (`Library.index`). The candidates at a
position are the rules the index offers there, in registration order (`Library.candidates`).
The index screens by shape only: a template has the shape of the workspace at a position when
each of its tokens accepts, by segment, the workspace token it lies over (`Library.fits`).
Whether a candidate fires is for the rule to decide.

An operator is infix in a library when some rule's template has at least three tokens and
starts with a placeholder followed by that operator.
-/

namespace Reckon

/-- Rules in registration order. -/
structure Library where
  rules : List Rule

namespace Library

/-- The library of the built-in rules. -/
def builtins : Library := ⟨Builtin.rules⟩

/-- The library with `r` registered after every other rule. -/
def register (lib : Library) (r : Rule) : Library := ⟨lib.rules ++ [r]⟩

/-- Whether the template has the shape of the workspace `ws` at `pos`. -/
def fits (tmpl ws : List Token) (pos : Nat) : Bool :=
  tmpl.length + pos ≤ ws.length &&
    (tmpl.zip (ws.drop pos)).all fun (p, t) => (Segment.ofSubject t).contains (Segment.ofTemplate p)

/-- The index after every rule is registered, in order: the rule registered `i`-th has id `i`. -/
def index (lib : Library) : Trie :=
  lib.rules.zipIdx.foldl (fun t p => t.insert (p.1.template.map Segment.ofTemplate) p.2) .empty

/-- The rules the index offers at `pos`, in registration order. -/
def candidates (lib : Library) (ws : List Token) (pos : Nat) : List Rule :=
  (lib.index.lookup ws pos).filterMap (lib.rules[·]?)

/-- Whether some rule uses `op` as a binary operator. -/
def isInfix (lib : Library) (op : String) : Bool :=
  lib.rules.any fun r =>
    match r.template with
    | p :: t :: _ :: _ => p.isPlaceholder && t.isSym op
    | _ => false

end Library

namespace Rule

/-- Whether the rule may fire at `pos`: no symbol directly around the span it would rewrite is
one it is subordinate to. -/
def eligible (r : Rule) (ws : List Token) (pos : Nat) : Bool :=
  r.subordinateTo.isEmpty ||
    (Tokens.enclosing ws pos (min (pos + r.template.length) ws.length)).all fun t =>
      !(t.symName?.map r.subordinateTo.contains).getD false

end Rule

end Reckon

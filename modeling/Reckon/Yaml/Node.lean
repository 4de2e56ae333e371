import Reckon.Yaml.Parser
import Reckon.Yaml.Resolve

/-!
# YAML documents as trees

The events of the first document of a stream make a tree of nodes: scalars with their tag,
text and style, sequences and mappings with their tag and children, and aliases of anchored
nodes. Every node records the line, from one, where it starts. A plain scalar without a tag
takes the tag its text resolves to, a quoted or block scalar the tag of texts.

An anchor names its node from where the node starts, so an alias inside the node refers to the
node itself. A document therefore keeps the nodes its anchors name in a table, and an alias
holds the number of its node in that table, and a number of its own that tells it apart from
every other alias of the document.

Only the first document is read; what follows its end is never parsed. An empty stream has no
document. An alias of an anchor that was never defined is an error.
-/

namespace Reckon.Yaml

/-- A node of a YAML document. -/
inductive Node where
  | scalar (tag text : String) (style : ScalarStyle) (line : Nat)
  | sequence (tag : String) (items : List Node) (line : Nat)
  | mapping (tag : String) (entries : List (Node × Node)) (line : Nat)
  /-- An alias of the anchored node numbered `target`; `id` is the alias's own number. -/
  | alias (name : String) (target id : Nat) (line : Nat)
  deriving Inhabited

namespace Node

/-- The line where the node starts, from one. -/
def line : Node → Nat
  | .scalar _ _ _ l | .sequence _ _ l | .mapping _ _ l | .alias _ _ _ l => l

end Node

/-- A document: its top node, the nodes its anchors name by number, and how many aliases it
has. -/
structure Document where
  root : Node
  anchored : Array Node
  aliases : Nat

/-- Composing: the parser, the next event if it has been read, the anchors, latest first, with
the numbers of their nodes, the anchored nodes, and how many aliases have been met. -/
structure Composer where
  parser : Parser
  pending : Option Event
  anchors : List (String × Nat)
  anchored : Array Node
  aliases : Nat

/-- Composing: a state change that may fail. -/
abbrev ComposeM := StateT Composer (Except Failure)

namespace Composer

/-- The next event, without consuming it. -/
def peek : ComposeM Event := fun c =>
  match c.pending with
  | some e => .ok (e, c)
  | none =>
    match Parser.parseEvent c.parser with
    | .ok (e, p) => .ok (e, { c with parser := p, pending := some e })
    | .error err => .error err

/-- Consumes the next event. -/
def next : ComposeM Event := do
  let e ← peek
  modify fun c => { c with pending := none }
  return e

/-- The tag of a node: an explicit tag in short form, else the default of its kind. -/
def tagOf (tag defaultTag : String) : String :=
  if tag != "" && tag != "!" then shortTag tag else defaultTag

/-- Records the start of a node with the anchor `name`, if it has one, and returns the number
its node gets in the table. -/
def opening (name : String) : ComposeM Nat := do
  let number := (← get).anchored.size
  if !name.isEmpty then
    modify fun c => { c with anchors := (name, number) :: c.anchors,
                             anchored := c.anchored.push default }
  return number

/-- Records the node of the anchor `name` under its number. -/
def anchor (name : String) (number : Nat) (n : Node) : ComposeM Unit :=
  if name.isEmpty then pure ()
  else modify fun c => { c with anchored := c.anchored.setIfInBounds number n }

/-- Fails with a document error. -/
def fail {α : Type} (what : String) : ComposeM α := fun _ => .error (.document what)

mutual

/-- A node and everything inside it. -/
def node : Nat → ComposeM Node
  | 0 => fail "document is too deeply nested"
  | n + 1 => do
    let e ← next
    let line := e.start.line + 1
    match e.kind with
    | .scalar anchorName tag text style _ _ =>
      let defaultTag :=
        if style != .plain then strTag
        else if text == "<<" then mergeTag
        else match resolve "" text with
          | .ok (t, _) => t
          | .error _ => strTag
      let nd := Node.scalar (tagOf tag defaultTag) text style line
      let number ← opening anchorName
      anchor anchorName number nd
      return nd
    | .alias name =>
      match (← get).anchors.lookup name with
      | some target =>
        let id := (← get).aliases
        modify fun c => { c with aliases := id + 1 }
        return .alias name target id line
      | none => fail ("unknown anchor '" ++ name ++ "' referenced")
    | .sequenceStart anchorName tag _ _ =>
      let number ← opening anchorName
      let items ← items n
      let nd := Node.sequence (tagOf tag seqTag) items line
      anchor anchorName number nd
      return nd
    | .mappingStart anchorName tag _ _ =>
      let number ← opening anchorName
      let entries ← entries n
      let nd := Node.mapping (tagOf tag mapTag) entries line
      anchor anchorName number nd
      return nd
    | _ => fail "attempted to go past the end of stream; corrupted value?"

/-- The items of a sequence, through its end. -/
def items : Nat → ComposeM (List Node)
  | 0 => fail "document is too deeply nested"
  | n + 1 => do
    match (← peek).kind with
    | .sequenceEnd =>
      let _ ← next
      return []
    | _ =>
      let item ← node n
      let rest ← items n
      return item :: rest

/-- The entries of a mapping, through its end. -/
def entries : Nat → ComposeM (List (Node × Node))
  | 0 => fail "document is too deeply nested"
  | n + 1 => do
    match (← peek).kind with
    | .mappingEnd =>
      let _ ← next
      return []
    | _ =>
      let k ← node n
      let v ← node n
      let rest ← entries n
      return (k, v) :: rest

end

/-- The first document of the stream, if there is one. -/
def document : ComposeM (Option Document) := do
  let fuel := (← get).parser.scanner.input.size * 4 + 16
  let _ ← next
  match (← peek).kind with
  | .documentStart _ =>
    let _ ← next
    let content ← node fuel
    let _ ← next
    let c ← get
    return some ⟨content, c.anchored, c.aliases⟩
  | _ => return none

end Composer

/-- The first document of a YAML text, if it has one. A character YAML does not allow is
refused once the reader gets to its block of the text, even past the end of the document. -/
def parseDocument (text : String) : Except Failure (Option Document) :=
  match Composer.document ⟨Parser.create text, none, [], #[], 0⟩ with
  | .ok (d, _) => .ok d
  | .error e => .error e

end Reckon.Yaml

import Reckon.Config.Basic
import Reckon.Yaml.Node
import Reckon.Yaml.Emit
import Reckon.Text.Binary

/-!
# Configurations as YAML

A configuration file is a YAML mapping with the keys `name`, `max_steps`, `dump_steps` and
`rules`; the rules are a sequence of mappings with the keys `name`, `pattern` and
`replacement`. Other keys are ignored, a null value leaves a field as it was, and an empty file
is the empty configuration.

Reading goes on past a value of the wrong type and reports every such problem with its line:
`line 1: cannot unmarshal !!str ... into int`. A text field takes the text of any scalar; the
step budget takes an integer, or a real cut to an integer; step dumping takes a truth value or
one of the old spellings `yes`, `on`, `no`, `off` and their capitalised forms. A mapping that
repeats a key is not read at all, and a field set twice is a problem. A rule that cannot be
read is left out of the rules.

An alias reads as the node its anchor names, and a problem with it names that node's line. A
merge key `<<` brings in the fields of a mapping, or of each of a sequence of mappings, that the
mapping does not set itself; a merge of anything else ends reading. A scalar tagged as binary
reads as the text that its base64 bytes spell.

Writing gives the name, the step budget and step dumping when they are set, and the rules as
a block sequence indented by four spaces, or `[]` when there are none.
-/

namespace Reckon

namespace Config

open Yaml

/-- What reading sees: the nodes that the document's anchors name, by number, and the aliases
being read, innermost first. -/
structure Reading where
  anchored : Array Node
  entered : List Nat

/-- Reading a document: the problems found so far, and the failure that ends reading. -/
abbrev DecodeM := ReaderT Reading (StateT (Array String) (Except String))

/-- Records a problem. -/
def problem (msg : String) : DecodeM Unit := fun _ ps => .ok ((), ps.push msg)

/-- Ends reading with a failure. -/
def failure {α : Type} (msg : String) : DecodeM α := fun _ _ => .error msg

/-- The text of a node in a problem: quoted, cut to seven bytes and `...` past ten bytes. -/
def shown (text : String) : String :=
  if text.utf8ByteSize ≤ 10 then " `" ++ text ++ "`"
  else
    let rec keep : Nat → List Char → Nat → List Char
      | 0, _, _ => []
      | _ + 1, [], _ => []
      | k + 1, c :: rest, used =>
        let w := c.utf8Size
        if used + w ≤ 7 then c :: keep k rest (used + w)
        else List.replicate (7 - used) '\uFFFD'
    " `" ++ String.ofList (keep 8 text.toList 0) ++ "...`"

/-- Records that a node cannot be read as `target`. -/
def typeError (n : Node) (tag target : String) : DecodeM Unit :=
  let (tag, text) := match n with
    | .scalar t text _ _ => (if t.isEmpty then tag else t, text)
    | .sequence t _ _ | .mapping t _ _ => (if t.isEmpty then tag else t, "")
    | .alias .. => (tag, "")
  let value := if tag == seqTag || tag == mapTag then "" else shown text
  problem ("line " ++ toString n.line ++ ": cannot unmarshal " ++ tag ++ value ++ " into " ++ target)

/-- The node that an alias stands for; any other node stands for itself. -/
def targetOf (n : Node) : DecodeM Node := fun r ps =>
  match n with
  | .alias _ t _ _ => .ok (r.anchored.getD t Inhabited.default, ps)
  | n => .ok (n, ps)

/-- Reads `n` with `k`: an alias as the node its anchor names, with the alias entered while
`k` reads. An alias met again while it is entered fails, since its value contains itself. -/
def through {α : Type} (n : Node) (k : Node → DecodeM α) : DecodeM α := fun r =>
  match n with
  | .alias name t id _ =>
    if r.entered.contains id then fun _ => .error ("anchor '" ++ name ++ "' value contains itself")
    else k (r.anchored.getD t Inhabited.default) { r with entered := id :: r.entered }
  | n => k n r

/-- The value of a scalar: texts as they are, binary data decoded, anything else as its tag
resolves it. -/
def scalarValue (tag text : String) : DecodeM (String × ScalarValue) :=
  if tag == strTag then pure (strTag, .str text)
  else
    match resolve tag text with
    | .ok (rtag, v) =>
      if rtag == binaryTag then
        match Text.decodeBase64 text with
        | some bytes => pure (binaryTag, .str (Text.ofUtf8 bytes))
        | none => failure "!!binary value contains invalid base64 data"
      else pure (rtag, v)
    | .error e => failure e

/-- The kind and text by which two keys are compared for repetition. -/
def keyIdentity : Node → Nat × String
  | .scalar _ text _ _ => (0, text)
  | .sequence .. => (1, "")
  | .mapping .. => (2, "")
  | .alias name _ _ _ => (3, name)

/-- Records every repeated key of a mapping; reports whether there was one. -/
def repeatedKeys (entries : List (Node × Node)) : DecodeM Bool := do
  let keys := entries.map (·.1)
  let mut found := false
  for (ki, i) in keys.zipIdx do
    for (kj, j) in keys.zipIdx do
      if i < j && keyIdentity ki == keyIdentity kj then
        let text := match kj with
          | .scalar _ t _ _ => t
          | .alias name _ _ _ => name
          | _ => ""
        problem ("line " ++ toString kj.line ++ ": mapping key " ++ Text.quote text ++
          " already defined at line " ++ toString ki.line)
        found := true
  return found

/-- Records that a mapping cannot be read as `target`, unless it repeats a key, which is
recorded instead. -/
def mappingError (n : Node) (entries : List (Node × Node)) (target : String) : DecodeM Unit := do
  if !(← repeatedKeys entries) then typeError n mapTag target

/-- A text field. `none` leaves the field as it was. -/
def readString (n : Node) : DecodeM (Option String) :=
  through n fun n => do
    match n with
    | .scalar tag text _ _ =>
      match ← scalarValue tag text with
      | (_, .null) => return none
      | (rtag, .str s) => return some (if rtag == binaryTag then s else text)
      | _ => return some text
    | .sequence .. => typeError n seqTag "string"; return none
    | .mapping _ entries _ => mappingError n entries "string"; return none
    | .alias .. => return none

/-- The integer a real is cut to, if the real is at most `2^63`; past the 64-bit range the cut
gives the least 64-bit integer. -/
def truncReal (x : Float) : Option Int :=
  match Real.toRat? x with
  | none => if x < 0 then some (-(Nat.pow 2 63)) else none
  | some q =>
    if (Nat.pow 2 63 : Rat) < q then none
    else
      let i := q.num.tdiv q.den
      if i < -(Nat.pow 2 63) || Nat.pow 2 63 ≤ i then some (-(Nat.pow 2 63)) else some i

/-- An integer field. -/
def readInt (n : Node) : DecodeM (Option Int) :=
  through n fun n => do
    match n with
    | .scalar tag text _ _ =>
      let (rtag, v) ← scalarValue tag text
      match v with
      | .null => return none
      | .int i => return some i
      | .real x =>
        match truncReal x with
        | some i => return some i
        | none => typeError n rtag "int"; return none
      | _ => typeError n rtag "int"; return none
    | .sequence .. => typeError n seqTag "int"; return none
    | .mapping _ entries _ => mappingError n entries "int"; return none
    | .alias .. => return none

/-- A truth value field; the old spellings count. -/
def readBool (n : Node) : DecodeM (Option Bool) :=
  through n fun n => do
    match n with
    | .scalar tag text _ _ =>
      let (rtag, v) ← scalarValue tag text
      match v with
      | .null => return none
      | .bool b => return some b
      | .str s =>
        if ["y", "Y", "yes", "Yes", "YES", "on", "On", "ON"].contains s then return some true
        else if ["n", "N", "no", "No", "NO", "off", "Off", "OFF"].contains s then return some false
        else typeError n rtag "bool"; return none
      | _ => typeError n rtag "bool"; return none
    | .sequence .. => typeError n seqTag "bool"; return none
    | .mapping _ entries _ => mappingError n entries "bool"; return none
    | .alias .. => return none

/-- Whether a key asks for a merge: the plain `<<`, or `<<` tagged as a merge. -/
def isMergeKey : Node → Bool
  | .scalar tag text _ _ => text == "<<" && tag == mergeTag
  | _ => false

/-- The text a key names when it is read as any value: that of a scalar whose value is a text,
and nothing for other keys. -/
def keyText (n : Node) : DecodeM (Option String) := do
  match ← targetOf n with
  | .scalar tag text _ _ =>
    if tag == strTag then return some text
    else
      match resolve tag text with
      | .ok (rtag, .str s) =>
        if rtag == binaryTag then return (Text.decodeBase64 text).map Text.ofUtf8
        else return some s
      | _ => return none
  | _ => return none

/-- The failure of a merge whose value is not a mapping or a sequence of mappings. -/
def mergeRefused {α : Type} : DecodeM α :=
  failure "map merge requires map or sequence of maps as the value"

/-- Reads the entries of a mapping into the record `a` of the type `typeName`, whose fields
`field` reads: `field name v a` reads the value `v` of the field `name` into `a`, and is `none`
when the type has no such field. A mapping that repeats a key is not read (`none`).

Keys are read as texts. A field set twice is a problem, and its second value is not read. A
merge key `<<` brings in the fields of a mapping, or of each mapping of a sequence in turn,
after the mapping's own fields. `taken` holds the names already given by the mappings that merge
this one in, if it is merged in: those fields are skipped, and the names of this mapping are
added to them. The fields brought in by a merge are thus those that neither the merging mapping
nor an earlier merged one names. -/
def readRecord {α : Type} (typeName : String) (field : String → Node → α → Option (DecodeM α)) :
    Nat → List (Node × Node) → α → Option (List String) →
      DecodeM (Option (α × Option (List String)))
  | 0, _, _, _ => failure "document is too deeply nested"
  | fuel + 1, entries, a, taken => do
    if ← repeatedKeys entries then return none
    let mut a := a
    let mut taken := taken
    let mut settled : List String := []
    let mut merged : Option Node := none
    for (k, v) in entries do
      if isMergeKey k then
        merged := some v
      else
        match ← readString k with
        | none => pure ()
        | some name =>
          if !(taken.map (·.contains name)).getD false then
            taken := taken.map (name :: ·)
            match field name v a with
            | none => pure ()
            | some reading =>
              if settled.contains name then
                problem ("line " ++ toString k.line ++ ": field " ++ name ++
                  " already set in type " ++ typeName)
              else
                settled := name :: settled
                a ← reading
    match merged with
    | none => return some (a, taken)
    | some m =>
      let mut names ← match taken with
        | some t => pure t
        | none => entries.filterMapM fun e => keyText e.1
      let sources ← match m with
        | .sequence _ items _ => pure items
        | .mapping .. | .alias .. => pure [m]
        | .scalar .. => mergeRefused
      for src in sources do
        match ← targetOf src with
        | .mapping .. =>
          let (a', names') ← through src fun t => do
            match t with
            | .mapping _ es _ =>
              match ← readRecord typeName field fuel es a (some names) with
              | some (a', some names') => return (a', names')
              | some (a', none) => return (a', names)
              | none => return (a, names)
            | _ => return (a, names)
          a := a'
          names := names'
        | _ => mergeRefused
      return some (a, taken.map fun _ => names)

/-- How a field of a configured rule reads its value. -/
def ruleField (name : String) (v : Node) (rs : RuleSpec) : Option (DecodeM RuleSpec) :=
  if name == "name" then some do
    return match ← readString v with
      | some s => { rs with name := s }
      | none => rs
  else if name == "pattern" then some do
    return match ← readString v with
      | some s => { rs with pattern := s }
      | none => rs
  else if name == "replacement" then some do
    return match ← readString v with
      | some s => { rs with replacement := s }
      | none => rs
  else none

/-- A configured rule from a mapping; `none` if the node cannot be one. -/
def readRule (fuel : Nat) (n : Node) : DecodeM (Option RuleSpec) :=
  through n fun n => do
    match n with
    | .mapping _ entries _ =>
      return (← readRecord "calc.RuleConfig" ruleField fuel entries ⟨"", "", ""⟩ none).map (·.1)
    | .scalar tag text _ _ =>
      let (rtag, v) ← scalarValue tag text
      match v with
      | .null => return none
      | _ => typeError n rtag "calc.RuleConfig"; return none
    | .sequence .. => typeError n seqTag "calc.RuleConfig"; return none
    | .alias .. => return none

/-- The rules field; `none` leaves it as it was. -/
def readRules (fuel : Nat) (n : Node) : DecodeM (Option (List RuleSpec)) :=
  through n fun n => do
    match n with
    | .sequence _ items _ =>
      let mut out := #[]
      for item in items do
        if let some r ← readRule fuel item then out := out.push r
      return some out.toList
    | .scalar tag text _ _ =>
      let (rtag, v) ← scalarValue tag text
      match v with
      | .null => return some []
      | _ => typeError n rtag "[]calc.RuleConfig"; return none
    | .mapping _ entries _ => mappingError n entries "[]calc.RuleConfig"; return none
    | .alias .. => return none

/-- How a field of a configuration reads its value. -/
def configField (fuel : Nat) (name : String) (v : Node) (c : Config) : Option (DecodeM Config) :=
  if name == "name" then some do
    return match ← readString v with
      | some s => { c with name := s }
      | none => c
  else if name == "max_steps" then some do
    return match ← readInt v with
      | some i => { c with maxSteps := i }
      | none => c
  else if name == "dump_steps" then some do
    return match ← readBool v with
      | some b => { c with dumpSteps := b }
      | none => c
  else if name == "rules" then some do
    return match ← readRules fuel v with
      | some rs => { c with rules := rs }
      | none => c
  else none

/-- A configuration from the document's top node. -/
def readConfig (fuel : Nat) (n : Node) : DecodeM Config :=
  through n fun n => do
    match n with
    | .mapping _ entries _ =>
      return match ← readRecord "calc.Config" (configField fuel) fuel entries empty none with
        | some (c, _) => c
        | none => empty
    | .scalar tag text _ _ =>
      let (rtag, v) ← scalarValue tag text
      match v with
      | .null => return empty
      | _ => typeError n rtag "calc.Config"; return empty
    | .sequence .. => typeError n seqTag "calc.Config"; return empty
    | .alias .. => return empty

/-- The configuration a YAML text holds, or the text of the first failure. An empty text is
the empty configuration. Reading nests no deeper than once per node for each alias it passes
through, which bounds the steps it needs. -/
def ofYaml (text : String) : Except String Config :=
  match parseDocument text with
  | .error e => .error e.message
  | .ok none => .ok empty
  | .ok (some d) =>
    let fuel := (d.aliases + 1) * (text.length + 2)
    match readConfig fuel d.root ⟨d.anchored, []⟩ #[] with
    | .error e => .error ("yaml: " ++ e)
    | .ok (c, problems) =>
      if problems.isEmpty then .ok c
      else .error ("yaml: unmarshal errors:\n  " ++ "\n  ".intercalate problems.toList)

/-- One `key: value` line of a mapping; a block value brings its own line ends. -/
def yamlField (indent : String) (key value : String) : String :=
  indent ++ key ++ ": " ++ value ++ (if value.endsWith "\n" then "" else "\n")

/-- The configuration as YAML. -/
def toYaml (c : Config) : String :=
  let top := yamlField "" "name" (emitString c.name 4) ++
    (if c.maxSteps == 0 then "" else yamlField "" "max_steps" (toString c.maxSteps)) ++
    (if c.dumpSteps then yamlField "" "dump_steps" "true" else "")
  let rule (r : RuleSpec) : String :=
    yamlField "    - " "name" (emitString r.name 8) ++
      yamlField "      " "pattern" (emitString r.pattern 8) ++
      yamlField "      " "replacement" (emitString r.replacement 8)
  if c.rules.isEmpty then top ++ "rules: []\n"
  else top ++ "rules:\n" ++ String.join (c.rules.map rule)

end Config

end Reckon

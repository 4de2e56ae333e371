/-!
# YAML tokens

The scanner cuts a YAML text into tokens: stream and document markers, the starts and ends of
block and flow collections, the indicators `-`, `?`, `:` and `,`, anchors, aliases, tags and
scalars. Every token carries the marks where it starts and ends.

A failure is located by a line: the line of the context mark when it is not the first line,
else the line of the problem mark when it is not the first line, else none. Marks count lines
from zero; a scanner failure names the line counted from one, a parser failure the line counted
from zero. A failure on the first line names no line at all.
-/

namespace Reckon.Yaml

/-- A position in the text: the characters before it, and its line and column, from zero. -/
structure Mark where
  index : Nat
  line : Nat
  column : Nat
  deriving Inhabited

/-- How a scalar was written. -/
inductive ScalarStyle where
  | plain
  | singleQuoted
  | doubleQuoted
  | literal
  | folded
  deriving DecidableEq, Inhabited

/-- What a token is. -/
inductive TokenKind where
  | streamStart
  | streamEnd
  | versionDirective (major minor : Nat)
  | tagDirective (handle pref : String)
  | documentStart
  | documentEnd
  | blockSequenceStart
  | blockMappingStart
  | blockEnd
  | flowSequenceStart
  | flowSequenceEnd
  | flowMappingStart
  | flowMappingEnd
  | blockEntry
  | flowEntry
  | key
  | value
  | alias (name : String)
  | anchor (name : String)
  | tag (handle suffix : String)
  | scalar (text : String) (style : ScalarStyle)
  deriving Inhabited

/-- A token and the marks where it starts and ends. -/
structure Token where
  kind : TokenKind
  start : Mark
  stop : Mark
  deriving Inhabited

namespace TokenKind

/-- Whether two token kinds are the same kind, whatever they carry. -/
def same : TokenKind → TokenKind → Bool
  | .streamStart, .streamStart | .streamEnd, .streamEnd
  | .versionDirective .., .versionDirective .. | .tagDirective .., .tagDirective ..
  | .documentStart, .documentStart | .documentEnd, .documentEnd
  | .blockSequenceStart, .blockSequenceStart | .blockMappingStart, .blockMappingStart
  | .blockEnd, .blockEnd | .flowSequenceStart, .flowSequenceStart
  | .flowSequenceEnd, .flowSequenceEnd | .flowMappingStart, .flowMappingStart
  | .flowMappingEnd, .flowMappingEnd | .blockEntry, .blockEntry | .flowEntry, .flowEntry
  | .key, .key | .value, .value | .alias _, .alias _ | .anchor _, .anchor _
  | .tag .., .tag .. | .scalar .., .scalar .. => true
  | _, _ => false

end TokenKind

/-- Why a YAML text could not be read. -/
inductive Failure where
  /-- The text holds a character that YAML does not allow. -/
  | reader (what : String)
  /-- The scanner stopped at `problem` while reading what started at `context`. -/
  | scanner (context problem : Mark) (what : String)
  /-- The parser met an unexpected token at `problem`, inside what started at `context`. -/
  | parser (context problem : Mark) (what : String)
  /-- The document is well formed but cannot be read. -/
  | document (what : String)

namespace Failure

/-- The text of a failure with the line it names, if any. -/
def located (context problem extra : Nat) (what : String) : String :=
  let line := if context ≠ 0 then context + extra else if problem ≠ 0 then problem + extra else 0
  "yaml: " ++ (if line = 0 then "" else "line " ++ toString line ++ ": ") ++ what

/-- The text of a failure. -/
def message : Failure → String
  | .reader what => "yaml: " ++ what
  | .scanner c p what => located c.line p.line 1 what
  | .parser c p what => located c.line p.line 0 what
  | .document what => "yaml: " ++ what

end Failure

end Reckon.Yaml

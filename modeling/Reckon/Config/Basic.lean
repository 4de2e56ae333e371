import Reckon.Session.Basic

/-!
# Configurations

A configuration names a calculator, may set its step budget and step dumping, and lists user
rules that every session starts with, after the built-in ones. Each configured rule is a pattern
and a replacement, as text, and an optional name under which the rule is listed and traced.

A configuration builds a session only when every rule compiles; the first rule that does not
gives the error, labelled with the rule's name, or with its quoted pattern when it has none.
-/

namespace Reckon

/-- A user rule as configured: its name (empty for none), its pattern and its replacement. -/
structure RuleSpec where
  name : String
  pattern : String
  replacement : String

/-- A calculator's configuration. A step budget of zero or less leaves the default. -/
structure Config where
  name : String
  maxSteps : Int
  dumpSteps : Bool
  rules : List RuleSpec

/-- Why a configured rule does not compile. -/
inductive ConfigError where
  /-- The pattern does not lex. -/
  | pattern (label : String) (e : LexError)
  /-- The replacement does not lex. -/
  | replacement (label : String) (e : LexError)
  /-- The rule is malformed. -/
  | malformed (label : String) (e : CompileError)

/-- The text of a configuration error. -/
def ConfigError.message : ConfigError → String
  | .pattern l e => "rule " ++ l ++ ": pattern: " ++ e.message
  | .replacement l e => "rule " ++ l ++ ": replacement: " ++ e.message
  | .malformed l e => "rule " ++ l ++ ": " ++ e.message

namespace RuleSpec

/-- The label of the rule in error messages: its name, or its quoted pattern. -/
def label (rs : RuleSpec) : String :=
  if rs.name.isEmpty then Text.quote rs.pattern else rs.name

/-- The compiled rule, listed under its configured name when it has one. -/
def compile (rs : RuleSpec) : Except ConfigError Rule :=
  match Tokens.lex rs.pattern with
  | .error e => .error (.pattern rs.label e)
  | .ok pat =>
    match Tokens.lex rs.replacement with
    | .error e => .error (.replacement rs.label e)
    | .ok repl =>
      match Rule.compile pat repl with
      | .error e => .error (.malformed rs.label e)
      | .ok r => .ok (if rs.name.isEmpty then r else r.renamed rs.name)

end RuleSpec

namespace Config

/-- The empty configuration. -/
def empty : Config := ⟨"", 0, false, []⟩

/-- The configuration that a new calculator starts from. -/
def default : Config :=
  ⟨"tcalc", defaultMaxSteps, false,
    [⟨"square", "square X", "X * X"⟩,
     ⟨"increment-empty", "increment []", "[]"⟩,
     ⟨"increment", "increment [H ... T]", "[H + 1 ... increment T]"⟩]⟩

/-- The compiled rules, in order; the first that does not compile is the error. -/
def compileRules (c : Config) : Except ConfigError (List Rule) :=
  c.rules.mapM RuleSpec.compile

/-- The settings of a session for the configuration: its budget, its step dumping, and its
compiled rules. -/
def settings (c : Config) : Except ConfigError (List Setting) := do
  let rules ← c.compileRules
  return [.maxSteps c.maxSteps, .dump c.dumpSteps, .rules rules]

/-- A fresh session with the configured rules, budget and step dumping. -/
def session (c : Config) : Except ConfigError Session :=
  Session.build <$> c.settings

end Config

end Reckon

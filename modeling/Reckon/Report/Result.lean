import Reckon.Report.Step
import Reckon.Session.Batch

/-!
# Printed answers

An answered line prints its value, the tokens' texts joined by spaces, followed by the step
count when step counts are on; a definition prints `defined: ` and the line. A failed line
prints an error block: a title, the place of the line, and for a malformed rule or an exhausted
budget a snippet and a note that spell the failure out.

    error: step budget exceeded
     --> line 3: ping
      | ping
      = 11 steps taken, limit 10; the rules may not terminate

The place is `file:line: input` for a line from a file, `line n: input` for a numbered line,
and the bare input otherwise.

The rule listing numbers the rules from one, right-aligned to the width of the count. A user rule
that was given a name of its own also shows its definition, and a rule that yields to others
lists the symbols it yields to.
-/

namespace Reckon

namespace Report

/-- The text `s` with spaces in front up to `width` characters. -/
def padLeft (width : Nat) (s : String) : String := StepLine.padLeft width s

/-- `n` and the word, in the plural unless `n` is one. -/
def counted (n : Nat) (word : String) : String :=
  toString n ++ " " ++ (if n = 1 then word else word ++ "s")

/-- An error block: the title, then the place, the snippet lines and the note when present. -/
def errorBlock (title loc : String) (lines : List String) (note : String) : String :=
  "error: " ++ title ++
    (if loc.isEmpty then "" else "\n --> " ++ loc) ++
    String.join (lines.map ("\n  | " ++ ·)) ++
    (if note.isEmpty then "" else "\n  = " ++ note) ++ "\n"

end Report

namespace SessionError

/-- The title, snippet lines and note of the error's block. -/
def block : SessionError → String × List String × String
  | .malformed e => ("malformed rule definition", [e.definition], e.reason)
  | .overBudget n l ws =>
    ("step budget exceeded", [Tokens.render ws],
      toString n ++ " steps taken, limit " ++ toString l ++ "; the rules may not terminate")
  | e => (e.message, [], "")

end SessionError

namespace LineResult

/-- Where the line came from, as shown in an error block. -/
def location (r : LineResult) : String :=
  if !r.source.isEmpty then r.source ++ ":" ++ toString r.line ++ ": " ++ r.input
  else if 0 < r.line then "line " ++ toString r.line ++ ": " ++ r.input
  else r.input

/-- The printed outcome of a line, ending in a newline. -/
def format (r : LineResult) (showSteps : Bool) : String :=
  match r.result with
  | .error e =>
    let (title, lines, note) := e.block
    Report.errorBlock title r.location lines note
  | .ok ts =>
    if r.defined then "defined: " ++ r.input ++ "\n"
    else
      Tokens.render ts ++
        (if showSteps then "  (" ++ Report.counted r.steps "step" ++ ")" else "") ++ "\n"

end LineResult

namespace Report

/-- The printed outcomes of lines, in order. -/
def results (rs : List LineResult) (showSteps : Bool) : String :=
  String.join (rs.map (·.format showSteps))

/-- One line of the rule listing. -/
def ruleLine (width i : Nat) (r : Rule) : String :=
  let definition := match r.replacement? with
    | some repl =>
      if (r.name.splitOn " = ").length > 1 then ""
      else "  " ++ Tokens.render r.template ++ " = " ++ Tokens.render repl
    | none => ""
  let below := if r.subordinateTo.isEmpty then "" else "  below " ++ " ".intercalate r.subordinateTo
  padLeft width (toString (i + 1)) ++ " | " ++ r.name ++ definition ++ below ++ "\n"

/-- The rule listing, in registration order. -/
def rules (rs : List Rule) : String :=
  let width := (toString rs.length).length
  String.join (rs.mapIdx fun i r => ruleLine width i r)

end Report

end Reckon

import Reckon.Log.Basic
import Reckon.Session.Basic

/-!
# Trace lines

A rule application is shown as one line: the step number right-aligned in four columns, a bar,
the rule's name indented two spaces per level of nesting below the top, the position and the
workspace after the rewrite:

    "   2 |   + at 0 => 2"

A step sink turns log entries whose message is `step` into such lines and hands every other
entry to an inner sink. The values of a line come from the sink's own fields followed by the
entry's, the last of a name winning: the step number, depth and position count only as
integers and are zero otherwise, and a missing rule or workspace shows as `<nil>`. The step
sink takes entries from `info` up, and below that whatever the inner sink takes; a `step` entry
never reaches the inner sink.
-/

namespace Reckon

/-- A trace line's contents. -/
structure StepLine where
  n : Int
  depth : Int
  rule : String
  pos : Int
  workspace : String

namespace StepLine

/-- The text `s` with spaces in front up to `width` characters. -/
def padLeft (width : Nat) (s : String) : String :=
  String.ofList (List.replicate (width - s.length) ' ') ++ s

/-- The trace line, ending in a newline. -/
def render (l : StepLine) : String :=
  padLeft 4 (toString l.n) ++ " | " ++
    String.join (List.replicate (l.depth - 1).toNat "  ") ++
    l.rule ++ " at " ++ toString l.pos ++ " => " ++ l.workspace ++ "\n"

/-- The line of a rule application. -/
def ofEntry (e : TraceEntry) : StepLine :=
  ⟨e.step, e.depth, e.rule, e.pos, Tokens.render e.workspace⟩

/-- The line read off log fields. -/
def ofFields (fs : Log.Fields) : StepLine :=
  let int (k : String) : Int := match fs.get? k with
    | some (.int i) => i
    | _ => 0
  let text (k : String) : String := match fs.get? k with
    | some v => v.show
    | none => "<nil>"
  ⟨int "step", int "depth", text "rule", int "pos", text "workspace"⟩

end StepLine

namespace Log

/-- The message of the entries that report a rule application. -/
def stepMessage : String := "step"

/-- The fields of the entry that reports a rule application. -/
def stepFields (e : TraceEntry) : Fields :=
  [("step", .int e.step), ("depth", .int e.depth), ("rule", .text e.rule), ("pos", .int e.pos),
    ("workspace", .text (Tokens.render e.workspace))]

/-- The entry that reports a rule application. -/
def stepEntry (e : TraceEntry) : Entry := ⟨.info, stepMessage, stepFields e⟩

/-- What a step sink writes and what it passes on, for entries logged in order through a
sink with the fields `context`, over an inner sink enabled at `inner`. -/
def routeSteps (inner : Level) (context : Fields) (entries : List Entry) :
    String × List Entry :=
  entries.foldl (fun (out, passed) e =>
    if !(e.level.atLeast .info || e.level.atLeast inner) then (out, passed)
    else if e.msg == stepMessage then
      (out ++ (StepLine.ofFields (context ++ e.fields)).render, passed)
    else if e.level.atLeast inner then (out, passed ++ [{ e with fields := context ++ e.fields }])
    else (out, passed)) ("", [])

end Log

/-- The log entry of a session event. -/
def Event.entry : Event → Log.Entry
  | .registered r => ⟨.debug, "rule registered", [("rule", .text r)]⟩
  | .step e => Log.stepEntry e
  | .lineFailed n m => ⟨.warn, "Error processing line", [("line", .int n), ("error", .text m)]⟩
  | .fileFailed p m => ⟨.error, "Error processing file", [("path", .text p), ("error", .text m)]⟩

end Reckon

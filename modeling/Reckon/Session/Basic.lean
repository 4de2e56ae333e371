import Reckon.Reduction.Basic
import Reckon.Rule.Compile

/-!
# Sessions

A session is one conversation with the calculator: a rule library, the previous answer and the
step count of the last call. A line of input either defines a rule, when it has the form
`pattern = replacement`, or is reduced to normal form.

Input that starts with an infix operator continues from the previous answer: a previous answer
of one token is put in front as it is, a longer one in parentheses, so that the new operator
cannot bind into it. A successful reduction becomes the new previous answer; a failed one
leaves it as it was.

The step count is that of the last reduction; a definition sets it to zero, and a line that
does not lex leaves it as it was.
-/

namespace Reckon

/-- The step budget of a session that sets none. -/
def defaultMaxSteps : Nat := 10000

/-- Why a line of input has no answer. -/
inductive SessionError where
  /-- The line does not lex. -/
  | lex (e : LexError)
  /-- The line defines a rule that does not compile. -/
  | malformed (e : CompileError)
  /-- The reduction passed the step budget; `workspace` is where it stopped. -/
  | overBudget (steps limit : Nat) (workspace : List Token)

/-- The text of a session error. -/
def SessionError.message : SessionError → String
  | .lex e => e.message
  | .malformed e => e.message
  | .overBudget steps limit ws =>
    "step budget exceeded: " ++ toString steps ++ " steps taken, limit " ++ toString limit ++
      ", workspace: " ++ Tokens.render ws

/-- What a session reports while it works. -/
inductive Event where
  /-- A rule was added to the library. -/
  | registered (rule : String)
  /-- A rule was applied, reported while step dumping is on. -/
  | step (entry : TraceEntry)
  /-- A line of a batch failed with the error `message`. -/
  | lineFailed (line : Nat) (message : String)
  /-- A file of lines could not be processed. -/
  | fileFailed (path message : String)

/-- The answer to one call: the result, and the events of the call in order. -/
structure Answer where
  result : Except SessionError (List Token)
  events : List Event

/-- A choice made when a session is built. -/
inductive Setting where
  /-- The step budget of each call; a budget of zero or less keeps the one before it. -/
  | maxSteps (n : Int)
  /-- Whether every rewrite step is reported. -/
  | dump (on : Bool)
  /-- Rules registered after the built-in ones; they survive a reset. -/
  | rules (rs : List Rule)

/-- The rules that settings add to the built-in ones, in the order of the settings. -/
def Setting.extra : List Setting → List Rule
  | [] => []
  | .rules rs :: ss => rs ++ extra ss
  | .maxSteps _ :: ss => extra ss
  | .dump _ :: ss => extra ss

/-- A conversation with the calculator. `base` holds the rules that survive a reset. -/
structure Session where
  base : List Rule
  library : Library
  previous : List Token
  maxSteps : Nat
  dump : Bool
  steps : Nat

namespace Session

/-- The session with another step budget; a budget of zero or less keeps the old one. -/
def withMaxSteps (s : Session) (n : Int) : Session :=
  if 0 < n then { s with maxSteps := n.toNat } else s

/-- The session with step dumping switched on or off. -/
def withDump (s : Session) (on : Bool) : Session := { s with dump := on }

/-- The session as settings find it: the built-in rules, the default budget, no dumping, and a
library that is made once all settings are in. -/
def draft : Session := ⟨Builtin.rules, ⟨[]⟩, [], defaultMaxSteps, false, 0⟩

/-- The session changed by one setting. -/
def configure (s : Session) : Setting → Session
  | .maxSteps n => s.withMaxSteps n
  | .dump on => s.withDump on
  | .rules rs => { s with base := s.base ++ rs }

/-- A fresh session: the settings in order, then a library of the rules that survive a reset,
and no previous answer. A later setting of the budget or of dumping wins. -/
def build (settings : List Setting) : Session :=
  let s := settings.foldl configure draft
  { s with library := ⟨s.base⟩ }

/-- The session's rules in registration order. -/
def rules (s : Session) : List Rule := s.library.rules

/-- The session with `r` registered after every other rule. -/
def register (s : Session) (r : Rule) : Session × Event :=
  ({ s with library := s.library.register r }, .registered r.name)

/-- The session without user rules, previous answer or step count. -/
def reset (s : Session) : Session := { s with library := ⟨s.base⟩, previous := [], steps := 0 }

/-- The previous answer as the left operand of new input. -/
def continued (s : Session) : List Token :=
  if s.previous.length = 1 then s.previous else .sym "(" :: s.previous ++ [.sym ")"]

/-- The input with the previous answer in front when it starts with an infix operator. -/
def continuing (s : Session) (ts : List Token) : List Token :=
  match ts with
  | .sym op :: _ => if !s.previous.isEmpty && s.library.isInfix op then s.continued ++ ts else ts
  | _ => ts

/-- Reduces `ts` to normal form within the step budget. -/
def evaluate (s : Session) (ts : List Token) : Answer × Session :=
  if ts.isEmpty then (⟨.ok [], []⟩, { s with steps := 0 })
  else
    let (r, p) := s.library.reduce s.maxSteps (s.continuing ts)
    let events := if s.dump then p.trace.toList.map .step else []
    let s := { s with steps := p.steps }
    if r.normal then (⟨.ok r.workspace, events⟩, { s with previous := r.workspace })
    else (⟨.error (.overBudget p.steps s.maxSteps r.workspace), events⟩, s)

/-- Compiles and registers a rule; a malformed definition leaves the library as it is. -/
def define (s : Session) (pat repl : List Token) : Answer × Session :=
  match Rule.compile pat repl with
  | .error e => (⟨.error (.malformed e), []⟩, s)
  | .ok r =>
    let (s, ev) := s.register r
    (⟨.ok [], [ev]⟩, s)

/-- One line of input: a definition is registered, anything else is reduced. A definition
answers the empty sequence. -/
def enter (s : Session) (text : String) : Answer × Session :=
  match Tokens.lex text with
  | .error e => (⟨.error (.lex e), []⟩, s)
  | .ok ts =>
    match Tokens.splitDefinition ts with
    | some (pat, repl) => define { s with steps := 0 } pat repl
    | none => s.evaluate ts

end Session

end Reckon

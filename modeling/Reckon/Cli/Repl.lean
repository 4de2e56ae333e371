import Reckon.Report.Result
import Reckon.Text.Blank

/-!
# The interactive calculator

At the prompt, a line is evaluated or defines a rule, as in a batch, and its result is printed
at once. A line starting with `:` is a command: `:quit`, `:q` and `:exit` leave, `:help` shows
the commands, `:rules` lists the rule library, `:reset` forgets the defined rules and the
previous answer, `:steps` toggles step counts after answers, and `:dump on` or `:dump off`
switches the printing of every rewrite step. Blank lines are skipped.

Every line that is not blank is kept in a history of at most a thousand lines, where a line equal
to the one before it is kept once. The history is read from a file when the calculator starts and
written back, a line each, when it ends.
-/

namespace Reckon.Cli

/-- The interactive calculator: its session, whether answers show their step counts, and the
history, oldest line first. -/
structure Repl where
  session : Session
  showSteps : Bool
  history : List String

/-- What one line of input does: the events while it runs, the text printed after them, and
whether the calculator ends. -/
structure Reply where
  events : List Event
  output : String
  quit : Bool

namespace Repl

/-- The text of `:help`. -/
def helpText : String :=
  "Enter an expression to evaluate it, or \"pattern = replacement\" to define a rule.\n" ++
  "Input starting with an operator continues from the previous answer.\n\n" ++
  "  :rules        list the rule library\n" ++
  "  :reset        forget defined rules and the previous answer\n" ++
  "  :steps        toggle step counts after each answer\n" ++
  "  :dump on|off  print every rewrite step\n" ++
  "  :help         show this help\n" ++
  "  :quit         leave\n"

/-- The line printed when the calculator starts. -/
def banner : String := "tcalc - type :help for help\n"

/-- The prompt printed before every line is read. -/
def prompt : String := "> "

/-- The most lines the history keeps. -/
def historyLimit : Nat := 1000

/-- The longest line, in bytes, that the line reader returns whole. -/
def lineLimit : Nat := 4096

/-- The history with one more line, unless it equals the last; the oldest line goes when the
history is full. -/
def remember (history : List String) (line : String) : List String :=
  if history.getLast? == some line then history
  else
    let h := history ++ [line]
    if h.length > historyLimit then h.drop 1 else h

/-- The lines of a history file, up to the first that is too long for the line reader; only the
last thousand are kept. -/
def readHistory (text : String) : List String :=
  let pieces := text.splitOn "\n"
  let complete := pieces.dropLast.map fun l =>
    if l.endsWith "\r" then (l.dropEnd 1).toString else l
  let last := match pieces.getLast? with
    | some l => if l.isEmpty then [] else [l]
    | none => []
  let lines := (complete ++ last).takeWhile fun l => l.utf8ByteSize < lineLimit
  lines.drop (lines.length - historyLimit)

/-- The history as a file: every line followed by a line feed. -/
def historyText (history : List String) : String :=
  String.join (history.map (· ++ "\n"))

/-- The text without blanks at either end. -/
def trim (s : String) : String :=
  String.ofList (((s.toList.dropWhile Text.isBlank).reverse.dropWhile Text.isBlank).reverse)

/-- The words of a text, split at blanks. -/
def fields (s : String) : List String :=
  let (words, current) := s.toList.foldl (fun (acc : List String × List Char) c =>
    if Text.isBlank c then
      if acc.2.isEmpty then acc else (acc.1 ++ [String.ofList acc.2.reverse], [])
    else (acc.1, c :: acc.2)) ([], [])
  if current.isEmpty then words else words ++ [String.ofList current.reverse]

/-- What `on` or `off` says of a switch. -/
def onOff (b : Bool) : String := if b then "on" else "off"

/-- Runs a `:` command, given as its words. -/
def command (r : Repl) (words : List String) : Reply × Repl :=
  let say := fun (text : String) (r : Repl) => (⟨[], text, false⟩, r)
  match words with
  | [] => say "" r
  | w :: rest =>
    if w == ":quit" || w == ":q" || w == ":exit" then (⟨[], "", true⟩, r)
    else if w == ":help" then say helpText r
    else if w == ":rules" then say (Report.rules r.session.rules) r
    else if w == ":reset" then say "session reset\n" { r with session := r.session.reset }
    else if w == ":steps" then
      let on := !r.showSteps
      say ("step counts " ++ onOff on ++ "\n") { r with showSteps := on }
    else if w == ":dump" then
      match rest with
      | [v] =>
        if v == "on" || v == "off" then
          say ("step dump " ++ v ++ "\n") { r with session := r.session.withDump (v == "on") }
        else say "usage: :dump on|off\n" r
      | _ => say "usage: :dump on|off\n" r
    else say ("unknown command " ++ w ++ ", type :help for help\n") r

/-- Handles a line that is not blank: a command, or input for the session. -/
def handle (r : Repl) (line : String) : Reply × Repl :=
  let trimmed := trim line
  if trimmed.startsWith ":" then r.command (fields trimmed)
  else
    let ((result, events), s) := r.session.process 0 line
    (⟨events, result.format r.showSteps, false⟩, { r with session := s })

end Repl

end Reckon.Cli

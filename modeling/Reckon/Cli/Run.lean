import Reckon.Cli.Flags
import Reckon.Cli.Help
import Reckon.Cli.Complete
import Reckon.Cli.Scripts
import Reckon.Cli.Console
import Reckon.Cli.Repl
import Reckon.Session.Input
import Reckon.Config.Load
import Reckon.Text.Binary

/-!
# A run of the command line

A run takes the arguments, the working directory and what arrives on standard input, and gives
the exit status, what was printed and logged, and the working directory after it.

The arguments are searched for the command they run first: flags before a subcommand belong to
the command above it, and the first argument that is neither a flag nor the value of one ends
the search, naming a subcommand or starting the arguments of the command found so far. The root
command evaluates its arguments, or starts the interactive calculator when there are none.

* `eval` evaluates the lines of its files and then its arguments, or standard input when it has
  neither; it prints every result, and fails with `N of M lines failed` when some line failed.
* `repl` is the interactive calculator. With `--watch` it follows the configuration file and
  starts afresh from every valid version of it.
* `rules` prints the rule library, and `init` writes the default configuration.
* `completion <shell>` prints the completion script of a shell, and the hidden request command
  answers the completion requests of those scripts.

Every command reads the configuration file first; a missing file is the empty configuration
unless it was named explicitly.

Standard input is given as timed actions: text arriving, time passing, and files of the
directory being replaced. Only the interactive calculator sees the timing: a configuration it
watches is reloaded a tenth of a second after each change, and a reload that would come after
the input has ended never happens.
-/

namespace Reckon.Cli

/-- One thing happening on the input side of a run. -/
inductive Action where
  /-- Text arrives on standard input. -/
  | send (text : String)
  /-- Time passes, in milliseconds; at most 800 count. -/
  | wait (ms : Nat)
  /-- A file of the working directory is replaced at once. -/
  | write (path content : String)

/-- What a run starts from. -/
structure World where
  args : List String
  disk : Disk
  input : List Action

/-- What a run ends with. -/
structure Outcome where
  exit : Nat
  console : Console
  disk : Disk

/-- The path of the history file, in the home directory, which is the working directory. -/
def historyPath : String := ".tcalc_history"

/-- Everything sent on standard input. -/
def sentText (input : List Action) : String :=
  String.join (input.map fun
    | .send t => t
    | _ => "")

/-- The directory after the input's file writes. -/
def applyWrites (d : Disk) (input : List Action) : Disk :=
  input.foldl (fun d a => match a with
    | .write p c => d.place p c
    | _ => d) d

/-! ### Sessions from configurations -/

/-- The configuration a command starts from. A file that does not exist is the empty
configuration, unless it was named explicitly. -/
def loadConfig (d : Disk) (o : Options) (explicit : Bool) : Except String Config :=
  if d.absent o.config && !explicit then .ok Config.empty else Config.load d o.config

/-- A session for a configuration, with the budget and step dumping of the flags. -/
def newSession (c : Config) (o : Options) : Except String Session :=
  match c.settings with
  | .error e => .error e.message
  | .ok ss =>
    .ok (Session.build (ss ++ .maxSteps o.maxSteps :: if o.dumpSteps then [.dump true] else []))

/-- Logs a configuration that cannot be loaded and ends the run with it. -/
def configFailed (c : Console) (o : Options) (e : String) : Console :=
  (c.log ⟨.error, "Failed to load configuration", [("path", .text o.config), ("error", .text e)]⟩).fail e

/-! ### Batch commands -/

/-- The lines of `eval`: its files, then its arguments, or standard input when it has neither. -/
def evalRun (s : Session) (d : Disk) (o : Options) (args : List String) (stdin : String) : Run :=
  if args.isEmpty && o.files.isEmpty then (s.processText stdin).1
  else
    let (fromFiles, s) := s.processFiles d o.files
    if fromFiles.error.isSome then fromFiles
    else
      let (fromArgs, _) := s.processBatch args false
      ⟨fromFiles.results ++ fromArgs.results, fromFiles.events ++ fromArgs.events, none⟩

/-- Evaluates lines and prints their results. -/
def evalCommand (w : World) (o : Options) (args : List String) (explicit : Bool) (c : Console) :
    Nat × Console :=
  match loadConfig w.disk o explicit with
  | .error e => (1, configFailed c o e)
  | .ok config =>
    match newSession config o with
    | .error e => (1, (c.log ⟨.error, "Failed to initialize calculator", [("error", .text e)]⟩).fail e)
    | .ok s =>
      if o.timeout ≤ 0 then (1, c.fail "tcalc timed out: context deadline exceeded")
      else
        let run := evalRun s w.disk o args (sentText w.input)
        let c := c.report run.events
        match run.error with
        | some e => (1, c.fail e)
        | none =>
          let c := c.print (Report.results run.results o.steps)
          let failed := (run.results.filter fun r => r.result matches .error _).length
          if failed == 0 then (0, c)
          else (1, c.fail (toString failed ++ " of " ++ toString run.results.length ++ " lines failed"))

/-- Prints the rule library. -/
def rulesCommand (d : Disk) (o : Options) (c : Console) : Nat × Console :=
  match loadConfig d o (o.changed "config") with
  | .error e => (1, configFailed c o e)
  | .ok config =>
    match newSession config o with
    | .error e => (1, c.fail e)
    | .ok s => (0, c.print (Report.rules s.rules))

/-- Writes the default configuration. -/
def initCommand (d : Disk) (o : Options) (c : Console) : Nat × Console × Disk :=
  let path := if o.config.isEmpty then Options.defaultConfig else o.config
  match Config.save d path Config.default with
  | .error e =>
    (1, (c.log ⟨.error, "Error initializing config file", [("error", .text e)]⟩).fail e, d)
  | .ok d => (0, c.print ("Configuration file created/updated: " ++ path ++ "\n"), d)

/-! ### The interactive calculator -/

/-- What reading a line finds: a line and the input after it, nothing yet, or the end. -/
inductive LineRead where
  | line (text : String) (rest : List UInt8)
  | blocked
  | ended

/-- Reads a line as the line reader does, byte by byte: up to a line feed, dropping a carriage
return before it; a line longer than the reader's buffer comes in pieces of the buffer's size,
cut wherever the buffer ends, and a carriage return that ends a piece waits for the next one;
the last line may lack its feed. A line is read back as text by UTF-8, so the bytes of a
character that a cut splits each read as U+FFFD. -/
def readLine (closed : Bool) : List UInt8 → List UInt8 → Nat → LineRead
  | [], acc, _ =>
    if !closed then .blocked
    else if acc.isEmpty then .ended
    else .line (Text.ofUtf8 acc.reverse) []
  | b :: rest, acc, bytes =>
    if bytes == Repl.lineLimit then
      match acc with
      | 13 :: before => .line (Text.ofUtf8 before.reverse) (13 :: b :: rest)
      | _ => .line (Text.ofUtf8 acc.reverse) (b :: rest)
    else if b == 10 then
      match acc with
      | 13 :: before => .line (Text.ofUtf8 before.reverse) rest
      | _ => .line (Text.ofUtf8 acc.reverse) rest
    else readLine closed rest (b :: acc) (bytes + 1)

/-- The interactive calculator as it runs: the calculator, the console, the directory, the flags,
the watcher if there is one, the input not read yet, whether it has ended, the time in
milliseconds, the times of the reloads to come, and the time the watcher is busy until. -/
structure Terminal where
  repl : Repl
  console : Console
  disk : Disk
  options : Options
  watcher : Option Watcher
  pending : List UInt8
  ended : Bool
  clock : Nat
  reloads : List Nat
  busy : Nat

namespace Terminal

/-- Prints text. -/
def print (t : Terminal) (text : String) : Terminal := { t with console := t.console.print text }

/-- Ends the calculator and writes the history back. -/
def finish (t : Terminal) : Terminal :=
  let disk := match t.disk.write historyPath (Repl.historyText t.repl.history) with
    | .ok d => d
    | .error _ => t.disk
  { t with disk := disk, ended := true }

/-- Handles one line read at the prompt. -/
def take (t : Terminal) (line : String) : Terminal :=
  if (Repl.trim line).isEmpty then t.print Repl.prompt
  else
    let r := { t.repl with history := Repl.remember t.repl.history line }
    let (reply, r) := r.handle line
    let t := { t with repl := r, console := (t.console.report reply.events).print reply.output }
    if reply.quit then t.finish else t.print Repl.prompt

/-- Handles every line the input holds; at the end of a closed input, ends the calculator. -/
def drain (closed : Bool) : Nat → Terminal → Terminal
  | 0, t => t
  | n + 1, t =>
    if t.ended then t
    else
      match readLine closed t.pending [] 0 with
      | .line text rest => drain closed n ({ t with pending := rest }.take text)
      | .blocked => t
      | .ended => ({ t with pending := [] }.print "\n").finish

/-- Loads the watched configuration again and, when it is valid, starts afresh from it. -/
def reload (t : Terminal) : Terminal :=
  match t.ended, t.watcher with
  | false, some w =>
    let (config, entries) := w.changed t.disk w.path
    let t := { t with console := entries.foldl Console.log t.console }
    match config with
    | none => t
    | some c =>
      match newSession c t.options with
      | .ok s =>
        { t with repl := { t.repl with session := s } }.print
          ("\nconfiguration reloaded: " ++ toString c.rules.length ++ " rules\n")
      | .error e =>
        { t with console := t.console.log ⟨.warn, "Failed to rebuild session", [("error", .text e)]⟩ }
  | _, _ => t

/-- Runs the reloads due before the present time. -/
def catchUp (t : Terminal) : Terminal :=
  let due := t.reloads.filter (· < t.clock)
  due.foldl (fun t _ => t.reload) { t with reloads := t.reloads.filter (· ≥ t.clock) }

/-- One input action. -/
def act (t : Terminal) : Action → Terminal
  | .send text =>
    let t := { t.catchUp with pending := t.catchUp.pending ++ text.toUTF8.toList }
    drain false (t.pending.length + 2) t
  | .wait ms => { t with clock := t.clock + min ms 800 }
  | .write path content =>
    let t := t.catchUp
    let t := { t with disk := t.disk.place path content }
    match t.watcher with
    | some w =>
      if !t.ended && w.watching && t.disk.absolute path == w.path then
        let due := max t.clock t.busy + 100
        { t with reloads := t.reloads ++ [due], busy := due }
      else t
    | none => t

/-- The end of the input. -/
def close (t : Terminal) : Terminal :=
  let t := t.catchUp
  drain true (t.pending.length + 2) t

/-- The outcome of a calculator that has ended. -/
def outcome (t : Terminal) : Outcome := ⟨0, t.console, t.disk⟩

end Terminal

/-- A run that has started: finished already, or the interactive calculator waiting for its
input. -/
inductive Launch where
  | finished (o : Outcome)
  | waiting (t : Terminal)

/-- Starts the interactive calculator; `explicit` tells whether the configuration was named. -/
def replCommand (w : World) (o : Options) (explicit : Bool) (c : Console) : Launch :=
  let stopped := fun (c : Console) => Launch.finished ⟨1, c, applyWrites w.disk w.input⟩
  match loadConfig w.disk o explicit with
  | .error e => stopped (configFailed c o e)
  | .ok config =>
    match newSession config o with
    | .error e => stopped (c.fail e)
    | .ok s =>
      let watcher := if o.watch then some ((Watcher.create w.disk o.config).start w.disk) else none
      match watcher with
      | some (.error e) => stopped (c.fail e)
      | _ =>
        let history := match w.disk.read historyPath with
          | .ok text => Repl.readHistory text
          | .error _ => []
        .waiting ⟨⟨s, o.steps, history⟩, c.print (Repl.banner ++ Repl.prompt), w.disk, o,
          watcher.bind (·.toOption), [], false, 0, [], 0⟩

/-! ### The run -/

/-- Runs a command whose flags are set. -/
def execute (w : World) (cmd : Command) (o : Options) (args : List String) : Launch :=
  let c := Console.create o.verbose
  let batch := fun (r : Nat × Console) => Launch.finished ⟨r.1, r.2, applyWrites w.disk w.input⟩
  if o.help then batch (0, c.print cmd.helpText)
  else
    match cmd with
    | .completion => batch (0, c.print cmd.helpText)
    | .script shell =>
      match args with
      | [] => batch (0, c.print (shell.script !o.noDescriptions))
      | arg :: _ =>
        batch (1, c.fail ("unknown command " ++ Text.quote arg ++ " for " ++ Text.quote cmd.path))
    | .request descriptions =>
      if args.isEmpty then
        batch (1, c.fail ("requires at least 1 arg(s), only received 0"))
      else batch (0, c.print (Completions.render descriptions (Completions.answer o args)))
    | .help => batch (0, c.print (Command.root.locate args).helpText)
    | .root =>
      if args.isEmpty then replCommand w o false c
      else batch (evalCommand w o args (o.changed "config") c)
    | .eval => batch (evalCommand w o args (o.changed "config") c)
    | .repl => replCommand w o (o.changed "config") c
    | .rules => batch (rulesCommand w.disk o c)
    | .init =>
      let (code, c, d) := initCommand w.disk o c
      .finished ⟨code, c, applyWrites d w.input⟩

/-- The command the arguments run, with its flags set and its plain arguments. The command
that answers completion requests takes its arguments as they are. -/
def plan (args : List String) : Except String (Command × Options × List String) := do
  let (cmd, o, rest) ← Command.descend 4 .root Options.defaults args
  if cmd.readsFlags then
    let (o, plain) ← Flags.parseAll cmd.flags o rest
    return (cmd, o, plain)
  else return (cmd, o, rest)

/-- Starts a run. Batch commands run to the end at once; the interactive calculator waits for
its input. -/
def launch (w : World) : Launch :=
  match plan w.args with
  | .error e => .finished ⟨1, (Console.create false).fail e, applyWrites w.disk w.input⟩
  | .ok (cmd, o, args) => execute w cmd o args

/-- A whole run of the command line. -/
def run (w : World) : Outcome :=
  match launch w with
  | .finished o => o
  | .waiting t => (w.input.foldl Terminal.act t).close.outcome

/-- Whether a run reads its lines from standard input as one batch: `eval` with neither
arguments nor files. -/
def readsInput (args : List String) : Bool :=
  match plan args with
  | .ok (.eval, o, []) => o.files.isEmpty && !o.help
  | _ => false

/-- The files a run may read: the configuration, the files of `eval` and the history. -/
def inputsOf (args : List String) : List String :=
  match plan args with
  | .ok (_, o, _) => [o.config, Options.defaultConfig, historyPath] ++ o.files
  | .error _ => []

end Reckon.Cli

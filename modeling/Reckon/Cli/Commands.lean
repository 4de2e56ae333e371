import Reckon.Cli.Flags

/-!
# The commands

The command line is a tree of commands. The root command evaluates its arguments or starts the
interactive calculator; below it stand `completion`, `eval`, `help`, `init`, `repl` and `rules`,
and below `completion` one command for each shell that it writes a completion script for. A
hidden command below the root answers the completion requests of those scripts: `__complete`
with descriptions, `__completeNoDesc` without. It takes its arguments as they are, flags
included.

A command knows its own flags and those of the root command; `--help` it knows only once it
runs. The arguments are searched for the command they run from the root down: flags are told
apart from their values by the flags the command at hand knows, and the first argument that is
neither names a child of that command, where the search goes on, or ends the search.
-/

namespace Reckon.Cli

/-- The shells that completion scripts are written for. -/
inductive Shell where
  | bash
  | fish
  | powershell
  | zsh
  deriving DecidableEq

/-- The name of a shell. -/
def Shell.name : Shell → String
  | .bash => "bash"
  | .fish => "fish"
  | .powershell => "powershell"
  | .zsh => "zsh"

/-- The commands of the command line. -/
inductive Command where
  | root
  | completion
  | eval
  | help
  | init
  | repl
  | rules
  /-- The command that writes the completion script of a shell. -/
  | script (shell : Shell)
  /-- The hidden command that answers a completion request, with or without descriptions. -/
  | request (descriptions : Bool)
  deriving DecidableEq

namespace Command

/-- The name of a command. -/
def name : Command → String
  | .root => "tcalc"
  | .completion => "completion"
  | .eval => "eval"
  | .help => "help"
  | .init => "init"
  | .repl => "repl"
  | .rules => "rules"
  | .script s => s.name
  | .request _ => "__complete"

/-- The line that describes a command in the lists of commands. -/
def short : Command → String
  | .root => "tcalc - a calculator built on user-extensible rewrite rules"
  | .completion => "Generate the autocompletion script for the specified shell"
  | .eval => "Evaluate expressions and rule definitions"
  | .help => "Help about any command"
  | .init => "Initialize a new calculator configuration file"
  | .repl => "Start an interactive calculator session"
  | .rules => "List the rule library in the order rules are tried"
  | .script s => "Generate the autocompletion script for " ++ s.name
  | .request _ => "Request shell completion choices for the specified command-line"

/-- The commands listed below a command, in the order of their names. -/
def children : Command → List Command
  | .root => [.completion, .eval, .help, .init, .repl, .rules]
  | .completion => [.script .bash, .script .fish, .script .powershell, .script .zsh]
  | _ => []

/-- The child of a command that an argument names; the hidden command that answers completion
requests is a child of the root. -/
def child? (c : Command) (arg : String) : Option Command :=
  match c, arg with
  | .root, "__complete" => some (.request true)
  | .root, "__completeNoDesc" => some (.request false)
  | c, arg => c.children.find? (·.name == arg)

/-- How a command is called from the shell: the names from the root down. -/
def path : Command → String
  | .root => "tcalc"
  | .script s => "tcalc completion " ++ s.name
  | c => "tcalc " ++ c.name

/-- The flags of a command's own, in the order of their names. -/
def ownFlags : Command → List Flag
  | .eval =>
    [⟨"file", some 'f', .texts, "Files of input lines to evaluate"⟩,
     ⟨"steps", none, .truth, "Show how many steps each evaluation took"⟩]
  | .repl =>
    [⟨"steps", none, .truth, "Show how many steps each evaluation took"⟩,
     ⟨"watch", some 'w', .truth, "Reload the configuration file when it changes"⟩]
  | .script _ => [⟨"no-descriptions", none, .truth, "disable completion descriptions"⟩]
  | _ => []

/-- The flags a command knows while the arguments are searched: its own and the root's. -/
def searchFlags (c : Command) : List Flag := c.ownFlags ++ Flag.global

/-- The flags a command knows when it runs: its own, the root's and `--help`. -/
def flags (c : Command) : List Flag := c.ownFlags ++ Flag.global ++ [Flag.helpFor c.name]

/-- Whether a command reads flags among its arguments; the completion request takes its
arguments as they are. -/
def readsFlags : Command → Bool
  | .request _ => false
  | _ => true

/-- The command that the names `args` lead to from `c`, skipping flags and stopping at the
first argument that names no child. -/
def locate (c : Command) : List String → Command
  | [] => c
  | arg :: rest =>
    if arg.isEmpty || arg.startsWith "-" then c.locate rest
    else
      match c.children.find? (·.name == arg) with
      | some child => child.locate rest
      | none => c

/-- Scans the arguments at the level of `c` for the name of a child: the flags before it, with
their values, the child, and the arguments after it. A flag that takes a value and is not
given one with `=` takes the next argument as its value. -/
def findChild (c : Command) : List String → List String → Bool →
    Option (List String × Command × List String)
  | [], _, _ => none
  | arg :: rest, seen, inFlag =>
    if arg.startsWith "--" && !arg.contains '=' then
      findChild c rest (arg :: seen) (!Flags.impliesValue c.searchFlags (arg.drop 2).toString)
    else if arg.startsWith "-" && !arg.contains '=' && arg.length == 2 &&
        !Flags.shortImpliesValue c.searchFlags (arg.drop 1).toString then
      findChild c rest (arg :: seen) true
    else if inFlag then findChild c rest (arg :: seen) false
    else if Flags.isFlagLike arg then findChild c rest (arg :: seen) inFlag
    else
      match c.child? arg with
      | none => none
      | some child => some (seen.reverse, child, rest)

/-- Searches the arguments for the command they run, from `c` down. The flags before each
child's name are set with the flags of the command above it. The search ends with the command,
the options set so far, and the arguments at the command's level. -/
def descend : Nat → Command → Options → List String →
    Except String (Command × Options × List String)
  | 0, c, o, args => .ok (c, o, args)
  | fuel + 1, c, o, args =>
    match c.findChild args [] false with
    | none => .ok (c, o, args)
    | some (flags, child, rest) => do
      let (o, _) ← Flags.parseAll c.searchFlags o flags
      descend fuel child o rest

end Command

end Reckon.Cli

import Reckon.Cli.Commands

/-!
# Help texts

Every command prints its help for `--help`, `-h` or `help <command>`: its description, how it is
called, its own flags and then the flags it shares with the root command. The root command and
`completion` also list their commands. The texts are fixed, since the commands and their flags
are.
-/

namespace Reckon.Cli

namespace Help

/-- The flags every command shares with the root command. -/
def globalFlags : String :=
  "  -c, --config string      Configuration file with preloaded rules (default \".tcalc.yaml\")\n" ++
  "      --dump-steps         Print every rewrite step\n" ++
  "      --max-steps int      Step budget of each input line (0 keeps the configured budget)\n" ++
  "      --timeout duration   Give up on a batch after this long (default 5m0s)\n" ++
  "  -v, --verbose            Enable development logging\n"

/-- The help of a command without subcommands: description, use, own flags, shared flags. -/
def leaf (description use ownFlags : String) : String :=
  description ++ "\n\nUsage:\n  " ++ use ++ "\n\nFlags:\n" ++ ownFlags ++ "\nGlobal Flags:\n" ++
    globalFlags

/-- The help of the root command. -/
def root : String :=
  "tcalc - a calculator built on user-extensible rewrite rules\n\n" ++
  "Usage:\n  tcalc [expression...] [flags]\n  tcalc [command]\n\n" ++
  "Available Commands:\n" ++
  "  completion  Generate the autocompletion script for the specified shell\n" ++
  "  eval        Evaluate expressions and rule definitions\n" ++
  "  help        Help about any command\n" ++
  "  init        Initialize a new calculator configuration file\n" ++
  "  repl        Start an interactive calculator session\n" ++
  "  rules       List the rule library in the order rules are tried\n\n" ++
  "Flags:\n" ++
  "  -c, --config string      Configuration file with preloaded rules (default \".tcalc.yaml\")\n" ++
  "      --dump-steps         Print every rewrite step\n" ++
  "  -h, --help               help for tcalc\n" ++
  "      --max-steps int      Step budget of each input line (0 keeps the configured budget)\n" ++
  "      --timeout duration   Give up on a batch after this long (default 5m0s)\n" ++
  "  -v, --verbose            Enable development logging\n\n" ++
  "Use \"tcalc [command] --help\" for more information about a command.\n"

/-- The help of the command that evaluates. -/
def eval : String :=
  leaf ("Evaluates each argument as one input line, in order, in a single session.\n" ++
    "Lines from --file are read first. Without arguments or files, lines are read\n" ++
    "from standard input.\n\n" ++
    "Example) tcalc eval 'double X = X * 2' 'double 21' '+ 1'")
    "tcalc eval [expression...] [flags]"
    ("  -f, --file strings   Files of input lines to evaluate\n" ++
     "  -h, --help           help for eval\n" ++
     "      --steps          Show how many steps each evaluation took\n")

/-- The help of the interactive command. -/
def repl : String :=
  leaf "Start an interactive calculator session" "tcalc repl [flags]"
    ("  -h, --help    help for repl\n" ++
     "      --steps   Show how many steps each evaluation took\n" ++
     "  -w, --watch   Reload the configuration file when it changes\n")

/-- The help of the command that writes a configuration. -/
def init : String :=
  leaf "Initialize a new calculator configuration file" "tcalc init [flags]"
    "  -h, --help   help for init\n"

/-- The help of the command that lists the rules. -/
def rules : String :=
  leaf "List the rule library in the order rules are tried" "tcalc rules [flags]"
    "  -h, --help   help for rules\n"

/-- The help of the help command. -/
def help : String :=
  leaf ("Help provides help for any command in the application.\n" ++
    "Simply type tcalc help [path to command] for full details.")
    "tcalc help [command] [flags]"
    "  -h, --help   help for help\n"

/-- The help of the command that writes completion scripts. -/
def completion : String :=
  "Generate the autocompletion script for tcalc for the specified shell.\n" ++
  "See each sub-command's help for details on how to use the generated script.\n\n" ++
  "Usage:\n  tcalc completion [command]\n\n" ++
  "Available Commands:\n" ++
  "  bash        Generate the autocompletion script for bash\n" ++
  "  fish        Generate the autocompletion script for fish\n" ++
  "  powershell  Generate the autocompletion script for powershell\n" ++
  "  zsh         Generate the autocompletion script for zsh\n\n" ++
  "Flags:\n  -h, --help   help for completion\n\nGlobal Flags:\n" ++ globalFlags ++
  "\nUse \"tcalc completion [command] --help\" for more information about a command.\n"

/-- How to load the completion script of a shell. -/
def loading : Shell → String
  | .bash =>
    "Generate the autocompletion script for the bash shell.\n\n" ++
    "This script depends on the 'bash-completion' package.\n" ++
    "If it is not installed already, you can install it via your OS's package manager.\n\n" ++
    "To load completions in your current shell session:\n\n" ++
    "\tsource <(tcalc completion bash)\n\n" ++
    "To load completions for every new session, execute once:\n\n" ++
    "#### Linux:\n\n" ++
    "\ttcalc completion bash > /etc/bash_completion.d/tcalc\n\n" ++
    "#### macOS:\n\n" ++
    "\ttcalc completion bash > $(brew --prefix)/etc/bash_completion.d/tcalc\n\n" ++
    "You will need to start a new shell for this setup to take effect."
  | .zsh =>
    "Generate the autocompletion script for the zsh shell.\n\n" ++
    "If shell completion is not already enabled in your environment you will need\n" ++
    "to enable it.  You can execute the following once:\n\n" ++
    "\techo \"autoload -U compinit; compinit\" >> ~/.zshrc\n\n" ++
    "To load completions in your current shell session:\n\n" ++
    "\tsource <(tcalc completion zsh)\n\n" ++
    "To load completions for every new session, execute once:\n\n" ++
    "#### Linux:\n\n" ++
    "\ttcalc completion zsh > \"$\x7bfpath[1]\x7d/_tcalc\"\n\n" ++
    "#### macOS:\n\n" ++
    "\ttcalc completion zsh > $(brew --prefix)/share/zsh/site-functions/_tcalc\n\n" ++
    "You will need to start a new shell for this setup to take effect."
  | .fish =>
    "Generate the autocompletion script for the fish shell.\n\n" ++
    "To load completions in your current shell session:\n\n" ++
    "\ttcalc completion fish | source\n\n" ++
    "To load completions for every new session, execute once:\n\n" ++
    "\ttcalc completion fish > ~/.config/fish/completions/tcalc.fish\n\n" ++
    "You will need to start a new shell for this setup to take effect."
  | .powershell =>
    "Generate the autocompletion script for powershell.\n\n" ++
    "To load completions in your current shell session:\n\n" ++
    "\ttcalc completion powershell | Out-String | Invoke-Expression\n\n" ++
    "To load completions for every new session, add the output of the above command\n" ++
    "to your powershell profile."

/-- The help of the command that writes a shell's completion script. Only the bash command
leaves the flags out of how it is called. -/
def script (s : Shell) : String :=
  leaf (loading s)
    ("tcalc completion " ++ s.name ++ (if s == .bash then "" else " [flags]"))
    ("  -h, --help              help for " ++ s.name ++ "\n" ++
     "      --no-descriptions   disable completion descriptions\n")

/-- The help of the hidden command that answers completion requests. -/
def request : String :=
  "__complete is a special command that is used by the shell completion logic\n" ++
  "to request completion choices for the specified command-line.\n\n" ++
  "Usage:\n  tcalc __complete [command-line]\n\n" ++
  "Aliases:\n  __complete, __completeNoDesc\n\n" ++
  "Flags:\n  -h, --help   help for __complete\n\nGlobal Flags:\n" ++ globalFlags

end Help

namespace Command

/-- The help of a command. -/
def helpText : Command → String
  | .root => Help.root
  | .eval => Help.eval
  | .repl => Help.repl
  | .init => Help.init
  | .rules => Help.rules
  | .help => Help.help
  | .completion => Help.completion
  | .script s => Help.script s
  | .request _ => Help.request

end Command

end Reckon.Cli

import Reckon.Cli.Commands

/-!
# Answering completion requests

A completion script asks for the candidates of the word being completed by running the hidden
request command with the words typed so far, the last of them that word. The answer is a list
of candidates, each with its description after a tab, and a directive for the shell: `0` lets
the shell complete file names as well, `4` forbids them.

The words before the last lead to a command as the command line would. What is completed then
depends on the word and the word before it:

* after a flag that takes a value, the flag's value, for which the program has no candidates;
* a word that starts with `-`, the names of the flags the command knows that are not given yet,
  the flags it has from the root first; a list flag may be given again;
* any other word, the names of the command's children, when no plain argument comes before it;
  `completion` and its shell commands take no arguments, and `help` takes the path of a command.

A request whose words do not lead to a command, or whose flags cannot be read, has no
candidates; one that asks for help is answered by no candidates and no file names either.
-/

namespace Reckon.Cli

/-- The answer to a completion request: the candidates, each with its description after a
tab, and the directive for the shell. -/
structure Completions where
  candidates : List String
  directive : Nat

namespace Completions

/-- The directive that forbids the shell to complete file names. -/
def noFiles : Nat := 4

/-- No candidates, and file names allowed. -/
def empty : Completions := ⟨[], 0⟩

/-- Whether one name comes before another, character by character. -/
def precedes : List Char → List Char → Bool
  | [], [] => false
  | [], _ :: _ => true
  | _ :: _, [] => false
  | a :: as, b :: bs => a < b || (a == b && precedes as bs)

/-- Inserts a flag into a list ordered by name. -/
def insertFlag (f : Flag) : List Flag → List Flag
  | [] => [f]
  | g :: gs =>
    if precedes f.name.toList g.name.toList then f :: g :: gs else g :: insertFlag f gs

/-- Flags in the order of their names. -/
def sortFlags (fs : List Flag) : List Flag := fs.foldr insertFlag []

/-- The flags a command has from the root. -/
def inherited (c : Command) : List Flag := if c == .root then [] else Flag.global

/-- The flags a command defines itself, `--help` included, in the order of their names; the
root defines those that every command has. -/
def defined (c : Command) : List Flag :=
  sortFlags ((if c == .root then Flag.global else c.ownFlags) ++ [Flag.helpFor c.name])

/-- The candidates a flag gives for a word: its long name and its one-letter name, each when
the word starts it. -/
def flagCandidates (f : Flag) (word : String) : List String :=
  let long := "--" ++ f.name
  (if long.startsWith word then [long ++ "\t" ++ f.usage] else []) ++
    match f.short with
    | some c =>
      let short := "-" ++ c.toString
      if short.startsWith word then [short ++ "\t" ++ f.usage] else []
    | none => []

/-- The names of the flags of a command that may still be given, for a word. -/
def flagNames (c : Command) (o : Options) (word : String) : List String :=
  (inherited c ++ defined c).flatMap fun f =>
    if !o.changed f.name || f.kind == .texts then flagCandidates f word else []

/-- The flag of a command that a name means: a one-letter name is looked up among the
one-letter names first. -/
def findFlag (c : Command) (name : String) : Option Flag :=
  if name.length == 1 then
    match name.toList.head? with
    | some ch => Flags.byShort c.flags ch
    | none => none
  else Flags.byName c.flags name

/-- The name of the flag a word before `=` gives: the long name after `--`, else the letter
just before `=`. -/
def nameBefore (before : String) : String :=
  if before.startsWith "--" then (before.drop 2).toString
  else match before.toList.getLast? with
    | some ch => ch.toString
    | none => ""

/-- The flag whose value is being completed, if any, the arguments without the name of that
flag, the word being completed, and whether a flag was named that the command does not know.
The flag is named in the word, as in `--flag=` or `-f=`, or is the argument before the word
when that argument is a flag without `=`; a flag that takes no value has no value to complete.
A word that starts with `-` and has no `=` is a flag's name, not a value. -/
def valueFlag (c : Command) (args : List String) (word : String) :
    Option Flag × List String × String × Bool :=
  if !c.readsFlags then (none, args, word, false)
  else if word.startsWith "-" && !word.contains '=' then (none, args, word, false)
  else
    let (named, value, withEqual) : String × String × Bool :=
      if word.startsWith "-" then
        match word.splitOn "=" with
        | before :: after => (nameBefore before, "=".intercalate after, true)
        | [] => ("", word, false)
      else ("", word, false)
    let (name, trimmed) : String × List String :=
      if !named.isEmpty then (named, args)
      else
        match args.getLast? with
        | some prev =>
          if Flags.isFlagLike prev && !prev.contains '=' then
            (nameBefore prev, args.dropLast)
          else ("", args)
        | none => ("", args)
    if name.isEmpty then (none, trimmed, value, false)
    else
      match findFlag c name with
      | none => (none, args, word, true)
      | some f =>
        if !withEqual && f.implied.isSome then (none, args, value, false)
        else (some f, trimmed, value, false)

/-- The children of a command whose names the word starts, with their descriptions. -/
def childNames (c : Command) (word : String) : List String :=
  (c.children.filter fun child => child.name.startsWith word).map
    fun child => child.name ++ "\t" ++ child.short

/-- The answer to a completion request: `args` are the words typed, the last the one being
completed, and `o` holds the flags set before the request. -/
def answer (o : Options) (args : List String) : Completions :=
  let word := args.getLast?.getD ""
  match Command.descend 4 .root o args.dropLast with
  | .error _ => empty
  | .ok (cmd, o, cargs) =>
    let (flag, cargs, word, unknown) := valueFlag cmd cargs word
    if !cmd.readsFlags then
      if word.startsWith "-" && !word.contains '=' then ⟨flagNames cmd o word, noFiles⟩
      else empty
    else
      match Flags.parseAll cmd.flags o cargs with
      | .error _ => empty
      | .ok (o, plain) =>
        let ended := match Flags.parseAll cmd.flags o (cargs ++ ["--"]) with
          | .ok (_, more) => plain.length < more.length
          | .error _ => false
        if unknown && !ended then empty
        else if o.changed "help" then ⟨[], noFiles⟩
        else if flag.isNone && word.startsWith "-" && !word.contains '=' && !ended then
          ⟨flagNames cmd o word, noFiles⟩
        else
          let (names, directive) :=
            if flag.isNone && plain.isEmpty && !cmd.children.isEmpty then
              (childNames cmd word, noFiles)
            else ([], 0)
          if flag.isSome && !ended then ⟨names, directive⟩
          else
            match cmd with
            | .completion | .script _ => ⟨names, noFiles⟩
            | .help => ⟨names ++ childNames (Command.root.locate plain) word, noFiles⟩
            | _ => ⟨names, directive⟩

/-- The text of an answer: every candidate on a line of its own, without its description when
descriptions are not wanted, then the directive after a colon. -/
def render (descriptions : Bool) (r : Completions) : String :=
  String.join (r.candidates.map fun cand =>
    let cand := if descriptions then cand else ((cand.splitOn "\t").head?.getD "")
    ((cand.splitOn "\n").head?.getD "") ++ "\n") ++
    ":" ++ toString r.directive ++ "\n"

end Completions

end Reckon.Cli

import Reckon.Cli.Values

/-!
# Flags

The command line takes flags before, between and after its arguments. A long flag is
`--name`, `--name=value` or `--name value`; a short one is `-c`, `-cvalue`, `-c=value` or
`-c value`, and short flags that take no value may be run together, as in `-vw`. A flag that
takes a truth value needs no value and then means `true`. `--` ends the flags; every argument
after it is a plain argument, and so is `-` alone.

The flags of the root command hold for every command; `--help` is known to a command only once
it runs, so it is not known while the command line is searched for a subcommand. A value the flag
cannot take is refused as `invalid argument "v" for "--name" flag: ...`.
-/

namespace Reckon.Cli

/-- The kinds of value a flag takes. -/
inductive FlagKind where
  | text
  | truth
  | integer
  | duration
  | texts
  deriving DecidableEq

/-- A flag: its long name, its one-letter name if it has one, the kind of its value, and the
line that describes it. -/
structure Flag where
  name : String
  short : Option Char
  kind : FlagKind
  usage : String

namespace Flag

/-- The value a flag takes when it is given without one: `true` for truth values. -/
def implied (f : Flag) : Option String :=
  if f.kind == .truth then some "true" else none

/-- The flag's names as messages show them. -/
def label (f : Flag) : String :=
  match f.short with
  | some c => "-" ++ c.toString ++ ", --" ++ f.name
  | none => "--" ++ f.name

/-- The flags of the root command, which hold for every command, in the order of their names. -/
def global : List Flag :=
  [⟨"config", some 'c', .text, "Configuration file with preloaded rules"⟩,
   ⟨"dump-steps", none, .truth, "Print every rewrite step"⟩,
   ⟨"max-steps", none, .integer, "Step budget of each input line (0 keeps the configured budget)"⟩,
   ⟨"timeout", none, .duration, "Give up on a batch after this long"⟩,
   ⟨"verbose", some 'v', .truth, "Enable development logging"⟩]

/-- The help flag that the command `name` has once it runs. -/
def helpFor (name : String) : Flag := ⟨"help", some 'h', .truth, "help for " ++ name⟩

end Flag

/-- The values of the flags, and the names of those that were given. -/
structure Options where
  config : String
  timeout : Int
  maxSteps : Int
  dumpSteps : Bool
  verbose : Bool
  files : List String
  steps : Bool
  watch : Bool
  noDescriptions : Bool
  help : Bool
  given : List String

namespace Options

/-- The path of the configuration file when none is given. -/
def defaultConfig : String := ".tcalc.yaml"

/-- Five minutes in nanoseconds: the default time a batch may take. -/
def defaultTimeout : Int := 300000000000

/-- Every flag at its default. -/
def defaults : Options :=
  ⟨defaultConfig, defaultTimeout, 0, false, false, [], false, false, false, false, []⟩

/-- Whether a flag was given. -/
def changed (o : Options) (name : String) : Bool := o.given.contains name

/-- The options with a flag set from its text. A list flag's first value replaces the default
and later ones add to it. -/
def set (o : Options) (f : Flag) (value : String) : Except String Options := do
  let wrap := fun (e : String) =>
    "invalid argument " ++ Text.quote value ++ " for " ++ Text.quote f.label ++ " flag: " ++ e
  let o' ← match f.name with
    | "config" => pure { o with config := value }
    | "timeout" => match Values.parseDuration value with
      | .ok d => pure { o with timeout := d }
      | .error e => throw (wrap e)
    | "max-steps" => match Values.parseInt value with
      | .ok n => pure { o with maxSteps := n }
      | .error e => throw (wrap e)
    | "file" => match Values.readCsv value with
      | .ok fs => pure { o with files := if o.changed "file" then o.files ++ fs else fs }
      | .error e => throw (wrap e)
    | name => match Values.parseBool value with
      | .ok b =>
        pure (match name with
          | "dump-steps" => { o with dumpSteps := b }
          | "verbose" => { o with verbose := b }
          | "steps" => { o with steps := b }
          | "watch" => { o with watch := b }
          | "no-descriptions" => { o with noDescriptions := b }
          | _ => { o with help := b })
      | .error e => throw (wrap e)
  return { o' with given := if o'.given.contains f.name then o'.given else o'.given ++ [f.name] }

end Options

namespace Flags

/-- The message of a help flag that is not known yet. -/
def helpRequested : String := "pflag: help requested"

/-- The flag of a long name. -/
def byName (flags : List Flag) (name : String) : Option Flag := flags.find? (·.name == name)

/-- The flag of a one-letter name. -/
def byShort (flags : List Flag) (c : Char) : Option Flag := flags.find? (·.short == some c)

/-- A long flag `--name[=value]`, taking its value from `rest` when it needs one. -/
def long (flags : List Flag) (o : Options) (arg : String) (rest : List String) :
    Except String (Options × List String) := do
  let body := (arg.drop 2).toString
  if body.isEmpty || body.startsWith "-" || body.startsWith "=" then
    throw ("bad flag syntax: " ++ arg)
  let (name, given) := match body.splitOn "=" with
    | [n] => (n, none)
    | n :: more => (n, some ("=".intercalate more))
    | [] => (body, none)
  match byName flags name with
  | none => throw (if name == "help" then helpRequested else "unknown flag: --" ++ name)
  | some f =>
    match given, f.implied, rest with
    | some v, _, _ => return (← o.set f v, rest)
    | none, some v, _ => return (← o.set f v, rest)
    | none, none, v :: more => return (← o.set f v, more)
    | none, none, [] => throw ("flag needs an argument: " ++ arg)

/-- A run of short flags `-abc`, the last of which may take its value from `rest`. -/
def shorts (flags : List Flag) : List Char → Options → List String →
    Except String (Options × List String)
  | [], o, rest => .ok (o, rest)
  | c :: more, o, rest => do
    let here := String.ofList (c :: more)
    match byShort flags c with
    | none =>
      throw (if c == 'h' then helpRequested
        else "unknown shorthand flag: " ++ Text.quoteChar c ++ " in -" ++ here)
    | some f =>
      match more, f.implied with
      | '=' :: v@(_ :: _), _ => return (← o.set f (String.ofList v), rest)
      | _, some v => shorts flags more (← o.set f v) rest
      | _ :: _, none => return (← o.set f (String.ofList more), rest)
      | [], none =>
        match rest with
        | v :: later => return (← o.set f v, later)
        | [] => throw ("flag needs an argument: " ++ Text.quoteChar c ++ " in -" ++ here)

/-- The flags among the arguments, set in order; the plain arguments are returned in order. -/
def parse (flags : List Flag) : Nat → Options → List String → List String →
    Except String (Options × List String)
  | 0, o, _, plain => .ok (o, plain.reverse)
  | _ + 1, o, [], plain => .ok (o, plain.reverse)
  | fuel + 1, o, arg :: rest, plain => do
    if arg == "--" then return (o, plain.reverse ++ rest)
    else if arg.length < 2 || !arg.startsWith "-" then parse flags fuel o rest (arg :: plain)
    else if arg.startsWith "--" then
      let (o, rest) ← long flags o arg rest
      parse flags fuel o rest plain
    else
      let (o, rest) ← shorts flags (arg.toList.drop 1) o rest
      parse flags fuel o rest plain

/-- Sets the flags among the arguments and returns the plain arguments. -/
def parseAll (flags : List Flag) (o : Options) (args : List String) :
    Except String (Options × List String) :=
  parse flags (args.length + 1) o args []

/-- Whether a flag of this long name takes no value. -/
def impliesValue (flags : List Flag) (name : String) : Bool :=
  match byName flags name with
  | some f => f.implied.isSome
  | none => false

/-- Whether the flag of this one-letter name takes no value. -/
def shortImpliesValue (flags : List Flag) (name : String) : Bool :=
  match name.toList.head? with
  | some c =>
    match byShort flags c with
    | some f => f.implied.isSome
    | none => false
  | none => false

/-- Whether an argument looks like a flag. -/
def isFlagLike (arg : String) : Bool :=
  (arg.length ≥ 3 && arg.startsWith "--") ||
    (arg.length ≥ 2 && arg.startsWith "-" && !arg.startsWith "--")

end Flags

end Reckon.Cli

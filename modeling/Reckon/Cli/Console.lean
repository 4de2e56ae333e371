import Reckon.Report.Step

/-!
# The console of a command-line run

A run writes to standard output, logs entries to standard error, and reports the error that
ends it as `Error: <message>`. The log keeps entries at `info` and above; with `--verbose` it
keeps `debug` entries too. Entries that report rule applications are not logged: they are
printed to standard output as trace lines, as soon as they happen.

The quiet log keeps the first hundred entries of each level and message and then every
hundredth, so that a long batch of failing lines does not flood it; the verbose log keeps all.
-/

namespace Reckon.Cli

/-- What a run has printed and logged so far. -/
structure Console where
  verbose : Bool
  out : String
  logs : Array Log.Entry
  counts : List ((String × String) × Nat)
  errors : Array String

namespace Console

/-- A console with nothing written. -/
def create (verbose : Bool) : Console := ⟨verbose, "", #[], [], #[]⟩

/-- The least level the log keeps. -/
def threshold (c : Console) : Log.Level := if c.verbose then .debug else .info

/-- Prints text to standard output. -/
def print (c : Console) (text : String) : Console := { c with out := c.out ++ text }

/-- Whether the `n`-th entry of a level and message is kept by the quiet log. -/
def sampled (n : Nat) : Bool := n ≤ 100 || (n - 100) % 100 == 0

/-- Logs an entry, if the log keeps it. -/
def log (c : Console) (e : Log.Entry) : Console :=
  if !e.level.atLeast c.threshold then c
  else if c.verbose then { c with logs := c.logs.push e }
  else
    let key := (e.level.name, e.msg)
    let n := (c.counts.lookup key).getD 0 + 1
    let counts := (key, n) :: c.counts.filter (·.1 != key)
    if sampled n then { c with logs := c.logs.push e, counts := counts }
    else { c with counts := counts }

/-- A text as a JSON string. -/
def jsonString (s : String) : String :=
  let hex := fun (v : Nat) =>
    String.ofList ((List.range 4).reverse.map fun k =>
      let d := v / Nat.pow 16 k % 16
      if d < 10 then Char.ofNat (48 + d) else Char.ofNat (87 + d))
  "\"" ++ String.join (s.toList.map fun c =>
    if c == '"' then "\\\"" else if c == '\\' then "\\\\"
    else if c == '\n' then "\\n" else if c == '\r' then "\\r" else if c == '\t' then "\\t"
    else if c.toNat < 0x20 then "\\u" ++ hex c.toNat
    else c.toString) ++ "\""

/-- A log entry as one line of JSON. -/
def jsonLine (e : Log.Entry) : String :=
  let value := fun (v : Log.Value) => match v with
    | .text s => jsonString s
    | v => v.show
  let fields := e.fields.map fun (k, v) => jsonString k ++ ":" ++ value v
  "\x7b" ++ ",".intercalate ((jsonString "level" ++ ":" ++ jsonString e.level.name) ::
    (jsonString "msg" ++ ":" ++ jsonString e.msg) :: fields) ++ "\x7d"

/-- Reports session events: rule applications are printed as trace lines, the rest logged. -/
def report (c : Console) (events : List Event) : Console :=
  events.foldl (fun c ev =>
    let (text, passed) := Log.routeSteps c.threshold [] [ev.entry]
    passed.foldl log (c.print text)) c

/-- Reports the error that ends the run. -/
def fail (c : Console) (msg : String) : Console := { c with errors := c.errors.push msg }

/-- The lines of standard error that carry the errors. -/
def errorLines (c : Console) : List String :=
  c.errors.toList.flatMap fun m =>
    (("Error: " ++ m).splitOn "\n").filter (·.startsWith "Error: ")

end Console

end Reckon.Cli

import Reckon.Real.Shortest

/-!
# Log entries

The calculator reports what it does as log entries: a level, a message and named fields. Four
levels are ordered `debug < info < warn < error`, and a sink that is enabled at a level takes the
entries at that level and above.

A field holds an integer, a real, a text or a truth value. Where a field is looked up by name
among several, the last field of that name wins, as in a map filled in order.
-/

namespace Reckon.Log

/-- The severity of a log entry. -/
inductive Level where
  | debug
  | info
  | warn
  | error
  deriving DecidableEq, Repr

namespace Level

/-- The position of a level in the order of severity. -/
def rank : Level → Nat
  | .debug => 0
  | .info => 1
  | .warn => 2
  | .error => 3

/-- The lower-case name of a level. -/
def name : Level → String
  | .debug => "debug"
  | .info => "info"
  | .warn => "warn"
  | .error => "error"

/-- The level of a lower-case name. -/
def ofName? (s : String) : Option Level :=
  [Level.debug, .info, .warn, .error].find? (·.name == s)

/-- Whether a sink enabled at `threshold` takes entries at `l`. -/
def atLeast (l threshold : Level) : Bool := threshold.rank ≤ l.rank

end Level

/-- The value of a field. -/
inductive Value where
  | int (i : Int)
  | real (x : Float)
  | text (s : String)
  | bool (b : Bool)

/-- The text of a field value: decimal integers, the shortest text of a real, texts as they
are. -/
def Value.show : Value → String
  | .int i => toString i
  | .real x => Real.format x
  | .text s => s
  | .bool b => if b then "true" else "false"

/-- Named field values, in the order they were added. -/
abbrev Fields := List (String × Value)

/-- The value of the last field named `k`. -/
def Fields.get? (fs : Fields) (k : String) : Option Value :=
  (fs.reverse.find? (·.1 == k)).map (·.2)

/-- One log entry. -/
structure Entry where
  level : Level
  msg : String
  fields : Fields

end Reckon.Log

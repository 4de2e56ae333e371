import Reckon.Rule.Library
import Reckon.Pattern.Substitute

/-!
# Reduction to normal form

A reduction rewrites a workspace until no rule applies anywhere. Each pass scans the positions
from the left and, at each position, the candidate rules in registration order; the first
eligible rule that fires rewrites the workspace, and the next pass starts again from the left.

A built-in rule rewrites in place and costs one step. A user rule that matches starts a nested
reduction of its instantiated replacement: that reduction is charged one step as it starts,
shares the step count and the budget, and its normal form is spliced over the matched span.
The step a user rule is charged is the number recorded for it, and its record comes after the
records of the nested steps.

The budget is checked at the start of every pass: once the step count is past the limit, the
reduction is abandoned, and so is every reduction around it. An abandoned reduction reports the
workspace it had when the nested one gave up.

Every pass of every reduction raises the step count by at least one before the next pass, so a
chain of `limit + 2` passes always reaches the budget check; that many passes are the fuel.
-/

namespace Reckon

/-- One rule application: its step number, the nesting depth of the reduction it rewrote,
the rule's name, the position and the workspace after the rewrite. -/
structure TraceEntry where
  step : Nat
  depth : Nat
  rule : String
  pos : Nat
  workspace : List Token

/-- The steps taken so far and the record of the rule applications. -/
structure Progress where
  steps : Nat := 0
  trace : Array TraceEntry := #[]

/-- What one rule does at one position. -/
inductive Firing where
  /-- A built-in rule rewrote the workspace. -/
  | rewritten (rule : Rule) (pos : Nat) (workspace : List Token)
  /-- A user rule matched; its instantiated replacement is reduced next. -/
  | entered (rule : Rule) (pos : Nat) (body : List Token)

namespace Rule

/-- The firing of the rule at `pos`, if it fires there. -/
def fire (r : Rule) (ws : List Token) (pos : Nat) : Option Firing :=
  match r.action with
  | .builtin b => (b.apply ws pos).map (.rewritten r pos)
  | .rewrite repl =>
    (Template.firstMatch r.template ws pos).map fun b => .entered r pos (b.instantiate repl)

end Rule

/-- The end of a reduction: the last workspace, and whether it is a normal form (`false` when
the budget ran out). -/
structure Reduced where
  workspace : List Token
  normal : Bool

namespace Library

/-- The first firing of a pass: positions from the left, candidates in registration order,
eligible rules only. -/
def firing? (lib : Library) (ws : List Token) : Option Firing :=
  (List.range ws.length).findSome? fun pos =>
    (lib.candidates ws pos).findSome? fun r => if r.eligible ws pos then r.fire ws pos else none

/-- Passes of a reduction at `depth`, with `fuel` passes left along any chain of calls. -/
def reduceWith (lib : Library) (limit : Nat) :
    Nat → Nat → List Token → Progress → Reduced × Progress
  | 0, _, ws, p => (⟨ws, false⟩, p)
  | fuel + 1, depth, ws, p =>
    if limit < p.steps then (⟨ws, false⟩, p)
    else
      match lib.firing? ws with
      | none => (⟨ws, true⟩, p)
      | some (.rewritten r pos ws') =>
        let n := p.steps + 1
        reduceWith lib limit fuel depth ws' ⟨n, p.trace.push ⟨n, depth, r.name, pos, ws'⟩⟩
      | some (.entered r pos body) =>
        let n := p.steps + 1
        let (inner, q) := reduceWith lib limit fuel (depth + 1) body ⟨n, p.trace⟩
        if inner.normal then
          let ws' := Tokens.splice ws pos (pos + r.template.length) inner.workspace
          reduceWith lib limit fuel depth ws' ⟨q.steps, q.trace.push ⟨n, depth, r.name, pos, ws'⟩⟩
        else (⟨ws, false⟩, q)

/-- The reduction of `ws` under a step budget, from no steps taken, at depth one. -/
def reduce (lib : Library) (limit : Nat) (ws : List Token) : Reduced × Progress :=
  lib.reduceWith limit (limit + 2) 1 ws {}

end Library

end Reckon

import Reckon.Session.Call

/-!
# What a history of calls leaves behind

A history is a list of calls, each with the answer it got. What a session holds after a
history can be read off the history alone, without running the session again:

* the rules it defined are those of the definitions since the last reset that compile, in the
  order of the calls (`History.defined`);
* its previous answer is the value of the last evaluation since the last reset that reduced a
  sequence that is not empty and succeeded, or the empty sequence when there is none
  (`History.previous`).

A call defines a rule when it is a definition, or a line that lexes and has `=` outside
brackets; whether the rule compiles decides whether the call succeeds. A call evaluates when it
gives the reducer tokens: a sequence, or a line that lexes and is no definition.

The lemmas here say what one more call at the end of a history does to each of these.
-/

namespace Reckon

namespace Call

/-- Whether the call is a reset. -/
def isReset : Call → Bool
  | .reset => true
  | _ => false

/-- The pattern and replacement of the definition the call makes, if it makes one. -/
def definition : Call → Option (List Token × List Token)
  | .line text =>
    match Tokens.lex text with
    | .ok ts => Tokens.splitDefinition ts
    | .error _ => none
  | .define pat repl => some (pat, repl)
  | _ => none

/-- The rule the call adds to the library: that of its definition, when the definition
compiles. -/
def defines (c : Call) : Option Rule :=
  c.definition.bind fun (pat, repl) => (Rule.compile pat repl).toOption

/-- The sequence the call hands to the reducer, if it hands one that is not empty. -/
def evaluated : Call → Option (List Token)
  | .line text =>
    match Tokens.lex text with
    | .ok ts =>
      match Tokens.splitDefinition ts with
      | some _ => none
      | none => if ts.isEmpty then none else some ts
    | .error _ => none
  | .tokens ts => if ts.isEmpty then none else some ts
  | _ => none

end Call

namespace History

/-- The calls after the last reset, with their answers. -/
def sinceReset (h : List (Call × Answer)) : List (Call × Answer) :=
  (h.reverse.takeWhile fun e => !e.1.isReset).reverse

/-- The rules defined since the last reset, in the order of the calls. -/
def defined (h : List (Call × Answer)) : List Rule :=
  (sinceReset h).filterMap fun e => e.1.defines

/-- The value of a call that evaluated a sequence that is not empty and succeeded. -/
def value (e : Call × Answer) : Option (List Token) :=
  if e.1.evaluated.isSome then e.2.result.toOption else none

/-- The value of the last successful evaluation since the last reset; empty when there is
none. -/
def previous (h : List (Call × Answer)) : List Token :=
  ((sinceReset h).filterMap value).getLast?.getD []

@[simp] theorem sinceReset_nil : sinceReset [] = [] := rfl

/-- A reset at the end of a history leaves nothing since it; any other call is the last of
what stands since the last reset. -/
theorem sinceReset_concat (h : List (Call × Answer)) (e : Call × Answer) :
    sinceReset (h ++ [e]) = if e.1.isReset then [] else sinceReset h ++ [e] := by
  unfold sinceReset
  cases hr : e.1.isReset <;> simp [hr]

@[simp] theorem defined_nil : defined [] = [] := rfl

@[simp] theorem previous_nil : previous [] = [] := rfl

theorem defined_concat (h : List (Call × Answer)) (e : Call × Answer) :
    defined (h ++ [e]) = if e.1.isReset then [] else defined h ++ e.1.defines.toList := by
  unfold defined
  rw [sinceReset_concat]
  cases e.1.isReset
  · cases hd : e.1.defines <;> simp [List.filterMap_append, hd]
  · rfl

theorem previous_concat (h : List (Call × Answer)) (e : Call × Answer) :
    previous (h ++ [e]) = if e.1.isReset then [] else (value e).getD (previous h) := by
  unfold previous
  rw [sinceReset_concat]
  cases e.1.isReset <;> simp [List.filterMap_append]

end History

end Reckon

/-!
# Digit separators

A number may separate its digits with underscores, as in `1_000_000` or `0x_ff`: an underscore
must stand between two digits, or between a base prefix and a digit. A leading sign is ignored,
and after a `0x` prefix the letters `a` to `f` count as digits.
-/

namespace Reckon.Text

/-- A character in lower case, for the ASCII letters. -/
def lower (c : Char) : Char :=
  if 'A' ≤ c && c ≤ 'Z' then Char.ofNat (c.toNat + 32) else c

/-- The kinds of character met while checking underscores: a digit, an underscore, or
something else. -/
inductive Seen where
  | start
  | digit
  | underscore
  | other
  deriving DecidableEq

/-- Whether the underscores of a number only separate digits. -/
def underscoresFit (cs : List Char) : Bool :=
  let cs := match cs with
    | '-' :: r | '+' :: r => r
    | r => r
  let (seen, hex, cs) := match cs with
    | '0' :: b :: r =>
      if lower b == 'b' || lower b == 'o' || lower b == 'x' then (Seen.digit, lower b == 'x', r)
      else (Seen.start, false, cs)
    | _ => (Seen.start, false, cs)
  let step := fun (seen : Option Seen) (c : Char) =>
    match seen with
    | none => none
    | some s =>
      if ('0' ≤ c && c ≤ '9') || (hex && 'a' ≤ lower c && lower c ≤ 'f') then some Seen.digit
      else if c == '_' then (if s == .digit then some Seen.underscore else none)
      else if s == .underscore then none
      else some Seen.other
  match cs.foldl step (some seen) with
  | some s => s != .underscore
  | none => false

end Reckon.Text

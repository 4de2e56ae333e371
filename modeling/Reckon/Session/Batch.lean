import Reckon.Session.Basic

/-!
# Batches of lines

A batch feeds lines to one session in order. Lines that are blank, or start with `#` once the
surrounding blanks are trimmed, are skipped. A line that fails records its error and the batch
goes on. Each processed line records its 1-based number, its text, the answer, the step count
the session reports after it, and whether it defined a rule.
-/

namespace Reckon

/-- The outcome of one line of input: the file it came from (empty for none), its number
(zero for none), its text, the answer, the step count after it and whether it defined a rule. -/
structure LineResult where
  source : String
  line : Nat
  input : String
  result : Except SessionError (List Token)
  steps : Nat
  defined : Bool

namespace Batch

/-- Whether a line is a definition: it lexes and splits at a top-level `=`. -/
def isDefinition (text : String) : Bool :=
  match Tokens.lex text with
  | .ok ts => (Tokens.splitDefinition ts).isSome
  | .error _ => false

/-- Whether a line is skipped: blank, or a comment starting with `#`. -/
def skips (text : String) : Bool :=
  let trimmed := (text.toList.dropWhile Text.isBlank).reverse.dropWhile Text.isBlank |>.reverse
  trimmed.isEmpty || trimmed.head? == some '#'

end Batch

namespace Session

/-- One line of input with its outcome, numbered `line`. -/
def process (s : Session) (line : Nat) (text : String) : (LineResult × List Event) × Session :=
  let (a, s') := s.enter text
  let defined := match a.result with
    | .ok _ => Batch.isDefinition text
    | .error _ => false
  ((⟨"", line, text, a.result, s'.steps, defined⟩, a.events), s')

/-- The lines after the first `start - 1`, numbered from `start`; skipped lines leave no
result. A failing line is also reported as an event after its own. -/
def processFrom (s : Session) : Nat → List String → (List LineResult × List Event) × Session
  | _, [] => (([], []), s)
  | n, text :: rest =>
    if Batch.skips text then s.processFrom (n + 1) rest
    else
      let ((r, evs), s) := s.process n text
      let failed := match r.result with
        | .error e => [Event.lineFailed n e.message]
        | .ok _ => []
      let ((rs, evs'), s) := s.processFrom (n + 1) rest
      ((r :: rs, evs ++ failed ++ evs'), s)

/-- All lines in order, numbered from one. -/
def processLines (s : Session) (lines : List String) : (List LineResult × List Event) × Session :=
  s.processFrom 1 lines

end Session

end Reckon

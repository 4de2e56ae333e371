import Reckon.Session.Basic

/-!
# Calls on a session

A session answers four kinds of call: a line of input, a token sequence to reduce, a rule
definition given as pattern and replacement, and a reset. A history of calls is run from left
to right, and each call answers before the next one starts.

The lemmas here say how a history with one more call runs (`run_concat`), that a run answers
every call (`length_run`), and what building a session from settings gives: the built-in rules
followed by the rules of the settings, and no previous answer.
-/

namespace Reckon

/-- A call on a session. -/
inductive Call where
  /-- A line of input, lexed, then either defining a rule or reduced. -/
  | line (text : String)
  /-- A token sequence to reduce. -/
  | tokens (ts : List Token)
  /-- A rule definition, as its pattern and its replacement. -/
  | define (pat repl : List Token)
  /-- Forgets the defined rules and the previous answer. -/
  | reset

namespace Session

/-- Answers one call. A reset answers the empty sequence. -/
def call (s : Session) : Call → Answer × Session
  | .line text => s.enter text
  | .tokens ts => s.evaluate ts
  | .define pat repl => s.define pat repl
  | .reset => (⟨.ok [], []⟩, s.reset)

/-- Answers the calls of a history in order: the answers, and the session after the last. -/
def run (s : Session) : List Call → List Answer × Session
  | [] => ([], s)
  | c :: cs =>
    let (a, s') := s.call c
    let (as, t) := s'.run cs
    (a :: as, t)

@[simp] theorem run_nil (s : Session) : s.run [] = ([], s) := rfl

theorem run_cons (s : Session) (c : Call) (cs : List Call) :
    s.run (c :: cs) = ((s.call c).1 :: ((s.call c).2.run cs).1, ((s.call c).2.run cs).2) := rfl

/-- A history with one more call: the last call answers the session the history left. -/
theorem run_concat (s : Session) (cs : List Call) (c : Call) :
    s.run (cs ++ [c]) =
      ((s.run cs).1 ++ [((s.run cs).2.call c).1], ((s.run cs).2.call c).2) := by
  induction cs generalizing s with
  | nil => rfl
  | cons d cs ih => simp [run_cons, ih]

/-- A run answers every call once. -/
@[simp] theorem length_run (s : Session) (cs : List Call) : (s.run cs).1.length = cs.length := by
  induction cs generalizing s with
  | nil => rfl
  | cons d cs ih => simp [run_cons, ih]

/-- Settings add their rules after those the session already keeps. -/
theorem base_foldl_configure (s : Session) (settings : List Setting) :
    (settings.foldl configure s).base = s.base ++ Setting.extra settings := by
  induction settings generalizing s with
  | nil => simp [Setting.extra]
  | cons st ss ih =>
    rw [List.foldl_cons, ih]
    cases st with
    | maxSteps n =>
      simp only [configure, withMaxSteps]
      split <;> rfl
    | dump on => rfl
    | rules rs => simp [configure, Setting.extra]

@[simp] theorem base_build (settings : List Setting) :
    (build settings).base = Builtin.rules ++ Setting.extra settings := by
  simp [build, base_foldl_configure, draft]

/-- A built session's library holds the built-in rules, then the rules of the settings. -/
@[simp] theorem rules_build (settings : List Setting) :
    (build settings).rules = Builtin.rules ++ Setting.extra settings := by
  simp [rules, build, base_foldl_configure, draft]

theorem previous_foldl_configure (s : Session) (settings : List Setting) :
    (settings.foldl configure s).previous = s.previous := by
  induction settings generalizing s with
  | nil => rfl
  | cons st ss ih =>
    rw [List.foldl_cons, ih]
    cases st with
    | maxSteps n =>
      simp only [configure, withMaxSteps]
      split <;> rfl
    | dump on => rfl
    | rules rs => rfl

/-- A built session has no previous answer. -/
@[simp] theorem previous_build (settings : List Setting) : (build settings).previous = [] := by
  simp [build, previous_foldl_configure, draft]

end Session

end Reckon

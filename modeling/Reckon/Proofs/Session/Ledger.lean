import Mathlib.Data.List.Induction
import Reckon.Session.History

/-!
# The session's ledger

A session keeps two things across calls that later answers show: its rule library and its
previous answer. This module proves that both are read off the history of calls alone.

For a session built from any settings, after any history of lines, token sequences,
definitions and resets, the library holds the built-in rules, then the rules of the settings,
then the rules defined since the last reset, in the order of the calls; the previous answer is
the value of the last successful evaluation of a sequence that is not empty since the last
reset, or empty when there is none. A call that fails, whether its line does not lex, its
definition does not compile or its reduction runs out of steps, changes neither.

The proof has one lemma per operation on what it does to the base rules, the library and the
previous answer, one per kind of call built from them, and an induction over the history from
its end.
-/

namespace Reckon

namespace Session

/-! ### Reduction -/

@[simp] theorem library_evaluate (s : Session) (ts : List Token) :
    (s.evaluate ts).2.library = s.library := by
  unfold evaluate
  split
  · rfl
  · split
    dsimp only
    split <;> rfl

@[simp] theorem base_evaluate (s : Session) (ts : List Token) :
    (s.evaluate ts).2.base = s.base := by
  unfold evaluate
  split
  · rfl
  · split
    dsimp only
    split <;> rfl

theorem previous_evaluate (s : Session) (ts : List Token) :
    (s.evaluate ts).2.previous =
      (if ts.isEmpty then none else (s.evaluate ts).1.result.toOption).getD s.previous := by
  unfold evaluate
  split
  · simp_all
  · simp only
    split <;> simp_all [Except.toOption]

theorem ok_or_previous_evaluate (s : Session) (ts : List Token) :
    (∃ v, (s.evaluate ts).1.result = .ok v) ∨ (s.evaluate ts).2.previous = s.previous := by
  unfold evaluate
  split
  · exact .inl ⟨[], rfl⟩
  · split
    dsimp only
    split
    · exact .inl ⟨_, rfl⟩
    · exact .inr rfl

/-! ### Definitions -/

@[simp] theorem base_define (s : Session) (pat repl : List Token) :
    (s.define pat repl).2.base = s.base := by
  unfold define
  split <;> rfl

@[simp] theorem previous_define (s : Session) (pat repl : List Token) :
    (s.define pat repl).2.previous = s.previous := by
  unfold define
  split <;> rfl

theorem rules_define (s : Session) (pat repl : List Token) :
    (s.define pat repl).2.rules = s.rules ++ (Rule.compile pat repl).toOption.toList := by
  unfold define
  split <;> simp_all [register, rules, Library.register, Except.toOption]

theorem ok_or_rules_define (s : Session) (pat repl : List Token) :
    (∃ v, (s.define pat repl).1.result = .ok v) ∨ (s.define pat repl).2.rules = s.rules := by
  unfold define
  split
  · exact .inr rfl
  · exact .inl ⟨[], rfl⟩

/-! ### Lines -/

@[simp] theorem base_enter (s : Session) (text : String) : (s.enter text).2.base = s.base := by
  unfold enter
  split
  · rfl
  · split <;> simp

theorem rules_enter (s : Session) (text : String) :
    (s.enter text).2.rules = s.rules ++ (Call.line text).defines.toList := by
  simp only [enter, Call.defines, Call.definition]
  split
  · rename_i hl
    simp [hl]
  · rename_i hl
    simp only [hl]
    split
    · rename_i hd
      simp only [hd, rules_define, Option.bind_some]
      rfl
    · rename_i hd
      simp [hd, rules]

theorem previous_enter (s : Session) (text : String) :
    (s.enter text).2.previous = (History.value (.line text, (s.enter text).1)).getD s.previous := by
  simp only [enter, History.value, Call.evaluated]
  split
  · rename_i hl
    simp [hl]
  · rename_i ts hl
    simp only [hl]
    split
    · rename_i hd
      simp [hd]
    · rename_i hd
      simp only [hd]
      rw [previous_evaluate]
      by_cases he : ts.isEmpty = true <;> simp [he]

theorem ok_or_unchanged_enter (s : Session) (text : String) :
    (∃ v, (s.enter text).1.result = .ok v) ∨
      ((s.enter text).2.rules = s.rules ∧ (s.enter text).2.previous = s.previous) := by
  unfold enter
  split
  · exact .inr ⟨rfl, rfl⟩
  · split
    · exact (ok_or_rules_define _ _ _).imp id fun h => ⟨h, previous_define _ _ _⟩
    · exact (ok_or_previous_evaluate s _).imp id fun h => ⟨by simp [rules], h⟩

/-! ### Calls -/

@[simp] theorem base_call (s : Session) (c : Call) : (s.call c).2.base = s.base := by
  cases c <;> simp [call, reset]

theorem rules_call (s : Session) (c : Call) :
    (s.call c).2.rules = if c.isReset then s.base else s.rules ++ c.defines.toList := by
  cases c with
  | line text => exact rules_enter s text
  | tokens ts => simp [call, Call.isReset, Call.defines, Call.definition, rules]
  | define pat repl =>
    simp only [call, Call.isReset, Call.defines, Call.definition, rules_define]
    rfl
  | reset => rfl

theorem previous_call (s : Session) (c : Call) :
    (s.call c).2.previous =
      if c.isReset then [] else (History.value (c, (s.call c).1)).getD s.previous := by
  cases c with
  | line text => exact previous_enter s text
  | tokens ts =>
    simp only [call, Call.isReset, History.value, Call.evaluated]
    rw [previous_evaluate]
    by_cases he : ts.isEmpty = true <;> simp [he]
  | define pat repl => simp [call, Call.isReset, History.value, Call.evaluated]
  | reset => rfl

theorem ok_or_unchanged_call (s : Session) (c : Call) :
    (∃ v, (s.call c).1.result = .ok v) ∨
      ((s.call c).2.rules = s.rules ∧ (s.call c).2.previous = s.previous) := by
  cases c with
  | line text => exact ok_or_unchanged_enter s text
  | tokens ts =>
    rcases ok_or_previous_evaluate s ts with h | h
    · exact .inl h
    · exact .inr ⟨by simp [call, rules], h⟩
  | define pat repl =>
    rcases ok_or_rules_define s pat repl with h | h
    · exact .inl h
    · exact .inr ⟨h, previous_define s pat repl⟩
  | reset => exact .inl ⟨[], rfl⟩

/-! ### Histories -/

theorem ledger_run (settings : List Setting) (cs : List Call) :
    ((build settings).run cs).2.base = Builtin.rules ++ Setting.extra settings ∧
    ((build settings).run cs).2.rules =
      ((build settings).run cs).2.base ++ History.defined (cs.zip ((build settings).run cs).1) ∧
    ((build settings).run cs).2.previous = History.previous (cs.zip ((build settings).run cs).1) := by
  induction cs using List.reverseRecOn with
  | nil => simp
  | append_singleton cs c ih =>
    obtain ⟨hb, hr, hp⟩ := ih
    rw [run_concat, List.zip_append (by simp), List.zip_cons_cons, List.zip_nil_left,
      History.defined_concat, History.previous_concat]
    refine ⟨by simp [hb], ?_, ?_⟩
    · rw [rules_call, base_call]
      cases c.isReset <;> simp [hr]
    · rw [previous_call]
      cases c.isReset <;> simp [hp]

/-- A session built from any settings, after any history of calls, holds the built-in rules,
then the rules of its settings, then the rules defined since the last reset in the order of
the calls, and as previous answer the value of the last successful evaluation since the last
reset, or nothing; and every call on any session either succeeds or leaves its rules and its
previous answer as they were. -/
theorem rules_previous_run_build (settings : List Setting) (cs : List Call) :
    ((build settings).run cs).2.rules =
      Builtin.rules ++ Setting.extra settings ++ History.defined (cs.zip ((build settings).run cs).1) ∧
    ((build settings).run cs).2.previous = History.previous (cs.zip ((build settings).run cs).1) ∧
    ∀ (s : Session) (c : Call), (∃ v, (s.call c).1.result = .ok v) ∨
      ((s.call c).2.rules = s.rules ∧ (s.call c).2.previous = s.previous) := by
  obtain ⟨hb, hr, hp⟩ := ledger_run settings cs
  exact ⟨hb ▸ hr, hp, ok_or_unchanged_call⟩

end Session

end Reckon

import Reckon.Proofs.Arith.Evaluate
import Reckon.Proofs.Increment.Reduction
import Reckon.Proofs.Logic.Text

/-!
# Calling `increment` on a written list

The line `increment [a₁, a₂, …, aₙ]`, each `aᵢ` a decimal literal with an optional minus sign
(`Arith.Decimal`), lexes to the call with its list written out (`Increment.lex_callText`): after
`[` or `,` an operand starts, so a minus sign there is taken into the number, and the comma or
bracket after a literal ends it without starting a power.

In a session whose library is the built-in rules followed by the two rules of `increment` that
the default configuration compiles, the line is answered by the list of the successors in exactly
`3 n + 3` steps, whenever the budget allows that many (`Increment.enter_callText`).
-/

namespace Reckon

namespace Arith

/-- A decimal literal with an optional minus sign. -/
structure Decimal where
  negative : Bool
  numeral : Numeral

namespace Decimal

/-- The characters of the literal. -/
def chars (d : Decimal) : List Char := (if d.negative then ['-'] else []) ++ d.numeral.chars

/-- The text of the literal. -/
def text (d : Decimal) : String := String.ofList d.chars

/-- The exact number the literal denotes, when the reader takes its digits. -/
def value? (d : Decimal) : Option Rat :=
  (readNumber? d.numeral.text).map fun q => if d.negative then -q else q

end Decimal

end Arith

namespace Lexer

/-- The brackets and the comma of a written list, with their characters. -/
def listMarks : List (Char × String) := [('[', "["), (',', ","), (']', "]")]

theorem run_listMark {ch : Char} {s : String} (hs : (ch, s) ∈ listMarks) (rest : List Char)
    (l c : Nat) (acc : List Token) :
    run ⟨ch :: rest, l, c⟩ acc = run ⟨rest, l, c + 1⟩ (.sym s :: acc) := by
  have hmark : s.toList = [ch] ∧ Lead ch ∧ isWordStart ch = false ∧
      operatorAt (ch :: ([] ++ rest)) = some s := by
    simp only [listMarks, List.mem_cons, Prod.mk.injEq, List.not_mem_nil, or_false] at hs
    rcases hs with ⟨rfl, rfl⟩ | ⟨rfl, rfl⟩ | ⟨rfl, rfl⟩ <;>
      exact ⟨rfl, ⟨by decide, by decide, by decide, by decide, by decide, by decide⟩,
        by decide +kernel, by simp [operatorAt, operators]⟩
  obtain ⟨hs, hlead, hword, hop⟩ := hmark
  have hlen : s.length = 1 := by rw [← String.length_toList, hs, List.length_singleton]
  simpa [hlen] using run_operator hs hlead hword (by simp) hop l c acc

theorem powerFollows_listMark {x : Char} (hx : x = ',' ∨ x = ']') (rest : List Char) (l c : Nat) :
    powerFollows ⟨x :: rest, l, c⟩ = false := by
  rcases hx with rfl | rfl <;> rfl

theorem run_decimal (d : Arith.Decimal) {q : Rat} (hq : d.value? = some q) {acc : List Token}
    (hstart : startsOperand acc = true) {x : Char} (hx : x = ',' ∨ x = ']') (rest : List Char)
    (l c : Nat) :
    run ⟨d.chars ++ x :: rest, l, c⟩ acc =
      run ⟨x :: rest, l, c + d.chars.length⟩ (.num (.exact q) :: acc) := by
  obtain ⟨p, hp, rfl⟩ := Option.map_eq_some_iff.1 hq
  have hends : ∀ y ∈ (x :: rest).head?, EndsNumeral y := by
    rintro y ⟨⟩
    rcases hx with rfl | rfl <;> exact ⟨by decide, by decide, by decide, by decide⟩
  cases hneg : d.negative with
  | false => simpa [Arith.Decimal.chars, hneg] using run_numeral d.numeral hp hends l c acc
  | true =>
    simpa [Arith.Decimal.chars, hneg, Nat.add_assoc] using
      run_minus_numeral d.numeral hp hstart hends (powerFollows_listMark hx rest) l c

end Lexer

namespace Increment

open Lexer

/-- The line `increment [a₁, …, aₙ]`: the literals separated by a comma and a space. -/
def callText (ds : List Arith.Decimal) : String :=
  "increment [" ++ ", ".intercalate (ds.map Arith.Decimal.text) ++ "]"

theorem lexes_increment : Lexes "increment" (.sym "increment") :=
  lexes_symbol_word
    (by decide +kernel : "increment".toList = 'i' :: ['n', 'c', 'r', 'e', 'm', 'e', 'n', 't'])
    (by decide +kernel) ⟨by decide +kernel, by decide, by decide +kernel, by decide, by decide,
      by decide⟩ (by decide +kernel) (by decide)

theorem run_items (ds : List Arith.Decimal) {qs : List Rat}
    (hqs : ds.map Arith.Decimal.value? = qs.map some) {acc : List Token}
    (hstart : startsOperand acc = true) (l c : Nat) :
    run ⟨(", ".intercalate (ds.map Arith.Decimal.text)).toList ++ [']'], l, c⟩ acc =
      .ok (acc.reverse ++ ((nums qs).intersperse (.sym ",") ++ [.sym "]"])) := by
  have hclose : ((']', "]") : Char × String) ∈ listMarks := by simp [listMarks]
  induction ds generalizing qs acc c with
  | nil =>
    obtain rfl : qs = [] := List.map_eq_nil_iff.1 hqs.symm
    simp [run_listMark hclose, run_nil]
  | cons d ds ih =>
    cases qs with
    | nil => simp at hqs
    | cons q qs =>
      simp only [List.map_cons, List.cons.injEq] at hqs
      obtain ⟨hd, hqs⟩ := hqs
      cases ds with
      | nil =>
        obtain rfl : qs = [] := List.map_eq_nil_iff.1 hqs.symm
        simp [Arith.Decimal.text, run_decimal d hd hstart (.inr rfl), run_listMark hclose, run_nil]
      | cons d' ds =>
        -- the literal, the comma and the space, then the rest of the list after an opener
        have hchars : (", ".intercalate ((d :: d' :: ds).map Arith.Decimal.text)).toList ++
            [']'] = d.chars ++ ',' :: ' ' ::
              ((", ".intercalate ((d' :: ds).map Arith.Decimal.text)).toList ++ [']']) := by
          simp [String.intercalate_cons_cons, Arith.Decimal.text]
        have hcomma : ((',', ",") : Char × String) ∈ listMarks := by simp [listMarks]
        rw [hchars, run_decimal d hd hstart (.inl rfl), run_listMark hcomma, run_blank,
          ih hqs rfl]
        cases qs with
        | nil => simp at hqs
        | cons q' qs => simp

theorem lex_callText (ds : List Arith.Decimal) {qs : List Rat}
    (hqs : ds.map Arith.Decimal.value? = qs.map some) :
    Tokens.lex (callText ds) = .ok (written qs) := by
  have hopen : (('[', "[") : Char × String) ∈ listMarks := by simp [listMarks]
  have hchars : (callText ds).toList = "increment".toList ++ ' ' :: '[' ::
      ((", ".intercalate (ds.map Arith.Decimal.text)).toList ++ [']']) := by
    simp [callText]
  rw [Tokens.lex, hchars, lexes_increment _ 1 1 [] (by simp), run_blank, run_listMark hopen,
    run_items ds hqs rfl]
  rfl

theorem mem_of_mem_intersperse {α : Type} {sep t : α} {l : List α} (h : t ∈ l.intersperse sep) :
    t ∈ l ∨ t = sep := by
  induction l with
  | nil => simp at h
  | cons a l ih =>
    cases l with
    | nil => simp_all
    | cons b l =>
      rw [List.intersperse_cons_cons, List.mem_cons, List.mem_cons] at h
      rcases h with rfl | rfl | h
      · simp
      · simp
      · rcases ih h with h | h <;> simp [h]

theorem splitDefinition_written (qs : List Rat) : Tokens.splitDefinition (written qs) = none := by
  refine Arith.splitDefinition_go_eq_none _ ?_ 0 []
  intro t ht
  simp only [written, List.mem_cons, List.mem_append, List.not_mem_nil, or_false] at ht
  rcases ht with rfl | rfl | ht | rfl
  · rfl
  · rfl
  · rcases mem_of_mem_intersperse ht with ht | rfl
    · obtain ⟨q, -, rfl⟩ := List.mem_map.1 ht
      rfl
    · rfl
  · rfl

theorem isInfix_increment : library.isInfix "increment" = false := by
  decide

/-- In a session whose library is the built-in rules and the
two rules of `increment` of the default configuration, the line `increment [a₁, …, aₙ]` of
decimal literals with the values `q₁, …, qₙ` is answered by the list `[q₁ + 1, …, qₙ + 1]`
after exactly `3 n + 3` steps, whenever the budget allows that many: whatever the previous
answer, since `increment` is no infix operator. -/
theorem enter_callText (s : Session) {rs : List Rule}
    (hrs : (Config.default.rules.drop 1).mapM RuleSpec.compile = .ok rs)
    (hlib : s.library.rules = Builtin.rules ++ rs) (ds : List Arith.Decimal) {qs : List Rat}
    (hqs : ds.map Arith.Decimal.value? = qs.map some) (hbudget : 3 * ds.length + 3 ≤ s.maxSteps) :
    (s.enter (callText ds)).1.result = .ok [.list (nums (succs qs))] ∧
      (s.enter (callText ds)).2.steps = 3 * ds.length + 3 := by
  have hlib' : s.library = library := by
    rw [compile_default, Except.ok.injEq] at hrs
    cases hL : s.library
    simp_all [library]
  have hlen : qs.length = ds.length := by simpa using (congrArg List.length hqs).symm
  have hcont : s.continuing (written qs) = written qs := by
    simp [Session.continuing, written, hlib', isInfix_increment]
  obtain ⟨hres, hsteps⟩ := reduce_written qs (hlen ▸ hbudget : 3 * qs.length + 3 ≤ s.maxSteps)
  have hred : library.reduce s.maxSteps (written qs) =
      (⟨[.list (nums (succs qs))], true⟩, (library.reduce s.maxSteps (written qs)).2) :=
    Prod.ext hres rfl
  have hne : (written qs).isEmpty = false := rfl
  rw [Session.enter, lex_callText ds hqs]
  simp only [splitDefinition_written]
  unfold Session.evaluate
  rw [hne, hcont, hlib', hred]
  simp [hsteps, hlen]

/-- `increment [1.5, -2]` is answered by `[2.5, -1]` after nine steps. -/
theorem enter_callText_signed :
    let half : Arith.Decimal := ⟨false, ⟨['1'], some ['5'], none,
      ⟨List.cons_ne_nil _ _, fun c hc => by rw [List.mem_singleton.1 hc]; rfl⟩,
      fun ds h => by cases h; exact ⟨List.cons_ne_nil _ _, fun c hc => by
        rw [List.mem_singleton.1 hc]; rfl⟩⟩⟩
    let two : Arith.Decimal := ⟨true, ⟨['2'], none, none,
      ⟨List.cons_ne_nil _ _, fun c hc => by rw [List.mem_singleton.1 hc]; rfl⟩, by simp⟩⟩
    let s := Session.build [.rules [emptyRule, consRule]]
    [half, two].map Arith.Decimal.value? = [3 / 2, -2].map some ∧
      (s.enter (callText [half, two])).1.result = .ok [.list (nums (succs [3 / 2, -2]))] ∧
      (s.enter (callText [half, two])).2.steps = 9 := by
  intro half two s
  have hqs : [half, two].map Arith.Decimal.value? = [3 / 2, -2].map some := by
    simp only [List.map_cons, List.map_nil, List.cons.injEq, and_true]
    constructor <;> decide +kernel
  exact ⟨hqs, enter_callText s compile_default rfl [half, two] hqs (by decide)⟩

end Increment

end Reckon

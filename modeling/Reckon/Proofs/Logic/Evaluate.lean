import Reckon.Proofs.Arith.Evaluate
import Reckon.Proofs.Logic.Scan
import Reckon.Proofs.Logic.Text

/-!
# Evaluating formulas

A pass of the built-in rules over the tokens of a formula performs the formula's leftmost step
(`Logic.scan_tokens`), so a reduction follows the steps down to a truth value, one step per
operator, negation, connective and pair of parentheses (`Logic.reduceWith_formula`).

In a fresh session, a line holding the text of a formula of the grammar therefore answers the
formula's truth value after exactly its size in steps, provided every operand has a value and no
power has a negated exponent (`Logic.enter_text_eval`). A truth value is taken on both sides of
every connective: `and` and `or` wait for both operands to be reduced.
-/

namespace Reckon

namespace Logic

open Arith (Expr Numeral isArith scanWith)

theorem isSym_eq_of_isLogic {t : Token} (ht : isLogic t = true) : t.isSym "=" = false := by
  cases t with
  | sym s =>
    have hs : s ≠ "=" := by
      rintro rfl
      simp [isLogic, Arith.symbols, logicSyms, comparisonOps] at ht
    simpa [Token.isSym] using hs
  | _ => rfl

theorem isLogic_of_isArith {t : Token} (ht : isArith t = true) : isLogic t = true := by
  rcases Expr.isArith_cases ht with ⟨n, rfl⟩ | ⟨s, rfl⟩
  · rfl
  · simp only [isArith] at ht
    simp only [isLogic, List.contains_append, ht, Bool.true_or]

theorem Formula.tokens_logic (f : Formula Number) : ∀ t ∈ f.tokens, isLogic t = true := by
  have hsym : ∀ s ∈ logicSyms, isLogic (.sym s) = true := fun s hs => by simp [isLogic, hs]
  induction f with
  | cmp r x y =>
    simp only [Formula.tokens, List.mem_append, List.mem_cons]
    rintro t (ht | rfl | ht)
    · exact isLogic_of_isArith (x.tokens_arith t ht)
    · exact hsym _ r.symbol_mem
    · exact isLogic_of_isArith (y.tokens_arith t ht)
  | lit b => simp [Formula.tokens, isLogic]
  | paren f ih =>
    simp only [Formula.tokens, List.mem_cons, List.mem_append, List.not_mem_nil, or_false]
    rintro t ((rfl | ht) | rfl)
    · rfl
    · exact ih t ht
    · rfl
  | not f ih =>
    simp only [Formula.tokens, List.mem_cons]
    rintro t (rfl | ht)
    · exact hsym _ (by decide)
    · exact ih t ht
  | conn c f g ihf ihg =>
    simp only [Formula.tokens, List.mem_append, List.mem_cons]
    rintro t (ht | rfl | ht)
    · exact ihf t ht
    · exact hsym _ c.symbol_mem
    · exact ihg t ht

theorem firing?_lit (b : Bool) : Library.builtins.firing? [.bool b] = none := by
  rw [firing?_builtins _ (by simp [isLogic])]
  simp [scanWith, fire, localFire_bool, connFire, logicRules, logicWindow, notAt, Arith.binaryAt]

theorem firing?_of_step {f f' : Formula Number} (hf' : f.step = some f') (hg : f.Grammatical)
    (hn : f.NoNegatedExponent) :
    ∃ r pos, Library.builtins.firing? f.tokens = some (.rewritten r pos f'.tokens) := by
  obtain ⟨r, pos, hscan⟩ := scan_tokens f hf' hg hn [] [] rfl rfl
  refine ⟨r, pos, ?_⟩
  rw [firing?_builtins _ (Formula.tokens_logic f)]
  simpa using hscan

/-- Within the budget and the fuel, the built-in rules reduce the tokens of a
formula of the grammar with a truth value and no negated exponent to that value, one step per
node. -/
theorem reduceWith_formula (limit fuel depth : Nat) (f : Formula Number) (hg : f.Grammatical)
    (hn : f.NoNegatedExponent) {b : Bool} (hv : f.eval = .ok b) (p : Progress)
    (hsteps : p.steps + f.size ≤ limit) (hfuel : f.size < fuel) :
    (Library.builtins.reduceWith limit fuel depth f.tokens p).1.workspace = [.bool b] ∧
      (Library.builtins.reduceWith limit fuel depth f.tokens p).1.normal = true ∧
      (Library.builtins.reduceWith limit fuel depth f.tokens p).2.steps = p.steps + f.size := by
  -- the formulas along the steps keep the grammar, the exponents and the truth value
  let P (f : Formula Number) : Prop := f.Grammatical ∧ f.NoNegatedExponent ∧ f.eval = .ok b
  have hnext : ∀ f f', P f → f.step = some f' → P f' ∧ f'.size + 1 = f.size ∧
      ∃ r pos, Library.builtins.firing? f.tokens = some (.rewritten r pos f'.tokens) := by
    rintro f f' ⟨hg, hn, hv⟩ hf'
    refine ⟨⟨Formula.step_grammatical f hf' hg, Formula.step_noNegatedExponent f hf' hn, ?_⟩,
      Formula.step_size f hf', firing?_of_step hf' hg hn⟩
    rw [Formula.step_eval f hf', hv]
  have hlast : ∀ f, P f → f.step = none → f.size = 0 ∧ Library.builtins.firing? f.tokens = none := by
    rintro f ⟨-, -, hv⟩ hnone
    obtain rfl := Formula.eq_lit_of_step_eq_none hnone hv
    exact ⟨rfl, firing?_lit b⟩
  obtain ⟨y, ⟨-, -, hy⟩, hyn, hres, hcount⟩ := Library.builtins.reduceWith_chain Formula.tokens
    Formula.size Formula.step P hnext hlast limit fuel depth f ⟨hg, hn, hv⟩ p hsteps hfuel
  -- the last formula is the literal of the value
  obtain rfl := Formula.eq_lit_of_step_eq_none hyn hy
  rw [hres]
  exact ⟨rfl, rfl, hcount⟩

theorem evaluate_formula (s : Session) (hlib : s.library = Library.builtins)
    (hprev : s.previous = []) (f : Formula Number) (hg : f.Grammatical) (hn : f.NoNegatedExponent)
    {b : Bool} (hv : f.eval = .ok b) (hsize : f.size ≤ s.maxSteps) :
    (s.evaluate f.tokens).1.result = .ok [.bool b] ∧ (s.evaluate f.tokens).2.steps = f.size := by
  obtain ⟨hws, hnormal, hcount⟩ :=
    reduceWith_formula s.maxSteps (s.maxSteps + 2) 1 f hg hn hv {} (by simpa using hsize)
      (by omega)
  have hne : f.tokens.isEmpty = false := by
    simpa using Formula.tokens_ne_nil f
  unfold Session.evaluate
  rw [hne, Arith.continuing_of_previous_nil hprev, hlib]
  simp only [Library.reduce, Bool.false_eq_true, if_false]
  simp [hws, hnormal, hcount]

theorem enter_text (s : Session) (f : Formula Numeral) {fv : Formula Number}
    (hread : f.read = some fv) : s.enter f.text = s.evaluate fv.tokens := by
  rw [Session.enter, Formula.lex_text f hread]
  simp only [Tokens.splitDefinition, Arith.splitDefinition_go_eq_none _
    (fun t ht => isSym_eq_of_isLogic (Formula.tokens_logic fv t ht))]

/-- A line holding the text of a formula of the grammar, whose
literals are all read, whose operands all have values and whose powers have no negated exponent,
is answered by the formula's truth value after one step per arithmetic operator, minus sign,
comparison, negation, connective and pair of parentheses, when that many steps are within the
budget. -/
theorem enter_text_eval (s : Session) (hlib : s.library = Library.builtins)
    (hprev : s.previous = []) (f : Formula Numeral) {fv : Formula Number}
    (hread : f.read = some fv) (hg : f.Grammatical) (hn : f.NoNegatedExponent) {b : Bool}
    (hv : fv.eval = .ok b) (hsize : f.size ≤ s.maxSteps) :
    (s.enter f.text).1.result = .ok [.bool b] ∧ (s.enter f.text).2.steps = f.size := by
  rw [enter_text s f hread]
  -- the values keep the shape of the formula, so its size, grammar and exponents carry over
  obtain rfl := Formula.read_eq_map hread
  simpa using evaluate_formula s hlib hprev _ (by simpa using hg) (by simpa using hn) hv
    (by simpa using hsize)

/-- `not 2 * 3 < 1 + 2 and ( 1 == 1 or false )` is answered `true` after eight steps. -/
theorem enter_text_eval_not_and_or :
    let one : Numeral :=
      ⟨['1'], none, none, ⟨List.cons_ne_nil _ _, fun c hc => by rw [List.mem_singleton.1 hc]; rfl⟩,
        by simp⟩
    let two : Numeral :=
      ⟨['2'], none, none, ⟨List.cons_ne_nil _ _, fun c hc => by rw [List.mem_singleton.1 hc]; rfl⟩,
        by simp⟩
    let three : Numeral :=
      ⟨['3'], none, none, ⟨List.cons_ne_nil _ _, fun c hc => by rw [List.mem_singleton.1 hc]; rfl⟩,
        by simp⟩
    let f : Formula Numeral := .conn .and
      (.not (.cmp .lt (.bin .mul (.lit two) (.lit three)) (.bin .add (.lit one) (.lit two))))
      (.paren (.conn .or (.cmp .eq (.lit one) (.lit one)) (.lit false)))
    ((Session.build []).enter f.text).1.result = .ok [.bool true] ∧
      ((Session.build []).enter f.text).2.steps = 8 := by
  intro one two three f
  have h1 : readNumber? one.text = some 1 := by decide +kernel
  have h2 : readNumber? two.text = some 2 := by decide +kernel
  have h3 : readNumber? three.text = some 3 := by decide +kernel
  let fv : Formula Number := .conn .and
    (.not (.cmp .lt (.bin .mul (.lit (.exact 2)) (.lit (.exact 3)))
      (.bin .add (.lit (.exact 1)) (.lit (.exact 2)))))
    (.paren (.conn .or (.cmp .eq (.lit (.exact 1)) (.lit (.exact 1))) (.lit false)))
  have hread : f.read = some fv := by
    simp [f, fv, Formula.read, Expr.read, Numeral.value?, h1, h2, h3]
  have hv : fv.eval = .ok true := by decide +kernel
  exact enter_text_eval (Session.build []) rfl rfl f hread (by decide +kernel) (by decide +kernel) hv
    (by decide +kernel)

end Logic

end Reckon

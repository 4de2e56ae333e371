import Reckon.Proofs.Arith.Scan
import Reckon.Proofs.Arith.Stuck
import Reckon.Proofs.Arith.Text
import Reckon.Proofs.Reduction.Budget

/-!
# Evaluating arithmetic

The scan of a pass rewrites the node `Expr.step` reduces (`Arith.scan_tokens`), so a reduction of
the built-in rules follows the steps of the tree down to its value. It takes one step per
operator, minus sign and pair of parentheses (`Arith.reduceWith_tokens`). A negated exponent
stops it before the value (`Arith.reduceWith_stuckExponent`).

In a fresh session, a line holding the text of a tree of the grammar therefore answers its value
after exactly its size in steps if and only if no power of the tree has a negation as its
exponent (`Arith.enter_text_iff`). `2 ^ - 2` answers itself, in no step.
-/

namespace Reckon

namespace Arith

theorem firing?_num (a : Number) : Library.builtins.firing? [.num a] = none := by
  rw [firing?_builtins _ (by simp [isArith])]
  simp [scan, localFire, arithRules, rewriteWindow, parensAt, negateAt, binaryAt]

theorem firing?_of_step {e e' : Expr Number} (he' : e.step = some e') (hg : e.Grammatical)
    (hn : e.NoNegatedExponent) :
    ∃ r pos, Library.builtins.firing? e.tokens = some (.rewritten r pos e'.tokens) := by
  obtain ⟨r, pos, hscan⟩ := scan_tokens e he' hg hn [] [] rfl rfl
  refine ⟨r, pos, ?_⟩
  rw [firing?_builtins _ (Expr.tokens_arith e)]
  simpa using hscan

/-- Within the budget and the fuel, the built-in rules reduce the tokens of a tree of
the grammar with a value and no negated exponent to that value, one step per node. -/
theorem reduceWith_tokens (limit fuel depth : Nat) (e : Expr Number) (hg : e.Grammatical)
    (hn : e.NoNegatedExponent) {v : Number} (hv : e.eval = .ok v) (p : Progress)
    (hsteps : p.steps + e.size ≤ limit) (hfuel : e.size < fuel) :
    (Library.builtins.reduceWith limit fuel depth e.tokens p).1.workspace = [.num v] ∧
      (Library.builtins.reduceWith limit fuel depth e.tokens p).1.normal = true ∧
      (Library.builtins.reduceWith limit fuel depth e.tokens p).2.steps = p.steps + e.size := by
  -- the trees along the steps keep the grammar, the exponents and the value
  let P (e : Expr Number) : Prop := e.Grammatical ∧ e.NoNegatedExponent ∧ e.eval = .ok v
  have hnext : ∀ e e', P e → e.step = some e' → P e' ∧ e'.size + 1 = e.size ∧
      ∃ r pos, Library.builtins.firing? e.tokens = some (.rewritten r pos e'.tokens) := by
    rintro e e' ⟨hg, hn, hv⟩ he'
    refine ⟨⟨Expr.step_grammatical e he' hg, Expr.step_noNegatedExponent e he' hn, ?_⟩,
      Expr.step_size e he', firing?_of_step he' hg hn⟩
    rw [Expr.step_eval e he', hv]
  have hlast : ∀ e, P e → e.step = none → e.size = 0 ∧ Library.builtins.firing? e.tokens = none := by
    rintro e ⟨-, -, hv⟩ hnone
    obtain rfl := Expr.eq_lit_of_step_eq_none hnone hv
    exact ⟨rfl, firing?_num v⟩
  obtain ⟨y, ⟨-, -, hy⟩, hyn, hres, hcount⟩ := Library.builtins.reduceWith_chain Expr.tokens
    Expr.size Expr.step P hnext hlast limit fuel depth e ⟨hg, hn, hv⟩ p hsteps hfuel
  -- the last tree is the leaf of the value
  obtain rfl := Expr.eq_lit_of_step_eq_none hyn hy
  rw [hres]
  exact ⟨rfl, rfl, hcount⟩

/-! ### A fresh session -/

theorem splitDefinition_go_eq_none (ts : List Token) (hts : ∀ t ∈ ts, t.isSym "=" = false)
    (depth : Nat) (seen : List Token) : Tokens.splitDefinition.go ts depth seen = none := by
  induction ts generalizing depth seen with
  | nil => rfl
  | cons t ts ih =>
    have hrest : ∀ t ∈ ts, t.isSym "=" = false := fun t' h => hts t' (List.mem_cons_of_mem _ h)
    rw [Tokens.splitDefinition.go]
    simp only [hts t List.mem_cons_self, Bool.and_false, Bool.false_eq_true, if_false]
    split_ifs <;> exact ih hrest _ _

theorem isSym_eq_of_isArith {t : Token} (ht : isArith t = true) : t.isSym "=" = false := by
  rcases Expr.isArith_cases ht with ⟨n, rfl⟩ | ⟨s, rfl⟩
  · rfl
  · have hs : s ≠ "=" := by
      rintro rfl
      simp [isArith, symbols] at ht
    simpa [Token.isSym] using hs

theorem continuing_of_previous_nil {s : Session} (h : s.previous = []) (ts : List Token) :
    s.continuing ts = ts := by
  unfold Session.continuing
  split <;> simp [h]

theorem evaluate_tokens (s : Session) (hlib : s.library = Library.builtins)
    (hprev : s.previous = []) (e : Expr Number) (hg : e.Grammatical) (hn : e.NoNegatedExponent)
    {v : Number} (hv : e.eval = .ok v) (hsize : e.size ≤ s.maxSteps) :
    (s.evaluate e.tokens).1.result = .ok [.num v] ∧ (s.evaluate e.tokens).2.steps = e.size := by
  obtain ⟨hws, hnormal, hcount⟩ :=
    reduceWith_tokens s.maxSteps (s.maxSteps + 2) 1 e hg hn hv {} (by simpa using hsize)
      (by omega)
  have hne : e.tokens.isEmpty = false := by
    simpa using Expr.tokens_ne_nil e
  unfold Session.evaluate
  rw [hne, continuing_of_previous_nil hprev, hlib]
  simp only [Library.reduce, Bool.false_eq_true, if_false]
  simp [hws, hnormal, hcount]

theorem evaluate_stuckExponent (s : Session) (hlib : s.library = Library.builtins)
    (hprev : s.previous = []) (ts : List Token) (hts : ∀ t ∈ ts, isArith t = true)
    (hs : stuckExponent ts = true) (v : Number) : (s.evaluate ts).1.result ≠ .ok [.num v] := by
  have hne : ts.isEmpty = false := by
    cases ts with
    | nil => simp [stuckExponent] at hs
    | cons => rfl
  have hstuck := reduceWith_stuckExponent s.maxSteps (s.maxSteps + 2) 1 ts {} hts hs
  unfold Session.evaluate
  rw [hne, continuing_of_previous_nil hprev, hlib]
  simp only [Library.reduce, Bool.false_eq_true, if_false]
  by_cases hnormal : (Library.builtins.reduceWith s.maxSteps (s.maxSteps + 2) 1 ts {}).1.normal
  · simp only [hnormal, if_true, ne_eq, Except.ok.injEq]
    intro hws
    simp [hws, stuckExponent] at hstuck
  · simp [hnormal]

/-! ### A line of arithmetic -/

theorem enter_text (s : Session) (e : Expr Numeral) {ev : Expr Number} (hread : e.read = some ev) :
    s.enter e.text = s.evaluate ev.tokens := by
  rw [Session.enter, Expr.lex_text e hread]
  simp only [Tokens.splitDefinition, splitDefinition_go_eq_none _
    (fun t ht => isSym_eq_of_isArith (Expr.tokens_arith ev t ht))]

/-- A line holding the text of a tree of the grammar, whose
literals are all read and whose value is `v`, is answered by `v` after one step per operator,
minus sign and pair of parentheses exactly when no power of the tree has a negated exponent.
Within the budget nothing else stops the reduction; a negated exponent leaves the line stuck
short of its value, since the minus sign refuses to fire after `^`. -/
theorem enter_text_iff (s : Session) (hlib : s.library = Library.builtins)
    (hprev : s.previous = []) (e : Expr Numeral) {ev : Expr Number} (hread : e.read = some ev)
    (hg : e.Grammatical) {v : Number} (hv : ev.eval = .ok v) (hsize : e.size ≤ s.maxSteps) :
    ((s.enter e.text).1.result = .ok [.num v] ∧ (s.enter e.text).2.steps = e.size) ↔
      e.NoNegatedExponent := by
  rw [enter_text s e hread]
  -- the values keep the shape of the tree, so its size, grammar and exponents carry over
  obtain rfl := Expr.read_eq_map hread
  constructor
  · rintro ⟨hres, -⟩
    by_contra hn
    exact evaluate_stuckExponent s hlib hprev _ (Expr.tokens_arith _)
      (Expr.stuckExponent_tokens _ (by simpa using hn)) v hres
  · intro hn
    simpa using evaluate_tokens s hlib hprev _ (by simpa using hg) (by simpa using hn) hv
      (by simpa using hsize)

/-- `2 ^ - 2` has the value `1/4`, yet a fresh session does not answer it so. -/
theorem enter_two_pow_neg_two :
    let two : Numeral :=
      ⟨['2'], none, none, ⟨List.cons_ne_nil _ _, fun c hc => by rw [List.mem_singleton.1 hc]; rfl⟩,
        by simp⟩
    let e : Expr Numeral := .bin .pow (.lit two) (.neg (.lit two))
    ¬ (((Session.build []).enter e.text).1.result = .ok [.num (.exact (1 / 4))] ∧
      ((Session.build []).enter e.text).2.steps = e.size) := by
  intro two e
  have hq : readNumber? two.text = some 2 := by decide +kernel
  have hread : e.read = some (.bin .pow (.lit (.exact 2)) (.neg (.lit (.exact 2)))) := by
    simp [e, Expr.read, Numeral.value?, hq]
  -- the exact power builds `mkRat 1 4` by its own arithmetic
  have hv : (Expr.bin .pow (.lit (.exact 2)) (.neg (.lit (.exact 2)))).eval = .ok (.exact (1 / 4)) := by
    show Except.ok (Number.exact (mkRat _ _)) = _
    congr 2
    decide +kernel
  rw [enter_text_iff (Session.build []) rfl rfl e hread (by decide) hv (by decide)]
  decide

end Arith

end Reckon

import Reckon.Proofs.Nested.Scan
import Reckon.Proofs.Arith.Evaluate

/-!
# Evaluating lists and maps

A pass of the built-in rules over the tokens of a term performs the term's step
(`Nested.firing?_of_step`), so a reduction follows the steps down to the term's value: one step
per operator, minus sign and pair of parentheses of its trees of arithmetic, and one per bracket
(`Nested.reduceWith_term`).

In a fresh session, the tokens of a term whose trees of arithmetic are of the grammar are
therefore answered by the term's value after exactly its size in steps
(`Nested.evaluate_term`). Each part of a list or a map is reduced as it would be alone, so the
steps of a bracket are those of its parts and one for the fold: `[ e1 , ... , en ]` folds to the
list of the values of the parts, `[ e1 , ... , en ... et ]` puts them before the list `et` comes
to, and `{ k1 : w1 , ... , km : wm }` builds the map of the values of its entries, a later key
overriding an earlier equal one.
-/

namespace Reckon

namespace Nested

open Arith (Expr scanWith)

namespace Term

theorem tokens_ne_nil (t : Term) : t.tokens ≠ [] := by
  cases t with
  | arith e => exact Arith.Expr.tokens_ne_nil e
  | _ => simp [tokens]

theorem mem_tokensItems {tok : Token} {xs : List Term} (h : tok ∈ tokensItems xs) :
    tok = .sym "," ∨ ∃ x ∈ xs, tok ∈ x.tokens := by
  induction xs with
  | nil => simp [tokensItems] at h
  | cons x xs ih =>
    simp only [tokensItems, List.cons_append, List.mem_cons, List.mem_append] at h
    rcases h with h | h | h
    · exact .inl h
    · exact .inr ⟨x, List.mem_cons_self, h⟩
    · rcases ih h with h | ⟨y, hy, h⟩
      · exact .inl h
      · exact .inr ⟨y, List.mem_cons_of_mem _ hy, h⟩

theorem mem_tokensEntries {tok : Token} {es : List (Term × Term)} (h : tok ∈ tokensEntries es) :
    tok = .sym "," ∨ tok = .sym ":" ∨ ∃ e ∈ es, tok ∈ e.1.tokens ∨ tok ∈ e.2.tokens := by
  induction es with
  | nil => simp [tokensEntries] at h
  | cons e es ih =>
    obtain ⟨k, v⟩ := e
    simp only [tokensEntries, List.cons_append, List.mem_cons, List.mem_append] at h
    rcases h with h | (h | h | h) | h
    · exact .inl h
    · exact .inr (.inr ⟨(k, v), List.mem_cons_self, .inl h⟩)
    · exact .inr (.inl h)
    · exact .inr (.inr ⟨(k, v), List.mem_cons_self, .inr h⟩)
    · rcases ih h with h | h | ⟨f, hf, h⟩
      · exact .inl h
      · exact .inr (.inl h)
      · exact .inr (.inr ⟨f, List.mem_cons_of_mem _ hf, h⟩)

theorem isNested_sym {s : String} (h : s ∈ ["[", "]", "\x7b", "\x7d", ",", ":", "..."]) :
    isNested (.sym s) = true := by
  simp [isNested, Token.isStructure, h]

theorem tokensItems_nested {xs : List Term}
    (ih : ∀ x ∈ xs, ∀ {w}, x.eval = some w → ∀ tok ∈ x.tokens, isNested tok = true)
    {us : List Token} (hus : evalItems xs = some us) :
    ∀ tok ∈ tokensItems xs, isNested tok = true := by
  intro tok htok
  rcases mem_tokensItems htok with rfl | ⟨x, hx, htok⟩
  · exact isNested_sym (by simp)
  · obtain ⟨w, hw⟩ := eval_of_mem_items hus x hx
    exact ih x hx hw tok htok

theorem tokensEntries_nested {es : List (Term × Term)}
    (ih : ∀ e ∈ es, (∀ {w}, e.1.eval = some w → ∀ tok ∈ e.1.tokens, isNested tok = true) ∧
      ∀ {w}, e.2.eval = some w → ∀ tok ∈ e.2.tokens, isNested tok = true)
    {ps : List (Token × Token)} (hps : evalEntries es = some ps) :
    ∀ tok ∈ tokensEntries es, isNested tok = true := by
  intro tok htok
  rcases mem_tokensEntries htok with rfl | rfl | ⟨e, he, htok | htok⟩
  · exact isNested_sym (by simp)
  · exact isNested_sym (by simp)
  · obtain ⟨⟨a, ha⟩, -⟩ := eval_of_mem_entries hps e he
    exact (ih e he).1 ha tok htok
  · obtain ⟨-, ⟨b, hb⟩⟩ := eval_of_mem_entries hps e he
    exact (ih e he).2 hb tok htok

theorem tokens_nested (t : Term) :
    ∀ {w}, t.eval = some w → ∀ tok ∈ t.tokens, isNested tok = true := by
  induction t using Term.induction with
  | arith e =>
    intro _ _ tok htok
    simp [isNested, e.tokens_arith tok htok]
  | value v =>
    intro w hw tok htok
    have hv : v.isValue = true := by
      by_cases h : v.isValue <;> simp_all [eval]
    simp only [tokens, List.mem_singleton] at htok
    simp [isNested, htok, hv]
  | list xs ih =>
    intro w hw tok htok
    obtain ⟨us, hus, -⟩ := Option.map_eq_some_iff.1 hw
    simp only [tokens, List.cons_append, List.mem_cons, List.mem_append, List.not_mem_nil,
      or_false] at htok
    rcases htok with rfl | htok | rfl
    · exact isNested_sym (by simp)
    · exact tokensItems_nested ih hus tok (List.mem_of_mem_tail htok)
    · exact isNested_sym (by simp)
  | listTail xs t ihs ih =>
    intro w hw tok htok
    obtain ⟨us, hus, hw⟩ := Option.bind_eq_some_iff.1 hw
    obtain ⟨a, ha, -⟩ := Option.bind_eq_some_iff.1 hw
    simp only [tokens, List.cons_append, List.mem_cons, List.mem_append, List.not_mem_nil,
      or_false, or_assoc] at htok
    rcases htok with rfl | htok | rfl | htok | rfl
    · exact isNested_sym (by simp)
    · exact tokensItems_nested ihs hus tok (List.mem_of_mem_tail htok)
    · exact isNested_sym (by simp)
    · exact ih ha tok htok
    · exact isNested_sym (by simp)
  | map es ih =>
    intro w hw tok htok
    obtain ⟨ps, hps, -⟩ := Option.map_eq_some_iff.1 hw
    simp only [tokens, List.cons_append, List.mem_cons, List.mem_append, List.not_mem_nil,
      or_false] at htok
    rcases htok with rfl | htok | rfl
    · exact isNested_sym (by simp)
    · exact tokensEntries_nested ih hps tok (List.mem_of_mem_tail htok)
    · exact isNested_sym (by simp)
  | mapRest es r ihs ih =>
    intro w hw tok htok
    obtain ⟨ps, hps, hw⟩ := Option.bind_eq_some_iff.1 hw
    obtain ⟨a, ha, -⟩ := Option.bind_eq_some_iff.1 hw
    simp only [tokens, List.cons_append, List.mem_cons, List.mem_append, List.not_mem_nil,
      or_false, or_assoc] at htok
    rcases htok with rfl | htok | rfl | htok | rfl
    · exact isNested_sym (by simp)
    · exact tokensEntries_nested ihs hps tok (List.mem_of_mem_tail htok)
    · exact isNested_sym (by simp)
    · exact ih ha tok htok
    · exact isNested_sym (by simp)

end Term

/-! ### The run -/

theorem firing?_value {w : Token} (hw : w.isValue = true) : Library.builtins.firing? [w] = none := by
  rw [firing?_builtins [w] (by simp [isNested, hw])]
  have hfire : fire [] [w] = none := by
    rw [fire, foldFire_eq_none (by simpa using Builtin.value_ne_sym hw "[")
      (by simpa using Builtin.value_ne_sym hw "\x7b"), Option.or_none]
    simp [Arith.localFire, Arith.arithRules, Arith.rewriteWindow, Arith.parensAt, Arith.negateAt,
      Arith.binaryAt]
  simp [scanWith, hfire]

theorem firing?_of_step {t t' : Term} (ht' : t.step = some t') (hv : t.Valid) {w : Token}
    (hw : t.eval = some w) :
    ∃ r pos, Library.builtins.firing? t.tokens = some (.rewritten r pos t'.tokens) := by
  obtain ⟨r, pos, hscan⟩ := scan_term t ht' hv [] [] rfl rfl
  refine ⟨r, pos, ?_⟩
  rw [firing?_builtins _ (t.tokens_nested hw)]
  simpa using hscan

/-- Within the budget and the fuel, the built-in rules reduce the tokens of a term
of the grammar with a value to that value, one step per node of its trees of arithmetic and one
per bracket. -/
theorem reduceWith_term (limit fuel depth : Nat) (t : Term) (hv : t.Valid) {W : Token}
    (hw : t.eval = some W) (p : Progress) (hsteps : p.steps + t.size ≤ limit)
    (hfuel : t.size < fuel) :
    (Library.builtins.reduceWith limit fuel depth t.tokens p).1.workspace = [W] ∧
      (Library.builtins.reduceWith limit fuel depth t.tokens p).1.normal = true ∧
      (Library.builtins.reduceWith limit fuel depth t.tokens p).2.steps = p.steps + t.size := by
  -- the terms along the steps keep the grammar and the value
  let P (t : Term) : Prop := t.Valid ∧ t.eval = some W
  have hnext : ∀ t t', P t → t.step = some t' → P t' ∧ t'.size + 1 = t.size ∧
      ∃ r pos, Library.builtins.firing? t.tokens = some (.rewritten r pos t'.tokens) := by
    rintro t t' ⟨hv, hw⟩ ht'
    refine ⟨⟨Term.step_valid t ht' hv, ?_⟩, Term.step_size t ht', firing?_of_step ht' hv hw⟩
    rw [Term.step_eval t ht', hw]
  have hlast : ∀ t, P t → t.step = none →
      t.size = 0 ∧ Library.builtins.firing? t.tokens = none := by
    rintro t ⟨-, hw⟩ hnone
    have hval := Term.value?_of_step_eq_none hnone hw
    rw [Term.size_of_value? hval, Term.tokens_of_value? hval]
    exact ⟨rfl, firing?_value (Term.isValue_of_value? hval)⟩
  obtain ⟨y, ⟨-, hy⟩, hyn, hres, hcount⟩ := Library.builtins.reduceWith_chain Term.tokens
    Term.size Term.step P hnext hlast limit fuel depth t ⟨hv, hw⟩ p hsteps hfuel
  -- the last term is the value
  rw [hres, Term.tokens_of_value? (Term.value?_of_step_eq_none hyn hy)]
  exact ⟨rfl, rfl, hcount⟩

/-- The tokens of a term whose trees of arithmetic are of
the grammar with no negated exponent, and whose parts all have values, are answered by the
term's value after one step per arithmetic operator, minus sign and pair of parentheses, and one
per bracket, when that many steps are within the budget. -/
theorem evaluate_term (s : Session) (hlib : s.library = Library.builtins)
    (hprev : s.previous = []) (t : Term) (hv : t.Valid) {W : Token} (hw : t.eval = some W)
    (hsize : t.size ≤ s.maxSteps) :
    (s.evaluate t.tokens).1.result = .ok [W] ∧ (s.evaluate t.tokens).2.steps = t.size := by
  obtain ⟨hws, hnormal, hcount⟩ :=
    reduceWith_term s.maxSteps (s.maxSteps + 2) 1 t hv hw {} (by simpa using hsize) (by omega)
  have hne : t.tokens.isEmpty = false := by
    simpa using Term.tokens_ne_nil t
  unfold Session.evaluate
  rw [hne, Arith.continuing_of_previous_nil hprev, hlib]
  simp only [Library.reduce, Bool.false_eq_true, if_false]
  simp [hws, hnormal, hcount]

end Nested

end Reckon

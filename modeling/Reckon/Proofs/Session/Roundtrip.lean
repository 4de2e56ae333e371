import Reckon.Proofs.Pattern.Rebuild
import Reckon.Proofs.Rule.Definition

/-!
# A definition that rebuilds its argument

The definition `f P = P` takes its argument apart by the template of `P` and puts it back by the
folding rules. In a session that holds it after the built-in rules, the call `f V` on a value
the template matches enters the text of `P` with the bindings of the first match; the folding
rules fold that text bracket by bracket, and the call answers the folded value, after one step
for the definition and one for each list and map pattern of `P` (`Session.evaluate_define_fold`).

That value equals `V` where `P` keeps its keys (`Session.evaluate_define_rebuilds`), by
`Written.Pattern.rebuilds`. Where a literal map pattern's remainder gives one of its keys another
value, the compiler lets the remainder win and the folding rule the entries, and the call
answers another map (`Session.evaluate_define_merge_order`).
-/

namespace Reckon

namespace Builtin

theorem rules_template_not_f :
    (rules.all fun r => r.template.all fun t => !t.isSym "f") = true := by decide

theorem rules_others : ∀ r ∈ rules, r = listFold.rule ∨ r = mapFold.rule ∨
    ∃ s, Token.sym s ∈ r.template ∧ (Token.sym s).isStructure = false := by
  intro r hr
  obtain ⟨b, hb, rfl⟩ := List.mem_map.1 hr
  cases b with
  | listFold => exact .inl rfl
  | mapFold => exact .inr (.inl rfl)
  | binary op =>
    exact .inr (.inr ⟨op.symbol, by simp [rule, template], by cases op <;> rfl⟩)
  | «alias» words target =>
    simp only [List.mem_cons, List.not_mem_nil, or_false, false_or, reduceCtorEq, alias.injEq] at hb
    rcases hb with h | h | h | h | h | h | h | h | h <;> obtain ⟨rfl, rfl⟩ := h
    all_goals exact .inr (.inr ⟨_, List.mem_cons_self, by rfl⟩)
  | parens | negate | logicalNot | conditional | lookup =>
    exact .inr (.inr ⟨_, List.mem_cons_self, rfl⟩)

end Builtin

namespace Written.Pattern

theorem compile_noSymbolVar {P : Written} (hP : P.Pattern) : Compiler.NoSymbolVar P.compile := by
  induction hP with
  | placeholder h => simp [Compiler.NoSymbolVar, compile, Compiler.placeholder, h]
  | literal h =>
    rcases h with ⟨n, rfl, -⟩ | ⟨s, rfl⟩ | ⟨b, rfl⟩ <;>
      simp [Compiler.NoSymbolVar, compile, Compiler.placeholder]
  | list => exact Compiler.noSymbolVar_list _
  | listTail _ _ _ _ iht => exact Compiler.noSymbolVar_foldr_listCap _ iht
  | map => exact Compiler.noSymbolVar_finishMap _ (Compiler.noSymbolVar_map [])
  | mapRest _ _ _ _ _ _ ihr => exact Compiler.noSymbolVar_finishMap _ ihr

end Written.Pattern

namespace Written

theorem text_instantiate (b : Bindings) (P : Written) :
    (P.instantiate b).text = b.instantiate (P.text.map Compiler.placeholder) := by
  rw [instantiate, text_mapWords, Bindings.instantiate, List.map_map]
  -- a symbol of the bracket language is no placeholder, and substituting keeps it
  intro t ht
  cases t with
  | sym s => simp [Compiler.placeholder, Compiler.isPlaceholderName_of_isStructure ht,
      Bindings.substitute]
  | _ => simp [Token.isStructure] at ht

end Written

namespace Library

theorem folds_register {r : Rule} {s : String} (hs : Token.sym s ∈ r.template)
    (hstruct : (Token.sym s).isStructure = false) : (builtins.register r).Folds where
  listFold := List.mem_append_left _ (List.mem_map_of_mem (by simp))
  mapFold := List.mem_append_left _ (List.mem_map_of_mem (by simp))
  others r' hr' := by
    rcases List.mem_append.1 hr' with hr' | hr'
    · exact Builtin.rules_others r' hr'
    · rw [List.mem_singleton.1 hr']
      exact .inr (.inr ⟨s, hs, hstruct⟩)

theorem reduceWith_entered {lib : Library} {limit fuel depth : Nat} {ws : List Token}
    {p : Progress} (hfuel : 0 < fuel) (hlim : p.steps ≤ limit) {r : Rule} {pos : Nat}
    {body : List Token} (h : lib.firing? ws = some (.entered r pos body)) {inner : List Token}
    {q : Progress}
    (hinner : lib.reduceWith limit (fuel - 1) (depth + 1) body ⟨p.steps + 1, p.trace⟩ =
      (⟨inner, true⟩, q)) :
    lib.reduceWith limit fuel depth ws p =
      lib.reduceWith limit (fuel - 1) depth (Tokens.splice ws pos (pos + r.template.length) inner)
        ⟨q.steps, q.trace.push ⟨p.steps + 1, depth, r.name, pos,
          Tokens.splice ws pos (pos + r.template.length) inner⟩⟩ := by
  obtain ⟨f, rfl⟩ : ∃ f, fuel = f + 1 := ⟨fuel - 1, by omega⟩
  rw [reduceWith, if_neg (by omega), h]
  simp only [Nat.add_sub_cancel] at hinner ⊢
  simp only [hinner, if_true]

theorem isInfix_register_call {r : Rule} {c : Token} (htmpl : r.template = [.sym "f", c]) :
    (builtins.register r).isInfix "f" = false := by
  have hbuiltins : builtins.isInfix "f" = false := by decide
  simp only [isInfix, register, List.any_append, List.any_cons, List.any_nil, htmpl,
    Bool.or_false]
  exact hbuiltins

theorem firstMatch_call (c V : Token) :
    Template.firstMatch [.sym "f", c] [.sym "f", V] 0 = (Pattern.matchOne c V []).head? := by
  have hnil : Pattern.matchAll [] = fun b => [b] := funext Pattern.matchAll_nil
  rw [Template.firstMatch_eq_head, Template.allMatches]
  simp [Pattern.matchOne_sym, Token.isSym, hnil]

section Call

variable {r : Rule} {c : Token} {repl : List Token} (htmpl : r.template = [.sym "f", c])
  (hsub : r.subordinateTo = []) (hact : r.action = .rewrite repl)
include htmpl hsub hact

/-- No built-in rule fires on it, and a rule of template `f c` registered
after them enters its replacement with the first match of the template. -/
theorem firing?_call (hc : Compiler.NoSymbolVar c) {V : Token} (hval : V.isValue = true)
    {b : Bindings} (hb : Template.firstMatch [.sym "f", c] [.sym "f", V] 0 = some b) :
    (builtins.register r).firing? [.sym "f", V] = some (.entered r 0 (b.instantiate repl)) := by
  -- every built-in template holds a symbol other than `f`, which the call lacks
  have hnone : builtins.rules.findSome? (attempt · [.sym "f", V] 0) = none := by
    rw [List.findSome?_eq_none_iff]
    intro r' hr'
    obtain ⟨b', rfl, hb'⟩ := Builtin.plain_of_mem_rules hr'
    obtain ⟨s, hs⟩ := Builtin.exists_sym_mem_template hb'
    have hsf : s ≠ "f" := by
      rintro rfl
      have hall := List.all_eq_true.1 (List.all_eq_true.1 Builtin.rules_template_not_f _ hr') _ hs
      simp [Token.isSym] at hall
    have hws : Token.sym s ∉ [.sym "f", V] := by
      simp [hsf, (Builtin.value_ne_sym hval s).symm]
    exact attempt_eq_none_of_sym (r := b'.rule) hs [] _ hws
  have hfits : fits r.template [.sym "f", V] 0 = true := by
    rw [htmpl]
    refine fits_of_firstMatch (fun n hn => ?_) hb
    rcases List.mem_cons.1 hn with hn | hn
    · cases hn
    · exact hc n (List.mem_singleton.1 hn).symm
  have hat : attempt r [.sym "f", V] 0 = some (.entered r 0 (b.instantiate repl)) := by
    unfold attempt
    rw [hfits, Bool.or_true, if_pos rfl, if_pos (by simp [Rule.eligible, hsub])]
    unfold Rule.fire
    rw [hact, htmpl]
    simp only [Nat.cast_zero, hb, Option.map_some]
  refine firing?_eq_of_first 0 (by simp) [] (by simp) (by simp) ?_
  rw [register, List.findSome?_append, hnone, Option.none_or]
  simp [hat]

/-- The rule enters the text of `P` with the bindings of the
first match, the folding rules fold it, and the pass after that finds a value: one step for the
definition and one for each list and map pattern. -/
theorem reduce_call {P : Written} (hP : P.Pattern) (hc : c = P.compile)
    (hrepl : repl = P.text.map Compiler.placeholder) {V : Token} (hval : V.isValue = true)
    {b : Bindings} (hb : Template.firstMatch [.sym "f", c] [.sym "f", V] 0 = some b) {W : Token}
    (hW : (P.instantiate b).fold? = some W) {limit : Nat} (hlim : 1 + P.brackets ≤ limit) :
    ∃ q, (builtins.register r).reduce limit [.sym "f", V] = (⟨[W], true⟩, q) ∧
      q.steps = 1 + P.brackets := by
  subst hc hrepl
  have hlib := folds_register (s := "f") (by rw [htmpl]; exact List.mem_cons_self) rfl
  have hfire := firing?_call htmpl hsub hact hP.compile_noSymbolVar hval hb
  have hbr : (P.instantiate b).brackets = P.brackets := Written.brackets_mapWords _ P
  -- inside the call, the folding rules fold the instantiated text
  obtain ⟨t, hinner⟩ : ∃ t, (builtins.register r).reduceWith limit (limit + 2 - 1) (1 + 1)
      (P.instantiate b).text ⟨({} : Progress).steps + 1, ({} : Progress).trace⟩ =
        (⟨[W], true⟩, ⟨({} : Progress).steps + 1 + (P.instantiate b).brackets, t⟩) :=
    reduceWith_text hlib hW (by omega) (by dsimp only; omega)
  rw [Written.text_instantiate] at hinner
  have hsplice : Tokens.splice [.sym "f", V] 0 (0 + r.template.length) [W] = [W] := by
    simp [Tokens.splice, htmpl]
  have hvalue : (builtins.register r).firing? [W] = none :=
    firing?_eq_none_of_values hlib (by simpa using Written.fold?_isValue hW)
  unfold reduce
  rw [reduceWith_entered (by omega) (by simp) hfire hinner, hsplice,
    reduceWith_normal (by omega) (by dsimp only; omega) hvalue]
  refine ⟨_, rfl, ?_⟩
  dsimp only
  omega

end Call

end Library

namespace Session

/-- In a session of the built-in rules that enters `f P = P`,
the call on a value that the template of `P` matches answers the value the folding rules build
from the text of `P` with the bindings of the first match, after one step for the definition
and one for each list and map pattern of `P`, when the budget allows them. -/
theorem evaluate_define_fold {s : Session} (hs : s.library = Library.builtins) {P : Written}
    (hP : P.Pattern) {V : Token} (hval : V.isValue = true) {b : Bindings}
    (hb : (Pattern.matchOne P.compile V []).head? = some b) {W : Token}
    (hW : (P.instantiate b).fold? = some W) (hbudget : 1 + P.brackets ≤ s.maxSteps) :
    ((s.define (.sym "f" :: P.text) P.text).2.evaluate [.sym "f", V]).1.result = .ok [W] ∧
      ((s.define (.sym "f" :: P.text) P.text).2.evaluate [.sym "f", V]).2.steps =
        1 + P.brackets := by
  -- the rule the definition registers
  obtain ⟨r, hr, htmpl, hsub, hact⟩ : ∃ r, Rule.compile (.sym "f" :: P.text) P.text = .ok r ∧
      r.template = [.sym "f", P.compile] ∧ r.subordinateTo = [] ∧
      r.action = .rewrite (P.text.map Compiler.placeholder) :=
    ⟨_, Rule.compile_text hP, rfl, rfl, rfl⟩
  obtain ⟨q, hq, hsteps⟩ := Library.reduce_call htmpl hsub hact hP rfl rfl hval
    (by rw [Library.firstMatch_call]; exact hb) hW hbudget
  have hinfix := Library.isInfix_register_call htmpl
  simp only [define, hr, register, hs]
  simp [evaluate, continuing, hinfix, hq, hsteps]

/-- Enter `f P = P` in a session of the
built-in rules, for a pattern `P` that keeps its keys. A call `f V` on a value without NaN whose
lists and maps hold values, and that the template of the definition matches, answers one token
equal to `V`, after one step for the definition and one for each `[` and `{` of the text of `P`,
when the budget allows them. -/
theorem evaluate_define_rebuilds {s : Session} (hs : s.library = Library.builtins) {P : Written}
    (hP : P.Pattern) (hk : P.KeepsKeys) {V : Token} (hV : V.Matchable) (hval : V.isValue = true)
    (hmatch : (Template.firstMatch [.sym "f", P.compile] [.sym "f", V] 0).isSome)
    (hbudget : 1 + P.text.countP (fun t => t.isSym "[" || t.isSym "\x7b") ≤ s.maxSteps) :
    ∃ W, W.equal V = true ∧
      ((s.define (.sym "f" :: P.text) P.text).2.evaluate [.sym "f", V]).1.result = .ok [W] ∧
      ((s.define (.sym "f" :: P.text) P.text).2.evaluate [.sym "f", V]).2.steps =
        1 + P.text.countP (fun t => t.isSym "[" || t.isSym "\x7b") := by
  rw [Written.Pattern.countP_text hP] at hbudget ⊢
  rw [Library.firstMatch_call] at hmatch
  obtain ⟨b, hb⟩ := Option.isSome_iff_exists.1 hmatch
  -- the first match is a match, from no bindings, so the folded text gives the value back
  have hmem : b ∈ Pattern.matchOne P.compile V [] := List.mem_of_head? hb
  obtain ⟨W, hW, -, hWV⟩ := Written.Pattern.rebuilds hP hk V [] b hV hval (by simp) hmem []
  rw [List.append_nil] at hW
  exact ⟨W, hWV, evaluate_define_fold hs hP hval hb hW hbudget⟩

/-- The definition `f [X] = [X]` on `f [true]`. -/
theorem evaluate_define_rebuilds_list :
    (Written.list [.word (.sym "X")]).Pattern ∧ (Written.list [.word (.sym "X")]).KeepsKeys ∧
    (Token.list [.bool true]).Matchable ∧
    (Template.firstMatch [.sym "f", (Written.list [.word (.sym "X")]).compile]
      [.sym "f", .list [.bool true]] 0).isSome ∧
    ∃ W, W.equal (.list [.bool true]) = true ∧
      (((Session.build []).define (.sym "f" :: (Written.list [.word (.sym "X")]).text)
        (Written.list [.word (.sym "X")]).text).2.evaluate [.sym "f", .list [.bool true]]).1.result =
        .ok [W] ∧
      (((Session.build []).define (.sym "f" :: (Written.list [.word (.sym "X")]).text)
        (Written.list [.word (.sym "X")]).text).2.evaluate [.sym "f", .list [.bool true]]).2.steps =
        1 + (Written.list [.word (.sym "X")]).text.countP (fun t => t.isSym "[" || t.isSym "\x7b") := by
  have hX : Compiler.isPlaceholderName "X" = true := by decide +kernel
  have hP : (Written.list [.word (.sym "X")]).Pattern := .list fun x hx => by
    rw [List.mem_singleton.1 hx]
    exact .placeholder hX
  have hk : (Written.list [.word (.sym "X")]).KeepsKeys := .list fun x hx => by
    rw [List.mem_singleton.1 hx]
    exact .word
  have hV : (Token.list [.bool true]).Matchable := Token.Matchable.list fun x hx => by
    rw [List.mem_singleton.1 hx]
    exact ⟨rfl, ⟨rfl, rfl⟩, rfl⟩
  have hmatch : (Template.firstMatch [.sym "f", (Written.list [.word (.sym "X")]).compile]
      [.sym "f", .list [.bool true]] 0).isSome := by
    have hnil : Pattern.matchAll [] = fun b => [b] := funext Pattern.matchAll_nil
    rw [Library.firstMatch_call]
    simp [Written.compile, Written.compileItems, Compiler.placeholder, hX, Pattern.matchOne_list,
      Pattern.matchOne_var, Token.hasPlaceholder, Token.hasPlaceholder.anyItem, Token.accepts,
      Token.isValue, Token.kind, hnil]
  have hbudget : 1 + (Written.list [.word (.sym "X")]).text.countP
      (fun t => t.isSym "[" || t.isSym "\x7b") ≤ (Session.build []).maxSteps := by
    simp [Written.text, Written.textItems, Token.isSym, Session.build, Session.draft,
      defaultMaxSteps]
  exact ⟨hP, hk, hV, hmatch, evaluate_define_rebuilds rfl hP hk hV rfl hmatch hbudget⟩

/-- The template of
`f {true: true ... {true: false}} = {true: true ... {true: false}}` is the map `{true: false}`,
where the compiler lets the remainder win, and it matches `{true: false}`; the folding rule lets
the entry win, and the call answers `{true: true}`. -/
theorem evaluate_define_merge_order :
    ¬ ∀ (s : Session) (P : Written) (V : Token), s.library = Library.builtins → P.Pattern →
      V.Matchable → V.isValue = true →
      (Template.firstMatch [.sym "f", P.compile] [.sym "f", V] 0).isSome →
      ∃ W, W.equal V = true ∧
        ((s.define (.sym "f" :: P.text) P.text).2.evaluate [.sym "f", V]).1.result = .ok [W] := by
  intro h
  have hbool : ∀ b : Bool, (Written.word (.bool b)).Pattern := fun b =>
    .literal (.inr (.inr ⟨b, rfl⟩))
  have hc : (Written.mapRest [(.word (.bool true), .word (.bool true))]
      (.map [(.word (.bool true), .word (.bool false))])).compile =
      .map [(.bool true, .bool false)] := by
    simp [Written.compile, Written.compileEntries, Compiler.finishMap, Compiler.placeholder,
      Token.hasPlaceholder, Token.hasPlaceholder.anyEntry, Entries.merge, Entries.build,
      Entries.insert, Entries.findKey?, Token.equal]
  have hP : (Written.mapRest [(.word (.bool true), .word (.bool true))]
      (.map [(.word (.bool true), .word (.bool false))])).Pattern := by
    refine .mapRest (fun f hf => ?_) (fun f hf => ?_)
      (.map (fun f hf => ?_) (fun f hf => ?_)) ?_
    · rw [List.mem_singleton.1 hf]
      exact hbool true
    · rw [List.mem_singleton.1 hf]
      exact hbool true
    · rw [List.mem_singleton.1 hf]
      exact hbool true
    · rw [List.mem_singleton.1 hf]
      exact hbool false
    · simp [Written.compile, Written.compileEntries, Compiler.finishMap, Compiler.placeholder,
        Token.hasPlaceholder, Token.hasPlaceholder.anyEntry, Compiler.fitsKind, Token.kind]
  have hV : (Token.map [(.bool true, .bool false)]).Matchable := by
    refine ⟨⟨?_, rfl⟩, rfl⟩
    simp [Entries.keysApart, Token.wellKeyed, Token.wellKeyed.allEntries]
  -- the template is the map itself, so it matches from no bindings and binds nothing
  have hequal : (Token.map [(.bool true, .bool false)]).equal (.map [(.bool true, .bool false)]) =
      true := by
    simp [Token.equal_map_map, Entries.found, Entries.get?, Token.equal]
  have hb : (Pattern.matchOne (Written.mapRest [(.word (.bool true), .word (.bool true))]
      (.map [(.word (.bool true), .word (.bool false))])).compile
      (.map [(.bool true, .bool false)]) []).head? = some [] := by
    rw [hc, Pattern.matchOne_of_hasPlaceholder rfl, if_pos hequal]
    rfl
  have hW : ((Written.mapRest [(.word (.bool true), .word (.bool true))]
      (.map [(.word (.bool true), .word (.bool false))])).instantiate []).fold? =
      some (.map [(.bool true, .bool true)]) := by
    rw [Written.instantiate_of_literal (by rw [hc]; rfl)]
    simp [Written.fold?, Written.foldEntries?, Token.isValue, Token.kind, Entries.merge,
      Entries.build, Entries.insert, Entries.findKey?, Token.equal]
  have hbudget : 1 + (Written.mapRest [(.word (.bool true), .word (.bool true))]
      (.map [(.word (.bool true), .word (.bool false))])).brackets ≤ (Session.build []).maxSteps := by
    simp [Written.brackets, Written.bracketsEntries, Session.build, Session.draft, defaultMaxSteps]
  obtain ⟨W, hWV, hres⟩ := h (Session.build []) _ _ rfl hP hV rfl
    (by rw [Library.firstMatch_call, hb]; rfl)
  rw [(evaluate_define_fold rfl hP rfl hb hW hbudget).1] at hres
  obtain rfl : W = .map [(.bool true, .bool true)] := by
    simp only [Except.ok.injEq, List.cons.injEq, and_true] at hres
    exact hres.symm
  have hne : (Token.map [(.bool true, .bool true)]).equal (.map [(.bool true, .bool false)]) =
      false := by
    simp [Token.equal_map_map, Entries.found, Entries.get?, Token.equal]
  rw [hne] at hWV
  exact Bool.false_ne_true hWV

end Session

end Reckon

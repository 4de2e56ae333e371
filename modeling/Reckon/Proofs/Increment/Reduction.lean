import Reckon.Config.Basic
import Reckon.Proofs.Nested.Scan
import Reckon.Proofs.Session.Roundtrip

/-!
# Incrementing a list

The default configuration defines `increment` on lists by two rules, `increment [] = []` and
`increment [H ... T] = [H + 1 ... increment T]` (`Increment.library`, with the built-in rules
before them). On a list of `n` numbers the call costs `3 n + 2` steps: each element one for the
rule that takes it off, charged as its nested reduction starts, one for the addition and one for
folding the tail form `[h + 1 ... t]` back into a list; the empty list one for its rule and one for
folding `[ ]`. Written out as `increment [a₁, …, aₙ]`, the list is folded first, for `3 n + 3`
steps in all (`Increment.reduce_written`).

Every pass is the scan from the left (`Arith.firing?_scanWith`). Only a few rules fit each window
of these workspaces, and the lemmas below say what they do there.
-/

namespace Reckon

namespace Increment

open Arith (scanWith scanWith_cons_of_none scanWith_cons_of_some)

/-- `increment [] = []`, as the default configuration compiles it. -/
def emptyRule : Rule :=
  ⟨"increment-empty", [.sym "increment", .list []], [], .rewrite [.sym "[", .sym "]"]⟩

/-- `increment [H ... T] = [H + 1 ... increment T]`, as the default configuration compiles it. -/
def consRule : Rule :=
  ⟨"increment", [.sym "increment", .listCap (.var "H" .any) (.var "T" .any)], [],
    .rewrite [.sym "[", .var "H" .any, .sym "+", .num (.exact 1), .sym "...", .sym "increment",
      .var "T" .any, .sym "]"]⟩

theorem compile_default :
    (Config.default.rules.drop 1).mapM RuleSpec.compile = .ok [emptyRule, consRule] := by
  set_option maxRecDepth 8192 in with_unfolding_all rfl

/-- The built-in rules and the two rules of `increment`. -/
def library : Library := ⟨Builtin.rules ++ [emptyRule, consRule]⟩

/-- The number tokens of `qs`. -/
def nums (qs : List Rat) : List Token := qs.map fun q => .num (.exact q)

/-- The body that a rule of `increment` enters on the list of `qs`. -/
def body : List Rat → List Token
  | [] => [.sym "[", .sym "]"]
  | q :: qs => [.sym "[", .num (.exact q), .sym "+", .num (.exact 1), .sym "...",
      .sym "increment", .list (nums qs), .sym "]"]

/-- The rule of `increment` that fires on the list of `qs`. -/
def ruleFor : List Rat → Rule
  | [] => emptyRule
  | _ :: _ => consRule

/-- The call `increment [a₁, …, aₙ]` as written: the numbers separated by commas. -/
def written (qs : List Rat) : List Token :=
  .sym "increment" :: .sym "[" :: ((nums qs).intersperse (.sym ",") ++ [.sym "]"])

@[simp] theorem nums_nil : nums [] = [] := rfl

@[simp] theorem nums_cons (q : Rat) (qs : List Rat) :
    nums (q :: qs) = .num (.exact q) :: nums qs := rfl

/-- What the library fires at the start of `w`, after the tokens `pre`. -/
def fire (pre w : List Token) : Option Firing :=
  library.rules.findSome? (Library.attempt · (pre ++ w) pre.length)

/-- The rules that fit the window `w`. -/
def fitting (w : List Token) : List Rule :=
  library.rules.filter fun r => r.template.isEmpty || Library.fits r.template w 0

theorem fire_eq (pre w : List Token) :
    fire pre w = (fitting w).findSome? (Library.attempt · (pre ++ w) pre.length) := by
  rw [fire, fitting, Library.findSome?_filter]
  congr 1
  funext r
  unfold Library.attempt
  rw [Library.fits_append]
  split <;> rfl

theorem firing?_eq_scanWith (ws : List Token) : library.firing? ws = scanWith fire [] ws :=
  Arith.firing?_scanWith (P := fun _ => True) (fun _ _ _ => rfl) ws (by simp)

section Fitting

/-! Each window below fits only the rules listed: a template's first token must fit the window's
first token, a symbol only the same symbol and a variable only a value of its category. -/

variable (rest : List Token)

theorem fitting_open : fitting (.sym "[" :: rest) = [Builtin.listFold.rule] := by
  simp [fitting, library, Builtin.rules, emptyRule, consRule, Builtin.template,
    Library.fitsToken_var, Builtin.anyVar, Operator.operandKind, Token.accepts, Token.kind,
    Token.isValue]

theorem fitting_sum (a b : Number) :
    fitting (.num a :: .sym "+" :: .num b :: rest) = [Builtin.rule (.binary .plus)] := by
  simp [fitting, library, Builtin.rules, emptyRule, consRule, Builtin.template,
    Library.fitsToken_var, Builtin.anyVar, Operator.operandKind, Token.accepts, Token.kind,
    Token.isValue, Operator.symbol]

theorem fitting_ellipsis_after (a : Number) : fitting (.num a :: .sym "..." :: rest) = [] := by
  simp [fitting, library, Builtin.rules, emptyRule, consRule, Builtin.template,
    Library.fitsToken_var, Builtin.anyVar, Operator.operandKind, Token.accepts, Token.kind,
    Token.isValue, Operator.symbol]

theorem fitting_ellipsis : fitting (.sym "..." :: rest) = [] := by
  simp [fitting, library, Builtin.rules, emptyRule, consRule, Builtin.template,
    Library.fitsToken_var, Builtin.anyVar, Operator.operandKind, Token.accepts, Token.kind,
    Token.isValue]

theorem fitting_call (xs : List Token) :
    fitting (.sym "increment" :: .list xs :: rest) = [emptyRule, consRule] := by
  simp [fitting, library, Builtin.rules, emptyRule, consRule, Builtin.template, Builtin.anyVar,
    Operator.operandKind, Token.kind, Token.isValue, Library.fitsToken, Segment.ofTemplate,
    Segment.ofSubject]

theorem fitting_written : fitting (.sym "increment" :: .sym "[" :: rest) = [] := by
  simp [fitting, library, Builtin.rules, emptyRule, consRule, Builtin.template, Builtin.anyVar,
    Operator.operandKind, Token.kind, Library.fitsToken, Segment.ofTemplate, Segment.ofSubject]

theorem fitting_value (xs : List Token) : fitting [.list xs] = [] := by
  simp [fitting, library, Builtin.rules, emptyRule, consRule, Builtin.template,
    Library.fitsToken_var, Builtin.anyVar, Operator.operandKind, Token.accepts, Token.kind,
    Token.isValue]

end Fitting

section Firing

/-! What fires at each window: the list fold at an opening bracket, the addition of two numbers
between a bracket and `...`, and a rule of `increment` at a call on a list. -/

variable (pre rest : List Token)

theorem fire_open :
    fire pre (.sym "[" :: rest) =
      (Builtin.listFold.apply (pre ++ .sym "[" :: rest) pre.length).map
        (.rewritten Builtin.listFold.rule pre.length) := by
  rw [fire_eq, fitting_open, List.findSome?_cons, List.findSome?_nil,
    Library.attempt_fold Library.listFold_template rfl (by simp)]
  cases Builtin.listFold.apply (pre ++ .sym "[" :: rest) pre.length <;> rfl

theorem fire_sum (a b : Rat) (hpre : pre.getLast? = some (.sym "["))
    (hrest : rest.head? = some (.sym "...")) :
    fire pre (.num (.exact a) :: .sym "+" :: .num (.exact b) :: rest) =
      some (.rewritten (Builtin.rule (.binary .plus)) pre.length
        (pre ++ .num (.exact (a + b)) :: rest)) := by
  rw [fire_eq, fitting_sum, List.findSome?_cons, List.findSome?_nil, Arith.attempt_binary]
  simp [Arith.binaryAt, hpre, hrest, Token.accepts, Token.kind, Operator.operandKind,
    Operator.symbol, Operator.rightAssoc, Operator.peers, Operator.tighter, Library.blocks,
    Operator.eval, Number.add, sumOps, powerOps, productOps]

theorem fire_ellipsis_after (a : Number) : fire pre (.num a :: .sym "..." :: rest) = none := by
  rw [fire_eq, fitting_ellipsis_after, List.findSome?_nil]

theorem fire_ellipsis : fire pre (.sym "..." :: rest) = none := by
  rw [fire_eq, fitting_ellipsis, List.findSome?_nil]

theorem fire_written : fire pre (.sym "increment" :: .sym "[" :: rest) = none := by
  rw [fire_eq, fitting_written, List.findSome?_nil]

theorem fire_value (xs : List Token) : fire pre [.list xs] = none := by
  rw [fire_eq, fitting_value, List.findSome?_nil]

theorem fire_call (qs : List Rat) :
    fire pre (.sym "increment" :: .list (nums qs) :: rest) =
      some (.entered (ruleFor qs) pre.length (body qs)) := by
  rw [fire_eq, fitting_call]
  cases qs with
  | nil =>
    simp [Library.attempt, Library.fits_append, Rule.eligible, Rule.fire, emptyRule, ruleFor, body,
      Template.firstMatch_append, Template.firstMatch_zero, Pattern.matchOne_sym,
      Pattern.matchOne_list, Token.hasPlaceholder, Token.hasPlaceholder.anyItem, Token.equal,
      Bindings.instantiate, Bindings.substitute, Library.fitsToken, Segment.ofTemplate,
      Segment.ofSubject, Token.isValue, Token.kind]
  | cons q qs =>
    simp [Library.attempt, Library.fits_append, Rule.eligible, Rule.fire, emptyRule, consRule,
      ruleFor, body, Template.firstMatch_append, Template.firstMatch_zero, Pattern.matchOne_sym,
      Pattern.matchOne_list, Pattern.matchOne_listCap, Pattern.matchOne_var, List.lookup_cons,
      Token.hasPlaceholder, Token.hasPlaceholder.anyItem, Token.equal, Bindings.instantiate,
      Bindings.substitute, Library.fitsToken, Segment.ofTemplate, Segment.ofSubject,
      Token.isValue, Token.kind, Token.accepts]

end Firing

/-! ### The passes -/

theorem foldList_intersperse {ws rest : List Token} {start i : Nat} {items : List Token}
    {u : Token} {us : List Token}
    (hdrop : ws.drop i = (u :: us).intersperse (.sym ",") ++ .sym "]" :: rest)
    (hvals : ∀ v ∈ u :: us, v.isValue = true) :
    Builtin.foldList ws start i items =
      some (Tokens.splice ws start (i + 2 * us.length + 2) [.list (items ++ u :: us)]) := by
  induction us generalizing i items u with
  | nil => simpa using Builtin.foldList_close (by simpa using hdrop) (hvals u (by simp))
  | cons u' us ih =>
    -- one item and its comma, then the items after it
    have hd : ws.drop i = Tokens.listFrame [u] ++
        ((u' :: us).intersperse (.sym ",") ++ .sym "]" :: rest) := by
      simpa [Tokens.listFrame, List.intersperse_cons_cons] using hdrop
    have hd' : ws.drop (i + 2) = (u' :: us).intersperse (.sym ",") ++ .sym "]" :: rest :=
      Builtin.drop_two (by simpa [Tokens.listFrame] using hd)
    rw [Builtin.foldList_frame hd (by simpa using hvals u (by simp)),
      show i + 2 * [u].length = i + 2 by simp,
      ih hd' fun v hv => hvals v (List.mem_cons_of_mem _ hv)]
    congr 3
    · simp only [List.length_cons]
      omega
    · simp

theorem head?_intersperse (u sep : Token) (us : List Token) :
    ((u :: us).intersperse sep).head? = some u := by
  cases us <;> simp [List.intersperse_cons_cons]

theorem isValue_num (q : Rat) : (Token.num (.exact q)).isValue = true := rfl

theorem firing?_written (qs : List Rat) :
    library.firing? (written qs) =
      some (.rewritten Builtin.listFold.rule 1 [.sym "increment", .list (nums qs)]) := by
  -- the bracket after the call folds the numbers up to the closing bracket
  have hfold : Builtin.listFold.apply (written qs) 1 = some [.sym "increment", .list (nums qs)] := by
    cases qs with
    | nil => simp [Builtin.listFold_apply_empty, written, Tokens.splice]
    | cons q qs =>
      have hdrop : (written (q :: qs)).drop 2 =
          (nums (q :: qs)).intersperse (.sym ",") ++ .sym "]" :: [] := by
        simp [written]
      have hne : (written (q :: qs))[1 + 1]? ≠ some (.sym "]") :=
        Builtin.getElem?_succ_ne hdrop (fun t ht => by
          rw [nums_cons, head?_intersperse] at ht
          simp at ht
          rw [← ht]
          exact Builtin.value_ne_sym rfl _) (fun hnil => by
          have h := head?_intersperse (.num (.exact q)) (.sym ",") (nums qs)
          rw [← nums_cons, hnil] at h
          cases h)
      rw [Builtin.listFold_apply_of_ne hne, nums_cons] at *
      rw [foldList_intersperse hdrop (by simp [nums, isValue_num])]
      simp [Tokens.splice, written, List.length_intersperse]
      omega
  have hfire : fire [.sym "increment"] (.sym "[" :: ((nums qs).intersperse (.sym ",") ++
      [.sym "]"])) = some (.rewritten Builtin.listFold.rule 1 [.sym "increment", .list (nums qs)]) := by
    rw [fire_open]
    exact congrArg (Option.map _) hfold
  rw [firing?_eq_scanWith, written, scanWith_cons_of_none (fire_written _ _)]
  exact scanWith_cons_of_some hfire

theorem firing?_call (qs : List Rat) :
    library.firing? [.sym "increment", .list (nums qs)] = some (.entered (ruleFor qs) 0 (body qs)) := by
  rw [firing?_eq_scanWith]
  exact scanWith_cons_of_some (fire_call [] [] qs)

theorem firing?_value (xs : List Token) : library.firing? [.list xs] = none := by
  rw [firing?_eq_scanWith, scanWith_cons_of_none (fire_value _ _)]
  rfl

theorem firing?_empty : library.firing? (body []) = some (.rewritten Builtin.listFold.rule 0 [.list []]) := by
  rw [firing?_eq_scanWith, body]
  refine scanWith_cons_of_some ?_
  rw [fire_open, Builtin.listFold_apply_empty (by simp)]
  rfl

theorem firing?_body (q : Rat) (qs : List Rat) :
    library.firing? (body (q :: qs)) =
      some (.rewritten (Builtin.rule (.binary .plus)) 1 [.sym "[", .num (.exact (q + 1)), .sym "...",
        .sym "increment", .list (nums qs), .sym "]"]) := by
  have hstall : Builtin.listFold.apply (body (q :: qs)) 0 = none := by
    rw [Builtin.listFold_apply_of_ne (by simp [body]), Builtin.foldList]
    simp [body, Token.isSym, isValue_num]
  rw [firing?_eq_scanWith, body, scanWith_cons_of_none (by rw [fire_open]; simpa [body] using hstall)]
  exact scanWith_cons_of_some (fire_sum [.sym "["] _ q 1 rfl rfl)

theorem firing?_pending (c : Rat) (qs : List Rat) :
    library.firing? [.sym "[", .num (.exact c), .sym "...", .sym "increment", .list (nums qs),
      .sym "]"] = some (.entered (ruleFor qs) 3 (body qs)) := by
  have hstall : Builtin.listFold.apply [.sym "[", .num (.exact c), .sym "...", .sym "increment",
      .list (nums qs), .sym "]"] 0 = none := by
    rw [Builtin.listFold_apply_of_ne (by simp)]
    exact Builtin.foldList_stall_tail rfl (isValue_num c) (by simp)
  rw [firing?_eq_scanWith, scanWith_cons_of_none (by rw [fire_open]; simpa using hstall),
    scanWith_cons_of_none (fire_ellipsis_after _ _ _), scanWith_cons_of_none (fire_ellipsis _ _)]
  exact scanWith_cons_of_some (fire_call _ _ qs)

theorem firing?_tail (c : Rat) (xs : List Token) :
    library.firing? [.sym "[", .num (.exact c), .sym "...", .list xs, .sym "]"] =
      some (.rewritten Builtin.listFold.rule 0 [.list (.num (.exact c) :: xs)]) := by
  have hfold : Builtin.listFold.apply [.sym "[", .num (.exact c), .sym "...", .list xs, .sym "]"] 0 =
      some [.list (.num (.exact c) :: xs)] := by
    rw [Builtin.listFold_apply_of_ne (by simp), Builtin.foldList_close_tail rfl (isValue_num c)]
    rfl
  rw [firing?_eq_scanWith]
  refine scanWith_cons_of_some ?_
  rw [fire_open]
  exact congrArg (Option.map _) hfold

theorem ruleFor_length (qs : List Rat) : (ruleFor qs).template.length = 2 := by
  cases qs <;> rfl

/-! ### The reductions -/

/-- The numbers, each one more. -/
def succs (qs : List Rat) : List Rat := qs.map (· + 1)

/-- The body of a call on `n` numbers reduces to the list of their successors in `3 n + 1`
steps, given a budget that covers them and fuel for `2 n + 2` passes. -/
theorem reduceWith_body (qs : List Rat) (limit fuel depth : Nat) (p : Progress)
    (hsteps : p.steps + 3 * qs.length + 1 ≤ limit) (hfuel : 2 * qs.length + 2 ≤ fuel) :
    ∃ q, library.reduceWith limit fuel depth (body qs) p =
      (⟨[.list (nums (succs qs))], true⟩, q) ∧ q.steps = p.steps + 3 * qs.length + 1 := by
  induction qs generalizing fuel depth p with
  | nil =>
    simp only [List.length_nil, Nat.mul_zero, Nat.add_zero] at hsteps hfuel ⊢
    rw [Library.reduceWith_rewritten (by omega) (by omega) firing?_empty,
      Library.reduceWith_normal (by omega) (by simp only; omega) (firing?_value _)]
    exact ⟨_, rfl, rfl⟩
  | cons q qs ih =>
    simp only [List.length_cons] at hsteps hfuel
    -- the addition, then the call on the tail, whose body reduces one level down
    rw [Library.reduceWith_rewritten (by omega) (by omega) (firing?_body q qs)]
    obtain ⟨q', hinner, hq'⟩ := ih (fuel - 1 - 1) (depth + 1) ⟨p.steps + 1 + 1, _⟩
      (by simp only; omega) (by omega)
    rw [Library.reduceWith_entered (by omega) (by simp only; omega) (firing?_pending (q + 1) qs)
      hinner]
    -- the fold of the tail form, and the list it makes is a normal form
    have hsplice : Tokens.splice [.sym "[", .num (.exact (q + 1)), .sym "...", .sym "increment",
        .list (nums qs), .sym "]"] 3 (3 + (ruleFor qs).template.length)
        [.list (nums (succs qs))] =
        [.sym "[", .num (.exact (q + 1)), .sym "...", .list (nums (succs qs)), .sym "]"] := by
      rw [ruleFor_length]
      rfl
    rw [hsplice, Library.reduceWith_rewritten (by omega) (by simp only at hq' ⊢; omega)
      (firing?_tail (q + 1) _), Library.reduceWith_normal (by omega)
      (by simp only at hq' ⊢; omega) (firing?_value _)]
    refine ⟨_, rfl, ?_⟩
    simp only [List.length_cons] at hq' ⊢
    omega

/-- `increment [a₁, …, aₙ]` reduces to the list of the
successors in exactly `3 n + 3` steps, under every budget of at least that many: one to fold
the written list, one for the call and `3 n + 1` for its body. -/
theorem reduce_written (qs : List Rat) {limit : Nat} (hlimit : 3 * qs.length + 3 ≤ limit) :
    (library.reduce limit (written qs)).1 = ⟨[.list (nums (succs qs))], true⟩ ∧
      (library.reduce limit (written qs)).2.steps = 3 * qs.length + 3 := by
  obtain ⟨q, hinner, hq⟩ := reduceWith_body qs limit (limit + 2 - 1 - 1) (1 + 1) ⟨0 + 1 + 1, _⟩
    (by simp only; omega) (by omega)
  rw [Library.reduce, Library.reduceWith_rewritten (by omega) (Nat.zero_le _) (firing?_written qs),
    Library.reduceWith_entered (by omega) (by simp only; omega) (firing?_call qs) hinner]
  have hsplice : Tokens.splice [.sym "increment", .list (nums qs)] 0 (0 + (ruleFor qs).template.length)
      [.list (nums (succs qs))] = [.list (nums (succs qs))] := by
    rw [ruleFor_length]
    rfl
  rw [hsplice, Library.reduceWith_normal (by omega) (by simp only at hq ⊢; omega) (firing?_value _)]
  simp only at hq ⊢
  exact ⟨trivial, by omega⟩

end Increment

end Reckon

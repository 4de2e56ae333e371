import Reckon.Proofs.Arith.Rules

/-!
# Where a pass rewrites a tree of the grammar

No rule of arithmetic knows the grammar: each looks at its window and at the token on either
side. Precedence comes from the neighbours a tree of the grammar can have. A tree of level `l`
stands after nothing or one of `leftSyms l`, and before nothing or one of `rightSyms l`
(`around`). The lower the level, the more neighbours it admits.

In such a context the scan from the left first rewrites exactly the node that `Expr.step`
reduces (`Arith.scan_tokens`). The induction follows `Expr.step`. For an operation on a number
and a tree, the window at the number is blocked by the operator that opens the tree: a power,
a product or a sum binds tighter, or a power groups to the right. The operator itself starts no
rewrite.

The one context the grammar has that the rules refuse is a negation as an exponent. The negation
rule does not fire after `^`. So the statement needs `Expr.NoNegatedExponent`.

The rules of arithmetic read a neighbour that closes no bracket and is no operator of arithmetic
(`inert`) as no neighbour at all, and after a tree any symbol that is no operator (`quiet`), a
closing bracket included. So the same holds beside such symbols, and of any pass that rewrites
the windows of arithmetic as these rules do (`Arith.scanWith_tokens`): a comparison or a
connective next to a tree of arithmetic changes nothing inside it, nor do the brackets, commas
and colons of a list or a map around it.
-/

namespace Reckon

namespace Arith

/-- The symbols that may stand just before a tree of level `l` in a tree of the grammar. -/
def leftSyms : Nat → List String
  | 0 | 1 => ["(", "+", "-", "*", "/", "^"]
  | 2 => ["(", "+", "-", "*", "/"]
  | 3 => ["(", "+", "-"]
  | _ => ["("]

/-- The symbols that may stand just after a tree of level `l` in a tree of the grammar. -/
def rightSyms : Nat → List String
  | 0 => [")", "+", "-", "*", "/", "^"]
  | 1 | 2 | 3 => [")", "+", "-", "*", "/"]
  | _ => [")", "+", "-"]

/-- The neighbour is nothing or one of the symbols `syms`. -/
def around (syms : List String) : Option Token → Bool
  | none => true
  | some (.sym s) => syms.contains s
  | some _ => false

theorem leftSyms_anti {l l' : Nat} (h : l ≤ l') : ∀ s ∈ leftSyms l', s ∈ leftSyms l := by
  rcases l with _ | _ | _ | _ | l <;> rcases l' with _ | _ | _ | _ | l' <;>
    first | decide | omega | simp [leftSyms]

theorem rightSyms_anti {l l' : Nat} (h : l ≤ l') : ∀ s ∈ rightSyms l', s ∈ rightSyms l := by
  rcases l with _ | _ | _ | _ | l <;> rcases l' with _ | _ | _ | _ | l' <;>
    first | decide | omega | simp [rightSyms]

theorem around_mono {syms syms' : List String} (h : ∀ s ∈ syms', s ∈ syms) {t : Option Token}
    (ht : around syms' t = true) : around syms t = true := by
  rcases t with _ | ⟨_ | _ | _ | s | _ | _ | _ | _ | _⟩ <;> simp_all [around]

theorem around_append (syms syms' : List String) (t : Option Token) :
    around (syms ++ syms') t = (around syms t || around syms' t) := by
  rcases t with _ | ⟨_ | _ | _ | s | _ | _ | _ | _ | _⟩ <;> simp [around]

theorem around_append_left {syms : List String} {t : Option Token} (ht : around syms t = true)
    (extra : List String) : around (syms ++ extra) t = true := by
  rw [around_append, ht, Bool.true_or]

theorem around_left_anti {l l' : Nat} (h : l ≤ l') {extra : List String} {t : Option Token}
    (ht : around (leftSyms l' ++ extra) t = true) : around (leftSyms l ++ extra) t = true :=
  around_mono (fun s hs => List.mem_append.2 ((List.mem_append.1 hs).imp (leftSyms_anti h s) id)) ht

theorem around_right_anti {l l' : Nat} (h : l ≤ l') {extra : List String} {t : Option Token}
    (ht : around (rightSyms l' ++ extra) t = true) : around (rightSyms l ++ extra) t = true :=
  around_mono (fun s hs => List.mem_append.2 ((List.mem_append.1 hs).imp (rightSyms_anti h s) id))
    ht

/-- A symbol that the rules of arithmetic read as no neighbour at all: it closes no bracket and
is no operator of arithmetic. -/
def inert (s : String) : Bool :=
  !Tokens.closes (.sym s) && !(powerOps ++ productOps ++ sumOps).contains s

/-- A symbol that is no operator of arithmetic. -/
def quiet (s : String) : Bool := !(powerOps ++ productOps ++ sumOps).contains s

theorem quiet_of_inert {extra : List String} (h : extra.all inert = true) :
    extra.all quiet = true :=
  List.all_eq_true.2 fun s hs => by
    have hinert := List.all_eq_true.1 h s hs
    simp only [inert, Bool.and_eq_true] at hinert
    exact hinert.2

theorem all_not_contains_append {syms extra sub : List String}
    (hsyms : syms.all (!sub.contains ·) = true)
    (hsub : ∀ s ∈ sub, s ∈ powerOps ++ productOps ++ sumOps) (hextra : extra.all quiet = true) :
    (syms ++ extra).all (!sub.contains ·) = true := by
  rw [List.all_append, hsyms, Bool.true_and, List.all_eq_true]
  intro s hs
  have hquiet := List.all_eq_true.1 hextra s hs
  simp only [quiet, Bool.not_eq_true', List.contains_eq_mem, decide_eq_false_iff_not] at hquiet
  simp only [Bool.not_eq_true', List.contains_eq_mem, decide_eq_false_iff_not]
  exact fun h => hquiet (hsub s h)

theorem blocks_of_around {syms : List String} {t : Option Token}
    (ht : around syms t = true) {sub : List String} (hsub : syms.all (!sub.contains ·) = true) :
    Library.blocks sub t = false := by
  rcases t with _ | ⟨_ | _ | _ | s | _ | _ | _ | _ | _⟩ <;> simp_all [around, Library.blocks]

theorem endsOperand?_of_around {l : Nat} {extra : List String} (hextra : extra.all inert = true)
    {t : Option Token} (ht : around (leftSyms l ++ extra) t = true) : endsOperand? t = false := by
  rcases t with _ | ⟨_ | _ | _ | s | _ | _ | _ | _ | _⟩
  · rfl
  all_goals simp only [around, Bool.false_eq_true] at ht
  rcases List.mem_append.1 (List.elem_iff.1 ht) with hs | hs
  · rcases l with _ | _ | _ | _ | l <;> simp only [leftSyms, List.mem_cons] at hs <;>
      rcases hs with rfl | rfl | rfl | rfl | rfl | rfl | hs <;> first | rfl | simp at hs
  · have hinert := List.all_eq_true.1 hextra s hs
    simp only [inert, Bool.and_eq_true, Bool.not_eq_true'] at hinert
    simp [endsOperand?, Tokens.endsOperand, Token.isValue, Token.kind, hinert.1]

@[simp] theorem around_left_open (l : Nat) : around (leftSyms l) (some (.sym "(")) = true := by
  rcases l with _ | _ | _ | _ | l <;> rfl

@[simp] theorem around_right_close (l : Nat) : around (rightSyms l) (some (.sym ")")) = true := by
  rcases l with _ | _ | _ | _ | l <;> rfl

theorem around_left_minus {l : Nat} (h : l ≤ 3) : around (leftSyms l) (some (.sym "-")) = true := by
  rcases l with _ | _ | _ | _ | l
  all_goals first | rfl | omega

theorem around_left_operator (op : BinOp) {l : Nat} (hl : l ≤ op.rightLevel)
    (hpow : op = .pow → l ≤ 1) : around (leftSyms l) (some (.sym op.symbol)) = true := by
  cases op <;> simp only [BinOp.rightLevel, reduceCtorEq, forall_const] at hl hpow <;>
    rcases l with _ | _ | _ | _ | l <;> first | rfl | omega

theorem level_le_of_right (op : BinOp) {l : Nat} (hl : l ≤ op.rightLevel)
    (hpow : op = .pow → l ≤ 1) : l ≤ op.level := by
  cases op <;> simp_all [BinOp.rightLevel, BinOp.level] <;> omega

theorem around_right_operator (op : BinOp) {l : Nat} (hl : l ≤ op.leftLevel) :
    around (rightSyms l) (some (.sym op.symbol)) = true := by
  cases op <;> simp only [BinOp.leftLevel] at hl <;>
    rcases l with _ | _ | _ | _ | l <;> first | rfl | omega

/-! ### The tokens of a tree -/

namespace Expr

theorem tokens_ne_nil (e : Expr Number) : e.tokens ≠ [] := by
  cases e <;> simp [tokens]

theorem tokens_cons_cons {e : Expr Number} (he : e.leaf? = none) :
    ∃ t u rest, e.tokens = t :: u :: rest := by
  cases e with
  | lit => simp [leaf?] at he
  | paren e =>
    obtain ⟨t, rest, h⟩ := List.exists_cons_of_ne_nil (tokens_ne_nil e)
    exact ⟨.sym "(", t, rest ++ [.sym ")"], by simp [tokens, h]⟩
  | neg e =>
    obtain ⟨t, rest, h⟩ := List.exists_cons_of_ne_nil (tokens_ne_nil e)
    exact ⟨.sym "-", t, rest, by simp [tokens, h]⟩
  | bin op x y =>
    obtain ⟨t, rest, h⟩ := List.exists_cons_of_ne_nil (tokens_ne_nil x)
    cases rest with
    | nil => exact ⟨t, .sym op.symbol, y.tokens, by simp [tokens, h]⟩
    | cons u rest => exact ⟨t, u, rest ++ .sym op.symbol :: y.tokens, by simp [tokens, h]⟩

theorem tokens_arith (e : Expr Number) : ∀ t ∈ e.tokens, isArith t = true := by
  induction e with
  | lit a => simp [tokens, isArith]
  | paren e ih =>
    simp only [tokens, List.mem_cons, List.mem_append, List.not_mem_nil, or_false]
    rintro t ((rfl | ht) | rfl)
    · rfl
    · exact ih t ht
    · rfl
  | neg e ih =>
    simp only [tokens, List.mem_cons]
    rintro t (rfl | ht)
    · rfl
    · exact ih t ht
  | bin op x y ihx ihy =>
    simp only [tokens, List.mem_append, List.mem_cons]
    rintro t (ht | rfl | ht)
    · exact ihx t ht
    · cases op <;> rfl
    · exact ihy t ht

theorem tokens_num_cons {e : Expr Number} (he : e.leaf? = none) (hg : e.Grammatical)
    {b : Number} {u : Token} {rest : List Token} (h : e.tokens = .num b :: u :: rest) :
    ∃ op : BinOp, u = .sym op.symbol ∧ op.level ≤ e.level := by
  induction e generalizing rest with
  | lit => simp [leaf?] at he
  | paren => simp [tokens] at h
  | neg => simp [tokens] at h
  | bin op x y ihx =>
    obtain ⟨hx, -, gx, -⟩ := hg
    cases hxl : x.leaf? with
    | some a =>
      rw [leaf?_eq_some] at hxl
      subst hxl
      simp only [tokens, List.singleton_append, List.cons.injEq] at h
      exact ⟨op, h.2.1.symm, Nat.le_refl _⟩
    | none =>
      obtain ⟨t, u', rest', hxt⟩ := tokens_cons_cons hxl
      simp only [tokens, hxt, List.cons_append, List.cons.injEq] at h
      obtain ⟨rfl, rfl, -⟩ := h
      obtain ⟨op', hu, hle⟩ := ihx hxl gx hxt
      exact ⟨op', hu, Nat.le_trans hle (Nat.le_trans hx op.leftLevel_le_level)⟩

theorem isArith_cases {t : Token} (h : isArith t = true) : (∃ n, t = .num n) ∨ ∃ s, t = .sym s := by
  cases t <;> simp_all [isArith]

end Expr

/-! ### One window -/

theorem scan_cons_of_none {pre : List Token} {t : Token} {ws : List Token}
    (h : localFire pre (t :: ws) = none) : scan pre (t :: ws) = scan (pre ++ [t]) ws := by
  simp [scan, h]

theorem scan_cons_of_some {pre : List Token} {t : Token} {ws : List Token} {f : Firing}
    (h : localFire pre (t :: ws) = some f) : scan pre (t :: ws) = some f := by
  simp [scan, h]

theorem localFire_paren_value (pre : List Token) {v : Token} (hv : v.isValue = true)
    (R : List Token) :
    localFire pre (.sym "(" :: v :: .sym ")" :: R) =
      some (.rewritten Builtin.parens.rule pre.length (pre ++ v :: R)) := by
  simp [localFire, arithRules, rewriteWindow, parensAt, Token.isSym, hv]

section Inert

variable {extra : List String} (hextra : extra.all inert = true)
  {extraR : List String} (hextraR : extraR.all quiet = true)
include hextra hextraR

theorem localFire_neg_lit (pre : List Token) (a : Number) (R : List Token)
    (hl : around (leftSyms 2 ++ extra) pre.getLast? = true)
    (hr : around (rightSyms 2 ++ extraR) R.head? = true) :
    localFire pre (.sym "-" :: .num a :: R) =
      some (.rewritten Builtin.negate.rule pre.length (pre ++ .num a.neg :: R)) := by
  have hends := endsOperand?_of_around hextra hl
  have hbefore : Library.blocks powerOps pre.getLast? = false :=
    blocks_of_around hl (all_not_contains_append (by decide) (by decide) (quiet_of_inert hextra))
  have hafter : Library.blocks powerOps R.head? = false :=
    blocks_of_around hr (all_not_contains_append (by decide) (by decide) hextraR)
  simp (disch := decide) [localFire, arithRules, List.findSome?_cons, rewriteWindow,
    parensAt_sym, negateAt, Token.isSym, hends, hbefore, hafter]

theorem binaryAt_lit (op : BinOp) (prev : Option Token) (a b : Number) (R : List Token)
    (hl : around (leftSyms op.level ++ extra) prev = true)
    (hr : around (rightSyms op.level ++ extraR) R.head? = true) :
    binaryAt op.operator prev (.num a :: .sym op.symbol :: .num b :: R) =
      (op.apply a b).toOption.map (.num · :: R) := by
  have htighter : ∀ s ∈ op.operator.tighter, s ∈ powerOps ++ productOps ++ sumOps := by
    cases op <;> decide
  have hbefore : Library.blocks op.operator.tighter prev = false :=
    blocks_of_around hl
      (all_not_contains_append (by cases op <;> decide) htighter (quiet_of_inert hextra))
  have hafter : Library.blocks op.operator.tighter R.head? = false :=
    blocks_of_around hr (all_not_contains_append (by cases op <;> decide) htighter hextraR)
  -- a power yields to a power after it, the others to a peer before them
  have hyields : (if op.operator.rightAssoc then Library.blocks op.operator.peers R.head?
      else Library.blocks op.operator.peers prev) = false := by
    cases op
    · exact blocks_of_around hr (all_not_contains_append (by decide) (by decide) hextraR)
    all_goals
      exact blocks_of_around hl
        (all_not_contains_append (by decide) (by decide) (quiet_of_inert hextra))
  simp [binaryAt, hbefore, hafter, hyields, Token.accepts, Token.kind, Token.isSym,
    BinOp.operator_eval, Option.map_map, Function.comp_def]

theorem localFire_bin_lit (op : BinOp) (pre : List Token) (a b : Number) (R : List Token)
    {v : Number} (hv : op.apply a b = .ok v)
    (hl : around (leftSyms op.level ++ extra) pre.getLast? = true)
    (hr : around (rightSyms op.level ++ extraR) R.head? = true) :
    localFire pre (.num a :: .sym op.symbol :: .num b :: R) =
      some (.rewritten (Builtin.binary op.operator).rule pre.length (pre ++ .num v :: R)) := by
  have hbin := binaryAt_lit hextra hextraR op pre.getLast? a b R hl hr
  simp only [hv, Except.toOption, Option.map_some] at hbin
  cases op <;> simp only [BinOp.operator, BinOp.symbol] at hbin ⊢ <;>
    simp (disch := decide) [localFire, arithRules, List.findSome?_cons, rewriteWindow,
      parensAt_num, negateAt_num, binaryAt_other, hbin]

end Inert

theorem localFire_blocked (op op' : BinOp) (h : op'.level ≤ op.rightLevel) (pre : List Token)
    (a b : Number) (rest : List Token) :
    localFire pre (.num a :: .sym op.symbol :: .num b :: .sym op'.symbol :: rest) = none := by
  cases op <;> cases op' <;> simp only [BinOp.level, BinOp.rightLevel] at h <;>
    first
    | omega
    | simp (disch := decide) [localFire, arithRules, List.findSome?_cons, rewriteWindow,
        BinOp.symbol, parensAt_num, negateAt_num, binaryAt_other, binaryAt_tighter_after,
        binaryAt_yields_after]

theorem localFire_after_num (pre : List Token) (a : Number) (op : BinOp) (w : List Token) :
    localFire (pre ++ [.num a]) (.sym op.symbol :: w) = none := by
  have hends : endsOperand? (some (Token.num a)) = true := rfl
  cases op <;>
    simp (disch := decide) [localFire, arithRules, List.findSome?_cons, rewriteWindow,
      BinOp.symbol, parensAt_sym, negateAt_eq_none_of_endsOperand hends, binaryAt_sym]

theorem localFire_bin_head (op : BinOp) (pre : List Token) (a : Number) {y : Expr Number}
    (hy : y.leaf? = none) (hg : y.Grammatical) (hlevel : y.level ≤ op.rightLevel)
    (R : List Token) : localFire pre (.num a :: .sym op.symbol :: (y.tokens ++ R)) = none := by
  obtain ⟨t, u, rest, hyt⟩ := Expr.tokens_cons_cons hy
  rw [hyt, List.cons_append, List.cons_append]
  rcases Expr.isArith_cases (y.tokens_arith t (by simp [hyt])) with ⟨b, rfl⟩ | ⟨s, rfl⟩
  · obtain ⟨op', rfl, hle⟩ := Expr.tokens_num_cons hy hg hyt
    exact localFire_blocked op op' (Nat.le_trans hle hlevel) pre a b (rest ++ R)
  · -- the right operand starts with a symbol, so no operation has two operands here
    cases op <;>
      simp (disch := decide) [localFire, arithRules, List.findSome?_cons, rewriteWindow,
        BinOp.symbol, parensAt_num, negateAt_num, binaryAt_sym_operand]

theorem localFire_open (pre : List Token) {x : Expr Number} (hx : x.leaf? = none)
    (hg : x.Grammatical) (R : List Token) : localFire pre (.sym "(" :: (x.tokens ++ R)) = none := by
  obtain ⟨t, u, rest, hxt⟩ := Expr.tokens_cons_cons hx
  rw [hxt, List.cons_append, List.cons_append]
  rcases Expr.isArith_cases (x.tokens_arith t (by simp [hxt])) with ⟨b, rfl⟩ | ⟨s, rfl⟩
  · -- a number inside is followed by an operator, not by the closing parenthesis
    obtain ⟨op, rfl, -⟩ := Expr.tokens_num_cons hx hg hxt
    cases op <;>
      simp (disch := decide) [localFire, arithRules, List.findSome?_cons, rewriteWindow,
        BinOp.symbol, parensAt, negateAt_sym, binaryAt_sym, Token.isSym]
  · simp (disch := decide) [localFire, arithRules, List.findSome?_cons, rewriteWindow, parensAt,
      negateAt_sym, binaryAt_sym, Token.isSym, Token.isValue, Token.kind]

theorem localFire_minus (pre : List Token) {x : Expr Number} (hx : x.leaf? = none)
    (hg : x.Grammatical) (hlevel : x.level ≤ 2) (R : List Token) :
    localFire pre (.sym "-" :: (x.tokens ++ R)) = none := by
  obtain ⟨t, u, rest, hxt⟩ := Expr.tokens_cons_cons hx
  rw [hxt, List.cons_append, List.cons_append]
  rcases Expr.isArith_cases (x.tokens_arith t (by simp [hxt])) with ⟨b, rfl⟩ | ⟨s, rfl⟩
  · obtain ⟨op, rfl, hle⟩ := Expr.tokens_num_cons hx hg hxt
    cases op <;> simp only [BinOp.level] at hle
    · simp (disch := decide) [localFire, arithRules, List.findSome?_cons, rewriteWindow,
        BinOp.symbol, parensAt_sym, negateAt, binaryAt_sym, Library.blocks, powerOps]
    all_goals omega
  · simp (disch := decide) [localFire, arithRules, List.findSome?_cons, rewriteWindow,
      parensAt_sym, negateAt, binaryAt_sym]

/-! ### The scan over a tree -/

/-- The windows a pass crosses inside a tree of arithmetic before the node it reduces: they
start with a symbol of arithmetic, or with a number and a symbol of arithmetic. -/
def arithHead : List Token → Bool
  | .sym s :: _ => symbols.contains s
  | .num _ :: .sym s :: _ => symbols.contains s
  | _ => false

theorem scanWith_cons_of_none {F : List Token → List Token → Option Firing} {pre : List Token}
    {t : Token} {ws : List Token} (h : F pre (t :: ws) = none) :
    scanWith F pre (t :: ws) = scanWith F (pre ++ [t]) ws := by
  simp [scanWith, h]

theorem scanWith_cons_of_some {F : List Token → List Token → Option Firing} {pre : List Token}
    {t : Token} {ws : List Token} {f : Firing} (h : F pre (t :: ws) = some f) :
    scanWith F pre (t :: ws) = some f := by
  simp [scanWith, h]

theorem BinOp.arithHead_num (op : BinOp) (a : Number) (ws : List Token) :
    arithHead (.num a :: .sym op.symbol :: ws) = true := by
  cases op <;> rfl

section Faithful

/- A pass that rewrites the windows of arithmetic as its rules do: where they fire it makes the
same firing, and on the windows inside a tree of arithmetic it fires nowhere else. -/
variable {F : List Token → List Token → Option Firing}
  (hfire : ∀ pre ws f, localFire pre ws = some f → F pre ws = some f)
  (hquiet : ∀ pre ws, arithHead ws = true → localFire pre ws = none → F pre ws = none)
  {extra : List String} (hextra : extra.all inert = true)
  {extraR : List String} (hextraR : extraR.all quiet = true)
include hfire hquiet hextra hextraR

/-- In a context its level admits, with inert symbols allowed
before it and quiet ones after it, the first rewrite of a pass over the tokens of a tree of the grammar is the node
`Expr.step` reduces, with everything around it kept. -/
theorem scanWith_tokens (e : Expr Number) :
    ∀ {e'}, e.step = some e' → e.Grammatical → e.NoNegatedExponent →
      ∀ pre R, around (leftSyms e.level ++ extra) pre.getLast? = true →
        around (rightSyms e.level ++ extraR) R.head? = true →
        ∃ r pos, scanWith F pre (e.tokens ++ R) =
          some (.rewritten r pos (pre ++ e'.tokens ++ R)) := by
  fun_induction Expr.step e with
  | case1 => simp
  | case2 x a ha =>
    rw [Expr.leaf?_eq_some] at ha
    subst ha
    rintro _ ⟨⟩ - - pre R - -
    exact ⟨_, _, by
      simpa [Expr.tokens] using scanWith_cons_of_some (hfire _ _ _ (localFire_paren_value pre rfl R))⟩
  | case3 x hx ih =>
    intro e' h hg hn pre R _ _
    obtain ⟨x', hx', rfl⟩ := Option.map_eq_some_iff.1 h
    -- inside the parentheses any tree stands between them
    obtain ⟨r, pos, hscan⟩ := ih hx' hg hn (pre ++ [.sym "("]) (.sym ")" :: R)
      (by simpa using around_append_left (around_left_open x.level) extra)
      (by simpa using around_append_left (around_right_close x.level) extraR)
    refine ⟨r, pos, ?_⟩
    simp only [Expr.tokens, List.cons_append, List.nil_append, List.append_assoc]
    rw [scanWith_cons_of_none (hquiet _ _ rfl (localFire_open pre hx hg _)), hscan]
    simp
  | case4 x a ha =>
    rw [Expr.leaf?_eq_some] at ha
    subst ha
    rintro _ ⟨⟩ - - pre R hl hr
    exact ⟨_, _, by simpa [Expr.tokens] using
      scanWith_cons_of_some (hfire _ _ _ (localFire_neg_lit hextra hextraR pre a R hl hr))⟩
  | case5 x hx ih =>
    intro e' h hg hn pre R _ hr
    obtain ⟨x', hx', rfl⟩ := Option.map_eq_some_iff.1 h
    obtain ⟨hlevel, gx⟩ := hg
    have hminus := around_append_left (around_left_minus (Nat.le_trans hlevel (by decide))) extra
    obtain ⟨r, pos, hscan⟩ := ih hx' gx hn (pre ++ [.sym "-"]) R (by simpa using hminus)
      (around_right_anti hlevel hr)
    refine ⟨r, pos, ?_⟩
    simp only [Expr.tokens, List.cons_append]
    rw [scanWith_cons_of_none (hquiet _ _ rfl (localFire_minus pre hx gx hlevel _)), hscan]
    simp
  | case6 op x y a b ha hb =>
    rw [Expr.leaf?_eq_some] at ha hb
    subst ha hb
    intro e' h _ _ pre R hl hr
    obtain ⟨v, hv, rfl⟩ := Option.map_eq_some_iff.1 h
    have hbin := localFire_bin_lit hextra hextraR op pre a b R (Expr.toOption_eq_some.1 hv) hl hr
    exact ⟨_, _, by simpa [Expr.tokens] using scanWith_cons_of_some (hfire _ _ _ hbin)⟩
  | case7 op x y a hy hx ih =>
    rw [Expr.leaf?_eq_some] at hx
    subst hx
    intro e' h hg hn pre R _ hr
    obtain ⟨y', hy', rfl⟩ := Option.map_eq_some_iff.1 h
    obtain ⟨-, hylevel, -, gy⟩ := hg
    obtain ⟨hpow, -, ny⟩ := hn
    -- the operator admits its right operand: an exponent is no negation
    have hexp : op = .pow → y.level ≤ 1 := fun hop => by
      subst hop
      exact Expr.level_le_one_of_isNeg_eq_false hylevel (hpow rfl)
    obtain ⟨r, pos, hscan⟩ := ih hy' gy ny (pre ++ [.num a] ++ [.sym op.symbol]) R
      (by simpa using around_append_left (around_left_operator op hylevel hexp) extra)
      (around_right_anti (level_le_of_right op hylevel hexp) hr)
    refine ⟨r, pos, ?_⟩
    simp only [Expr.tokens, List.cons_append, List.nil_append, List.append_assoc]
    rw [scanWith_cons_of_none (hquiet _ _ (op.arithHead_num a _)
        (localFire_bin_head op pre a hy gy hylevel R)),
      scanWith_cons_of_none (hquiet _ _ (by cases op <;> rfl) (localFire_after_num pre a op _)),
      hscan]
    simp
  | case8 op x y hx ih =>
    intro e' h hg hn pre R hl _
    obtain ⟨x', hx', rfl⟩ := Option.map_eq_some_iff.1 h
    obtain ⟨hxlevel, -, gx, -⟩ := hg
    obtain ⟨-, nx, -⟩ := hn
    obtain ⟨r, pos, hscan⟩ := ih hx' gx nx pre (.sym op.symbol :: (y.tokens ++ R))
      (around_left_anti (Nat.le_trans hxlevel op.leftLevel_le_level) hl)
      (around_append_left (around_right_operator op hxlevel) extraR)
    refine ⟨r, pos, ?_⟩
    simp only [Expr.tokens, List.append_assoc, List.cons_append] at hscan ⊢
    exact hscan

end Faithful

theorem scan_tokens (e : Expr Number) :
    ∀ {e'}, e.step = some e' → e.Grammatical → e.NoNegatedExponent →
      ∀ pre R, around (leftSyms e.level) pre.getLast? = true →
        around (rightSyms e.level) R.head? = true →
        ∃ r pos, scan pre (e.tokens ++ R) = some (.rewritten r pos (pre ++ e'.tokens ++ R)) := by
  intro e' h hg hn pre R hl hr
  simp only [scan_eq_scanWith]
  exact @scanWith_tokens localFire (fun _ _ _ hf => hf) (fun _ _ _ hn => hn) [] rfl [] rfl e e' h
    hg hn pre R (by simpa using hl) (by simpa using hr)

end Arith

end Reckon

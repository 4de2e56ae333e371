import Reckon.Proofs.Nested.Term
import Reckon.Proofs.Arith.Scan
import Reckon.Proofs.Brackets.Folding

/-!
# Where a pass rewrites a term of lists and maps

On the tokens of a term, values and the symbols of arithmetic and of brackets, ten built-in
rules can fire: the seven of arithmetic and the two folds; every other rule's template holds a
symbol such a workspace lacks. A pass is then the scan from the left with `Nested.fire`: at each
position the rules of arithmetic, or else the fold of the bracket that opens there
(`Nested.firing?_builtins`).

The scan first rewrites exactly what `Term.step` reduces (`Nested.scan_term`). A bracket whose
parts are not all values yet does not fold: its fold stops at the first part that is no value,
which starts with no value, or with a number and an operator. The values and separators before
that part start no rewrite, and the part itself is rewritten as it is alone: the brackets,
commas, colons and `...` around a tree of arithmetic are no neighbours to its rules
(`Arith.scanWith_tokens`). A bracket whose parts are all values folds at once.
-/

namespace Reckon

namespace Nested

open Arith (Expr around localFire scanWith arithHead isArith)

/-! ### The rules on the tokens of a term -/

/-- Whether the token can stand in the tokens of a term: a value, or a symbol of arithmetic or of
the bracket language. -/
def isNested (t : Token) : Bool := isArith t || t.isValue || t.isStructure

/-- Whether the rule's template holds a symbol that the tokens of terms lack. -/
def foreign (b : Builtin) : Bool :=
  b.template.any fun t => match t with
    | .sym _ => !isNested t
    | _ => false

theorem attempt_foreign {pre ws : List Token} (hws : ∀ t ∈ ws, isNested t = true) {b : Builtin}
    (hb : foreign b = true) : Library.attempt b.rule (pre ++ ws) pre.length = none := by
  obtain ⟨t, ht, hs⟩ := List.any_eq_true.1 hb
  cases t with
  | sym s =>
    refine Library.attempt_eq_none_of_sym ht pre ws fun hmem => ?_
    have := hws _ hmem
    simp_all
  | _ => simp at hs

/-- What the folds make of the bracket at the start of `ws`, after the tokens `pre`. -/
def foldFire (pre ws : List Token) : Option Firing :=
  (Library.attempt Builtin.listFold.rule (pre ++ ws) pre.length).or
    (Library.attempt Builtin.mapFold.rule (pre ++ ws) pre.length)

/-- What a pass over the tokens of a term fires at one position: a rule of arithmetic, or else a
fold. -/
def fire (pre ws : List Token) : Option Firing := (localFire pre ws).or (foldFire pre ws)

theorem foldFire_eq_none {pre ws : List Token} (hl : ws.head? ≠ some (.sym "["))
    (hm : ws.head? ≠ some (.sym "\x7b")) : foldFire pre ws = none := by
  have hat : (pre ++ ws)[pre.length]? = ws.head? := by
    rw [List.getElem?_append_right (Nat.le_refl _), Nat.sub_self, List.head?_eq_getElem?]
  simp only [foldFire, Library.attempt_fold_eq_none Library.listFold_template (by rwa [hat]),
    Library.attempt_fold_eq_none Library.mapFold_template (by rwa [hat]), Option.or_none]

theorem localFire_bracket (pre : List Token) {s : String} (hs : s = "[" ∨ s = "\x7b")
    (w : List Token) : localFire pre (.sym s :: w) = none := by
  rcases hs with rfl | rfl <;>
    simp (disch := decide) [localFire, Arith.arithRules, List.findSome?_cons, Arith.rewriteWindow,
      Arith.parensAt_sym, Arith.negateAt_sym, Arith.binaryAt_sym]

theorem findSome?_attempt (pre ws : List Token) (hws : ∀ t ∈ ws, isNested t = true) :
    Library.builtins.rules.findSome? (Library.attempt · (pre ++ ws) pre.length) = fire pre ws := by
  by_cases hb : ws.head? = some (.sym "[") ∨ ws.head? = some (.sym "\x7b")
  · obtain ⟨s, w, rfl, hs⟩ : ∃ s w, ws = .sym s :: w ∧ (s = "[" ∨ s = "\x7b") := by
      rcases ws with _ | ⟨t, w⟩
      · simp at hb
      · rcases hb with hb | hb <;> simp only [List.head?_cons, Option.some.injEq] at hb <;>
          exact ⟨_, w, by rw [hb], by simp⟩
    rw [fire, localFire_bracket pre hs, Option.none_or]
    rcases hs with rfl | rfl <;>
      simp (disch := decide) only [Library.builtins, Builtin.rules, List.map_cons, List.map_nil,
        List.findSome?_cons, List.findSome?_nil, attempt_foreign hws, Arith.attempt_parens,
        Arith.attempt_negate, Arith.attempt_binary, Arith.parensAt_sym, Arith.negateAt_sym,
        Arith.binaryAt_sym, Option.map_none, foldFire] <;>
      cases Library.attempt Builtin.listFold.rule _ _ <;>
      cases Library.attempt Builtin.mapFold.rule _ _ <;> rfl
  · obtain ⟨hl, hm⟩ := not_or.1 hb
    have hat : (pre ++ ws)[pre.length]? = ws.head? := by
      rw [List.getElem?_append_right (Nat.le_refl _), Nat.sub_self, List.head?_eq_getElem?]
    rw [fire, foldFire_eq_none hl hm, Option.or_none]
    simp (disch := decide) only [Library.builtins, Builtin.rules, List.map_cons, List.map_nil,
      List.findSome?_cons, List.findSome?_nil, attempt_foreign hws, Arith.attempt_parens,
      Arith.attempt_negate, Arith.attempt_binary,
      Library.attempt_fold_eq_none Library.listFold_template (by rwa [hat]),
      Library.attempt_fold_eq_none Library.mapFold_template (by rwa [hat]), localFire,
      Arith.arithRules, Arith.rewriteWindow]

theorem firing?_builtins (ws : List Token) (hws : ∀ t ∈ ws, isNested t = true) :
    Library.builtins.firing? ws = scanWith fire [] ws :=
  Arith.firing?_scanWith (fun pre ws h => findSome?_attempt pre ws h) ws hws

/-! ### Values and separators start no rewrite -/

/-- The symbols that stand before a part of a list or a map. -/
def openers : List String := ["[", "\x7b", ",", ":", "..."]

/-- The symbols that stand after a part of a list or a map. -/
def closers : List String := [",", ":", "...", "]", "\x7d"]

theorem openers_inert : openers.all Arith.inert = true := by
  decide

theorem closers_quiet : closers.all Arith.quiet = true := by
  decide

theorem fire_closer (pre : List Token) {s : String} (hs : s ∈ closers) (w : List Token) :
    fire pre (.sym s :: w) = none := by
  simp only [closers, List.mem_cons, List.not_mem_nil, or_false] at hs
  rcases hs with rfl | rfl | rfl | rfl | rfl <;>
    rw [fire, foldFire_eq_none (by simp) (by simp), Option.or_none] <;>
    simp (disch := decide) [localFire, Arith.arithRules, List.findSome?_cons, Arith.rewriteWindow,
      Arith.parensAt_sym, Arith.negateAt_sym, Arith.binaryAt_sym]

theorem fire_value (pre : List Token) {v : Token} (hv : v.isValue = true) {s : String}
    (hs : s ∈ closers) (w : List Token) : fire pre (v :: .sym s :: w) = none := by
  have hfold : foldFire pre (v :: .sym s :: w) = none :=
    foldFire_eq_none (by simpa using Builtin.value_ne_sym hv "[")
      (by simpa using Builtin.value_ne_sym hv "\x7b")
  -- a value is no symbol, so it opens no parenthesis and negates nothing
  have hopen : v.isSym "(" = false := by
    cases v <;> simp_all [Token.isSym, Token.isValue, Token.kind]
  have hparens : Arith.parensAt (v :: .sym s :: w) = none := by
    rcases w with _ | ⟨t, w⟩ <;> simp [Arith.parensAt, hopen]
  have hneg : ∀ prev, Arith.negateAt prev (v :: .sym s :: w) = none := fun prev => by
    simp [Arith.negateAt]
  simp only [closers, List.mem_cons, List.not_mem_nil, or_false] at hs
  rcases hs with rfl | rfl | rfl | rfl | rfl <;>
    simp (disch := decide) [fire, hfold, localFire, Arith.arithRules, List.findSome?_cons,
      Arith.rewriteWindow, hparens, hneg, Arith.binaryAt_other]

/-- Tokens the scan crosses without a rewrite: separators and closing brackets, and values each
followed by one of them. -/
inductive Crossing : List Token → Prop
  | nil : Crossing []
  | sym {s : String} {rest : List Token} : s ∈ closers → Crossing rest → Crossing (.sym s :: rest)
  | value {v : Token} {s : String} {rest : List Token} : v.isValue = true → s ∈ closers →
      Crossing rest → Crossing (v :: .sym s :: rest)

theorem Crossing.append {F G : List Token} (hF : Crossing F) (hG : Crossing G) :
    Crossing (F ++ G) := by
  induction hF with
  | nil => exact hG
  | sym hs _ ih => exact .sym hs ih
  | value hv hs _ ih => exact .value hv hs ih

theorem crossing_listFrame {us : List Token} (hus : ∀ u ∈ us, u.isValue = true) :
    Crossing (Tokens.listFrame us) := by
  induction us with
  | nil => exact .nil
  | cons u us ih =>
    simp only [List.forall_mem_cons] at hus
    simpa [Tokens.listFrame] using Crossing.value hus.1 (by simp [closers]) (ih hus.2)

theorem crossing_mapFrame {ps : List (Token × Token)}
    (hps : ∀ p ∈ ps, p.1.isValue = true ∧ p.2.isValue = true) : Crossing (Tokens.mapFrame ps) := by
  induction ps with
  | nil => exact .nil
  | cons p ps ih =>
    simp only [List.forall_mem_cons] at hps
    simpa [Tokens.mapFrame] using Crossing.value hps.1.1 (by simp [closers])
      (Crossing.value hps.1.2 (by simp [closers]) (ih hps.2))

theorem scanWith_crossing {F : List Token} (hF : Crossing F) (pre B : List Token) :
    scanWith fire pre (F ++ B) = scanWith fire (pre ++ F) B := by
  induction hF generalizing pre with
  | nil => simp
  | @sym s rest hs _ ih =>
    rw [List.cons_append, Arith.scanWith_cons_of_none (fire_closer pre hs _), ih]
    simp
  | @value v s rest hv hs _ ih =>
    rw [List.cons_append, List.cons_append, Arith.scanWith_cons_of_none (fire_value pre hv hs _),
      Arith.scanWith_cons_of_none (fire_closer _ hs _), ih]
    simp

/-! ### A fold stops at a part that is no value yet -/

/-- How the tokens of a part that is no value yet start: with a symbol that is no separator and
closes no bracket, or with a number followed by such a symbol. -/
def Pending (ws : List Token) : Prop :=
  (∃ s rest, ws = .sym s :: rest ∧ s ∉ closers) ∨
    ∃ a s rest, ws = .num a :: .sym s :: rest ∧ s ∉ closers

theorem Pending.append {ws : List Token} (h : Pending ws) (B : List Token) : Pending (ws ++ B) := by
  rcases h with ⟨s, rest, rfl, hs⟩ | ⟨a, s, rest, rfl, hs⟩
  · exact .inl ⟨s, rest ++ B, rfl, hs⟩
  · exact .inr ⟨a, s, rest ++ B, rfl, hs⟩

theorem not_mem_closers_of_isArith {s : String} (h : isArith (.sym s) = true) : s ∉ closers := by
  simp only [isArith, Arith.symbols, List.contains_eq_mem, List.mem_cons, List.not_mem_nil,
    or_false, decide_eq_true_eq] at h
  rcases h with rfl | rfl | rfl | rfl | rfl | rfl | rfl <;> decide

theorem tokens_pending {x x' : Term} (hx : x.step = some x') (hv : x.Valid) : Pending x.tokens := by
  cases x with
  | arith e =>
    obtain ⟨e', he', -⟩ := Term.step_arith hx
    cases hv with
    | arith hg _ =>
      have hleaf : e.leaf? = none := by
        cases e with
        | lit => simp [Expr.step] at he'
        | _ => rfl
      obtain ⟨t, u, rest, ht⟩ := Expr.tokens_cons_cons hleaf
      rw [Term.tokens, ht]
      rcases Expr.isArith_cases (e.tokens_arith t (by simp [ht])) with ⟨a, rfl⟩ | ⟨s, rfl⟩
      · obtain ⟨op, rfl, -⟩ := Expr.tokens_num_cons hleaf hg ht
        exact .inr ⟨a, op.symbol, rest, rfl, by cases op <;> decide⟩
      · exact .inl ⟨s, u :: rest, rfl,
          not_mem_closers_of_isArith (e.tokens_arith _ (by simp [ht]))⟩
  | value v => simp [Term.step] at hx
  | list xs => exact .inl ⟨"[", _, rfl, by decide⟩
  | listTail xs t => exact .inl ⟨"[", _, rfl, by decide⟩
  | map es => exact .inl ⟨"\x7b", _, rfl, by decide⟩
  | mapRest es r => exact .inl ⟨"\x7b", _, rfl, by decide⟩


theorem foldList_pending {ws rest : List Token} {start i : Nat} {items : List Token}
    (hdrop : ws.drop i = rest) (hp : Pending rest) : Builtin.foldList ws start i items = none := by
  rcases hp with ⟨s, rest', rfl, -⟩ | ⟨a, s, rest', rfl, hs⟩
  · exact Builtin.foldList_stall_item hdrop rfl
  · rw [Builtin.foldList]
    split
    · simp only [closers, List.mem_cons, List.not_mem_nil, or_false, not_or] at hs
      simp [hdrop, Token.isSym, Token.isValue, Token.kind, hs.1, hs.2.2.1, hs.2.2.2.1]
    · rfl

theorem foldList_pending_tail {ws rest : List Token} {start i : Nat} {items : List Token}
    {w : Token} (hdrop : ws.drop i = w :: .sym "..." :: rest) (hw : w.isValue = true)
    (hp : Pending rest) : Builtin.foldList ws start i items = none := by
  rcases hp with ⟨s, rest', rfl, -⟩ | ⟨a, s, rest', rfl, -⟩
  · exact Builtin.foldList_stall_tail hdrop hw (by simp)
  · exact Builtin.foldList_stall_tail hdrop hw (by simp)

theorem foldMap_pending_key {ws rest : List Token} {start i : Nat}
    {entries : List (Token × Token)} (hdrop : ws.drop i = rest) (hp : Pending rest) :
    Builtin.foldMap ws start i entries = none := by
  rcases hp with ⟨s, rest', rfl, -⟩ | ⟨a, s, rest', rfl, hs⟩
  · exact Builtin.foldMap_stall_key hdrop rfl
  · -- the number is followed by an operator, not by a colon
    have hcolon : (s == ":") = false := by
      simp only [beq_eq_false_iff_ne]
      rintro rfl
      simp [closers] at hs
    rw [Builtin.foldMap]
    split
    · rw [hdrop]
      rcases rest' with _ | ⟨_, _ | ⟨_, _⟩⟩ <;> simp [Token.isSym, hcolon]
    · rfl

theorem foldMap_pending_value {ws rest : List Token} {start i : Nat}
    {entries : List (Token × Token)} {k : Token} (hdrop : ws.drop i = k :: .sym ":" :: rest)
    (hp : Pending rest) : Builtin.foldMap ws start i entries = none := by
  rcases hp with ⟨s, rest', rfl, -⟩ | ⟨a, s, rest', rfl, hs⟩
  · exact Builtin.foldMap_stall_value hdrop rfl
  · rw [Builtin.foldMap]
    split
    · simp only [closers, List.mem_cons, List.not_mem_nil, or_false, not_or] at hs
      simp [hdrop, Token.isSym, Token.isValue, Token.kind, hs.1, hs.2.2.1, hs.2.2.2.2]
    · rfl

theorem foldMap_pending_rest {ws rest : List Token} {start i : Nat}
    {entries : List (Token × Token)} {k v : Token}
    (hdrop : ws.drop i = k :: .sym ":" :: v :: .sym "..." :: rest) (hk : k.isValue = true)
    (hv : v.isValue = true) (hp : Pending rest) : Builtin.foldMap ws start i entries = none := by
  rcases hp with ⟨s, rest', rfl, -⟩ | ⟨a, s, rest', rfl, -⟩
  · exact Builtin.foldMap_stall_rest hdrop hk hv (by simp)
  · exact Builtin.foldMap_stall_rest hdrop hk hv (by simp)


/-! ### The tokens of a bracket around values -/

theorem flatMap_sep {α : Type} (c : Token) (f : α → List Token) (xs : List α) (B : List Token) :
    (xs.flatMap fun x => c :: f x) ++ c :: B = c :: ((xs.flatMap fun x => f x ++ [c]) ++ B) := by
  induction xs with
  | nil => rfl
  | cons x xs ih => simp [ih]

namespace Term

theorem tokensItems_after_values {ys : List Term} {us : List Token} (h : values? ys = some us)
    (x : Term) (zs : List Term) :
    (tokensItems (ys ++ x :: zs)).tail = Tokens.listFrame us ++ (x.tokens ++ tokensItems zs) := by
  rw [tokensItems_append, (values?_eq_some h).1, tokensItems]
  simp only [List.cons_append]
  rw [flatMap_sep]
  simp [Tokens.listFrame]

theorem tokensItems_values {xs : List Term} {us : List Token} {w : Token}
    (h : values? xs = some (us ++ [w])) : (tokensItems xs).tail = Tokens.listFrame us ++ [w] := by
  rw [(values?_eq_some h).1, List.flatMap_append, List.flatMap_singleton, flatMap_sep]
  simp [Tokens.listFrame]

theorem tokensEntries_after_pairs {ys : List (Term × Term)} {ps : List (Token × Token)}
    (h : pairs? ys = some ps) (k v : Term) (zs : List (Term × Term)) :
    (tokensEntries (ys ++ (k, v) :: zs)).tail =
      Tokens.mapFrame ps ++ (k.tokens ++ .sym ":" :: (v.tokens ++ tokensEntries zs)) := by
  rw [tokensEntries_append, (pairs?_eq_some h).1, tokensEntries]
  simp only [List.cons_append, List.append_assoc]
  rw [flatMap_sep]
  simp [Tokens.mapFrame]

theorem tokensEntries_pairs {es : List (Term × Term)} {ps : List (Token × Token)} {k v : Token}
    (h : pairs? es = some (ps ++ [(k, v)])) :
    (tokensEntries es).tail = Tokens.mapFrame ps ++ [k, .sym ":", v] := by
  rw [(pairs?_eq_some h).1, List.flatMap_append, List.flatMap_singleton, flatMap_sep]
  simp [Tokens.mapFrame]

end Term

/-! ### What fires at a bracket -/

theorem fire_list (pre rest : List Token) :
    fire pre (.sym "[" :: rest) = (Builtin.listFold.apply (pre ++ .sym "[" :: rest) pre.length).map
      (.rewritten Builtin.listFold.rule pre.length) := by
  rw [fire, localFire_bracket pre (.inl rfl), Option.none_or, foldFire,
    Library.attempt_fold Library.listFold_template rfl (by simp),
    Library.attempt_fold_eq_none Library.mapFold_template (by simp), Option.or_none]

theorem fire_map (pre rest : List Token) :
    fire pre (.sym "\x7b" :: rest) =
      (Builtin.mapFold.apply (pre ++ .sym "\x7b" :: rest) pre.length).map
        (.rewritten Builtin.mapFold.rule pre.length) := by
  rw [fire, localFire_bracket pre (.inr rfl), Option.none_or, foldFire,
    Library.attempt_fold_eq_none Library.listFold_template (by simp),
    Library.attempt_fold Library.mapFold_template rfl (by simp), Option.none_or]

theorem Pending.head_ne {B : List Token} (hp : Pending B) {s : String} (hs : s ∈ closers) :
    B.head? ≠ some (.sym s) := by
  rcases hp with ⟨s', rest, rfl, hs'⟩ | ⟨a, s', rest, rfl, -⟩
  · simp only [List.head?_cons, ne_eq, Option.some.injEq, Token.sym.injEq]
    rintro rfl
    exact hs' hs
  · simp

theorem fire_list_item (pre : List Token) {us B : List Token} (hus : ∀ u ∈ us, u.isValue = true)
    (hp : Pending B) : fire pre (.sym "[" :: (Tokens.listFrame us ++ B)) = none := by
  have hdrop : (pre ++ .sym "[" :: (Tokens.listFrame us ++ B)).drop (pre.length + 1) =
      Tokens.listFrame us ++ B := by simp
  rw [fire_list, Builtin.listFold_apply_frame hdrop hus fun _ => hp.head_ne (by simp [closers]),
    foldList_pending (by rw [← Tokens.length_listFrame]; exact Builtin.drop_past hdrop) hp]
  rfl

theorem fire_list_tail (pre : List Token) {us B : List Token} {w : Token}
    (hus : ∀ u ∈ us, u.isValue = true) (hw : w.isValue = true) (hp : Pending B) :
    fire pre (.sym "[" :: (Tokens.listFrame us ++ w :: .sym "..." :: B)) = none := by
  have hdrop : (pre ++ .sym "[" :: (Tokens.listFrame us ++ w :: .sym "..." :: B)).drop
      (pre.length + 1) = Tokens.listFrame us ++ w :: .sym "..." :: B := by simp
  rw [fire_list, Builtin.listFold_apply_frame hdrop hus
      fun _ => by simpa using Builtin.value_ne_sym hw "]",
    foldList_pending_tail (by rw [← Tokens.length_listFrame]; exact Builtin.drop_past hdrop) hw hp]
  rfl

theorem fire_list_ellipsis (pre B : List Token) : fire pre (.sym "[" :: .sym "..." :: B) = none := by
  have hdrop : (pre ++ .sym "[" :: .sym "..." :: B).drop (pre.length + 1) = .sym "..." :: B := by
    simp
  rw [fire_list, Builtin.listFold_apply_of_ne (by simp), Builtin.foldList_stall_item hdrop rfl]
  rfl

theorem fire_map_key (pre : List Token) {ps : List (Token × Token)} {B : List Token}
    (hps : ∀ p ∈ ps, p.1.isValue = true ∧ p.2.isValue = true) (hp : Pending B) :
    fire pre (.sym "\x7b" :: (Tokens.mapFrame ps ++ B)) = none := by
  have hdrop : (pre ++ .sym "\x7b" :: (Tokens.mapFrame ps ++ B)).drop (pre.length + 1) =
      Tokens.mapFrame ps ++ B := by simp
  rw [fire_map, Builtin.mapFold_apply_frame hdrop hps fun _ => hp.head_ne (by simp [closers]),
    foldMap_pending_key (by rw [← Tokens.length_mapFrame]; exact Builtin.drop_past hdrop) hp]
  rfl

theorem fire_map_value (pre : List Token) {ps : List (Token × Token)} {B : List Token} {k : Token}
    (hps : ∀ p ∈ ps, p.1.isValue = true ∧ p.2.isValue = true) (hk : k.isValue = true)
    (hp : Pending B) : fire pre (.sym "\x7b" :: (Tokens.mapFrame ps ++ k :: .sym ":" :: B)) = none := by
  have hdrop : (pre ++ .sym "\x7b" :: (Tokens.mapFrame ps ++ k :: .sym ":" :: B)).drop
      (pre.length + 1) = Tokens.mapFrame ps ++ k :: .sym ":" :: B := by simp
  rw [fire_map, Builtin.mapFold_apply_frame hdrop hps
      fun _ => by simpa using Builtin.value_ne_sym hk "\x7d",
    foldMap_pending_value (by rw [← Tokens.length_mapFrame]; exact Builtin.drop_past hdrop) hp]
  rfl

theorem fire_map_rest (pre : List Token) {ps : List (Token × Token)} {B : List Token} {k v : Token}
    (hps : ∀ p ∈ ps, p.1.isValue = true ∧ p.2.isValue = true) (hk : k.isValue = true)
    (hv : v.isValue = true) (hp : Pending B) :
    fire pre (.sym "\x7b" :: (Tokens.mapFrame ps ++ k :: .sym ":" :: v :: .sym "..." :: B)) =
      none := by
  have hdrop : (pre ++ .sym "\x7b" :: (Tokens.mapFrame ps ++ k :: .sym ":" :: v ::
      .sym "..." :: B)).drop (pre.length + 1) =
      Tokens.mapFrame ps ++ k :: .sym ":" :: v :: .sym "..." :: B := by simp
  rw [fire_map, Builtin.mapFold_apply_frame hdrop hps
      fun _ => by simpa using Builtin.value_ne_sym hk "\x7d",
    foldMap_pending_rest (by rw [← Tokens.length_mapFrame]; exact Builtin.drop_past hdrop) hk hv
      hp]
  rfl

theorem fire_map_ellipsis (pre B : List Token) :
    fire pre (.sym "\x7b" :: .sym "..." :: B) = none := by
  have hdrop : (pre ++ .sym "\x7b" :: .sym "..." :: B).drop (pre.length + 1) =
      .sym "..." :: B := by
    simp
  rw [fire_map, Builtin.mapFold_apply_of_ne (by simp), Builtin.foldMap_stall_key hdrop rfl]
  rfl

theorem splice_span {pre rest F R : List Token} {o W : Token} (hrest : rest = F ++ R) {stop : Nat}
    (hstop : stop = pre.length + (F.length + 1)) :
    Tokens.splice (pre ++ o :: rest) pre.length stop [W] = pre ++ W :: R := by
  subst hrest hstop
  rw [Tokens.splice_append]
  simp

theorem fire_list_values {xs : List Term} {vs : List Token} (h : Term.values? xs = some vs)
    (pre R : List Token) :
    fire pre ((Term.list xs).tokens ++ R) =
      some (.rewritten Builtin.listFold.rule pre.length (pre ++ .list vs :: R)) := by
  obtain ⟨htok, -, -, hvs⟩ := Term.values?_eq_some h
  rcases List.eq_nil_or_concat vs with rfl | ⟨us, w, rfl⟩
  · have hxs : (Term.list xs).tokens ++ R = .sym "[" :: (.sym "]" :: R) := by
      simp [Term.tokens, htok]
    rw [hxs, fire_list, Builtin.listFold_apply_empty (by simp),
      splice_span (show Token.sym "]" :: R = [Token.sym "]"] ++ R from rfl)]
    · rfl
    · rfl
  · rw [List.concat_eq_append] at h hvs ⊢
    have hus : ∀ u ∈ us, u.isValue = true := fun u hu => hvs u (by simp [hu])
    have hw : w.isValue = true := hvs w (by simp)
    have hxs : (Term.list xs).tokens ++ R =
        .sym "[" :: (Tokens.listFrame us ++ w :: .sym "]" :: R) := by
      rw [Term.tokens, Term.tokensItems_values h]
      simp
    have hdrop : (pre ++ .sym "[" :: (Tokens.listFrame us ++ w :: .sym "]" :: R)).drop
        (pre.length + 1) = Tokens.listFrame us ++ w :: .sym "]" :: R := by simp
    have hspan : Tokens.listFrame us ++ w :: .sym "]" :: R =
        (Tokens.listFrame us ++ [w, .sym "]"]) ++ R := by simp
    rw [hxs, fire_list, Builtin.listFold_apply_frame hdrop hus
        fun _ => by simpa using Builtin.value_ne_sym hw "]",
      Builtin.foldList_close (by rw [← Tokens.length_listFrame]; exact Builtin.drop_past hdrop) hw,
      splice_span hspan]
    · rfl
    · simp [Tokens.length_listFrame]
      omega

theorem fire_listTail_values {xs : List Term} {t : Term} {vs : List Token} {w W : Token}
    (h : Term.values? xs = some vs) (ht : t.value? = some w) (hW : Term.withTail vs w = some W)
    (pre R : List Token) :
    fire pre ((Term.listTail xs t).tokens ++ R) =
      some (.rewritten Builtin.listFold.rule pre.length (pre ++ W :: R)) := by
  obtain ⟨ts, rfl, hne, rfl⟩ := Term.withTail_eq_some hW
  obtain ⟨-, -, -, hvs⟩ := Term.values?_eq_some h
  rcases List.eq_nil_or_concat vs with rfl | ⟨us, w, rfl⟩
  · exact absurd rfl hne
  rw [List.concat_eq_append] at h hvs ⊢
  have hus : ∀ u ∈ us, u.isValue = true := fun u hu => hvs u (by simp [hu])
  have hw : w.isValue = true := hvs w (by simp)
  have hxs : (Term.listTail xs t).tokens ++ R =
      .sym "[" :: (Tokens.listFrame us ++ w :: .sym "..." :: .list ts :: .sym "]" :: R) := by
    rw [Term.tokens, Term.tokensItems_values h, Term.tokens_of_value? ht]
    simp
  have hdrop : (pre ++ .sym "[" :: (Tokens.listFrame us ++ w :: .sym "..." :: .list ts ::
      .sym "]" :: R)).drop (pre.length + 1) =
      Tokens.listFrame us ++ w :: .sym "..." :: .list ts :: .sym "]" :: R := by simp
  have hspan : Tokens.listFrame us ++ w :: .sym "..." :: .list ts :: .sym "]" :: R =
      (Tokens.listFrame us ++ [w, .sym "...", .list ts, .sym "]"]) ++ R := by simp
  rw [hxs, fire_list, Builtin.listFold_apply_frame hdrop hus
      fun _ => by simpa using Builtin.value_ne_sym hw "]",
    Builtin.foldList_close_tail (by rw [← Tokens.length_listFrame]; exact Builtin.drop_past hdrop)
      hw,
    splice_span hspan]
  · simp
  · simp [Tokens.length_listFrame]
    omega

theorem fire_map_values {es : List (Term × Term)} {ps : List (Token × Token)}
    (h : Term.pairs? es = some ps) (pre R : List Token) :
    fire pre ((Term.map es).tokens ++ R) =
      some (.rewritten Builtin.mapFold.rule pre.length (pre ++ .map (Entries.build ps) :: R)) := by
  obtain ⟨htok, -, -, hps⟩ := Term.pairs?_eq_some h
  rcases List.eq_nil_or_concat ps with rfl | ⟨qs, ⟨k, v⟩, rfl⟩
  · have hes : (Term.map es).tokens ++ R = .sym "\x7b" :: (.sym "\x7d" :: R) := by
      simp [Term.tokens, htok]
    rw [hes, fire_map, Builtin.mapFold_apply_empty (by simp),
      splice_span (show Token.sym "\x7d" :: R = [Token.sym "\x7d"] ++ R from rfl)]
    · rfl
    · rfl
  rw [List.concat_eq_append] at h hps ⊢
  have hqs : ∀ q ∈ qs, q.1.isValue = true ∧ q.2.isValue = true := fun q hq => hps q (by simp [hq])
  obtain ⟨hk, hv⟩ := hps (k, v) (by simp)
  have hes : (Term.map es).tokens ++ R =
      .sym "\x7b" :: (Tokens.mapFrame qs ++ k :: .sym ":" :: v :: .sym "\x7d" :: R) := by
    rw [Term.tokens, Term.tokensEntries_pairs h]
    simp
  have hdrop : (pre ++ .sym "\x7b" :: (Tokens.mapFrame qs ++ k :: .sym ":" :: v ::
      .sym "\x7d" :: R)).drop (pre.length + 1) =
      Tokens.mapFrame qs ++ k :: .sym ":" :: v :: .sym "\x7d" :: R := by simp
  have hspan : Tokens.mapFrame qs ++ k :: .sym ":" :: v :: .sym "\x7d" :: R =
      (Tokens.mapFrame qs ++ [k, .sym ":", v, .sym "\x7d"]) ++ R := by simp
  rw [hes, fire_map, Builtin.mapFold_apply_frame hdrop hqs
      fun _ => by simpa using Builtin.value_ne_sym hk "\x7d",
    Builtin.foldMap_close (by rw [← Tokens.length_mapFrame]; exact Builtin.drop_past hdrop) hk hv,
    splice_span hspan]
  · rfl
  · simp [Tokens.length_mapFrame]
    omega

theorem fire_mapRest_values {es : List (Term × Term)} {r : Term} {ps : List (Token × Token)}
    {w W : Token} (h : Term.pairs? es = some ps) (hr : r.value? = some w)
    (hW : Term.withRest ps w = some W) (pre R : List Token) :
    fire pre ((Term.mapRest es r).tokens ++ R) =
      some (.rewritten Builtin.mapFold.rule pre.length (pre ++ W :: R)) := by
  obtain ⟨rs, rfl, hne, rfl⟩ := Term.withRest_eq_some hW
  obtain ⟨-, -, -, hps⟩ := Term.pairs?_eq_some h
  rcases List.eq_nil_or_concat ps with rfl | ⟨qs, ⟨k, v⟩, rfl⟩
  · exact absurd rfl hne
  rw [List.concat_eq_append] at h hps ⊢
  have hqs : ∀ q ∈ qs, q.1.isValue = true ∧ q.2.isValue = true := fun q hq => hps q (by simp [hq])
  obtain ⟨hk, hv⟩ := hps (k, v) (by simp)
  have hes : (Term.mapRest es r).tokens ++ R = .sym "\x7b" :: (Tokens.mapFrame qs ++ k ::
      .sym ":" :: v :: .sym "..." :: .map rs :: .sym "\x7d" :: R) := by
    rw [Term.tokens, Term.tokensEntries_pairs h, Term.tokens_of_value? hr]
    simp
  have hdrop : (pre ++ .sym "\x7b" :: (Tokens.mapFrame qs ++ k :: .sym ":" :: v ::
      .sym "..." :: .map rs :: .sym "\x7d" :: R)).drop (pre.length + 1) =
      Tokens.mapFrame qs ++ k :: .sym ":" :: v :: .sym "..." :: .map rs :: .sym "\x7d" :: R := by
    simp
  have hspan : Tokens.mapFrame qs ++ k :: .sym ":" :: v :: .sym "..." :: .map rs ::
      .sym "\x7d" :: R =
      (Tokens.mapFrame qs ++ [k, .sym ":", v, .sym "...", .map rs, .sym "\x7d"]) ++ R := by simp
  rw [hes, fire_map, Builtin.mapFold_apply_frame hdrop hqs
      fun _ => by simpa using Builtin.value_ne_sym hk "\x7d",
    Builtin.foldMap_close_rest (by rw [← Tokens.length_mapFrame]; exact Builtin.drop_past hdrop)
      hk hv,
    splice_span hspan]
  · rfl
  · simp [Tokens.length_mapFrame]
    omega

/-! ### The scan over a term -/

theorem scanWith_of_fire {pre ws : List Token} {f : Firing} (h : fire pre ws = some f)
    (hne : ws ≠ []) : scanWith fire pre ws = some f := by
  obtain ⟨t, w, rfl⟩ := List.exists_cons_of_ne_nil hne
  exact Arith.scanWith_cons_of_some h

theorem scan_part {pre F S : List Token} {o : Token} {x x' : Term}
    (hstall : fire pre (o :: (F ++ (x.tokens ++ S))) = none) (hF : Crossing F)
    (hx : ∃ r pos, scanWith fire (pre ++ o :: F) (x.tokens ++ S) =
      some (.rewritten r pos (pre ++ o :: F ++ x'.tokens ++ S))) :
    ∃ r pos, scanWith fire pre (o :: (F ++ (x.tokens ++ S))) =
      some (.rewritten r pos (pre ++ o :: (F ++ (x'.tokens ++ S)))) := by
  obtain ⟨r, pos, h⟩ := hx
  refine ⟨r, pos, ?_⟩
  rw [Arith.scanWith_cons_of_none hstall, scanWith_crossing hF, List.append_assoc, List.singleton_append, h]
  simp

theorem fire_of_localFire {pre ws : List Token} {f : Firing} (h : localFire pre ws = some f) :
    fire pre ws = some f := by
  simp [fire, h]

theorem fire_eq_none_of_arithHead {pre ws : List Token} (ha : arithHead ws = true)
    (h : localFire pre ws = none) : fire pre ws = none := by
  rw [fire, h, Option.none_or]
  -- a window of arithmetic starts with a number or a symbol of arithmetic
  have hhead : ∀ s, ws.head? = some (.sym s) → s ∈ Arith.symbols := by
    rintro s hs
    rcases ws with _ | ⟨t, w⟩
    · simp at hs
    · simp only [List.head?_cons, Option.some.injEq] at hs
      subst hs
      simpa [arithHead] using ha
  exact foldFire_eq_none (fun h' => by simpa [Arith.symbols] using hhead _ h')
    (fun h' => by simpa [Arith.symbols] using hhead _ h')

theorem around_listFrame (pre us : List Token) :
    around openers (pre ++ .sym "[" :: Tokens.listFrame us).getLast? = true := by
  rcases List.eq_nil_or_concat us with rfl | ⟨us, u, rfl⟩
  · simp [around, openers]
  · simp [Tokens.listFrame_append_singleton, List.getLast?_cons, around, openers]

theorem around_mapFrame (pre : List Token) (ps : List (Token × Token)) :
    around openers (pre ++ .sym "\x7b" :: Tokens.mapFrame ps).getLast? = true := by
  rcases List.eq_nil_or_concat ps with rfl | ⟨ps, p, rfl⟩
  · simp [around, openers]
  · simp [Tokens.mapFrame_append_singleton, List.getLast?_cons, around, openers]

theorem around_tokensItems {B : List Token} (hB : around closers B.head? = true) (zs : List Term) :
    around closers (Term.tokensItems zs ++ B).head? = true := by
  cases zs with
  | nil => simpa [Term.tokensItems] using hB
  | cons z zs => simp [Term.tokensItems, around, closers]

theorem around_tokensEntries {B : List Token} (hB : around closers B.head? = true)
    (zs : List (Term × Term)) : around closers (Term.tokensEntries zs ++ B).head? = true := by
  rcases zs with _ | ⟨⟨k, v⟩, zs⟩
  · simpa [Term.tokensEntries] using hB
  · simp [Term.tokensEntries, around, closers]

/-- Between symbols that may stand around a part of a list or a
map, the first rewrite of a pass over the tokens of a term of the grammar is the step that
`Term.step` makes, with everything around it kept. -/
theorem scan_term (t : Term) : ∀ {t'}, t.step = some t' → t.Valid →
    ∀ pre R, around openers pre.getLast? = true → around closers R.head? = true →
      ∃ r pos, scanWith fire pre (t.tokens ++ R) =
        some (.rewritten r pos (pre ++ t'.tokens ++ R)) := by
  induction t using Term.induction with
  | arith e =>
    intro t' h hvalid pre R hl hr
    obtain ⟨e', he', rfl⟩ := Term.step_arith h
    cases hvalid with
    | arith hg hn =>
      -- the rules of arithmetic read the symbols of brackets as no neighbours
      exact @Arith.scanWith_tokens fire (fun _ _ _ => fire_of_localFire)
        (fun _ _ => fire_eq_none_of_arithHead) openers openers_inert closers closers_quiet e e' he'
        hg hn pre R (by rw [Arith.around_append, hl, Bool.or_true])
        (by rw [Arith.around_append, hr, Bool.or_true])
  | value v => intro t' h; cases h
  | list xs ih =>
    intro t' h hvalid pre R hl hr
    cases hvalid with
    | list hxs =>
      rcases Term.step_list h with ⟨xs', hstep, rfl⟩ | ⟨vs, hvs, rfl⟩
      · -- the first item that is no value steps, and the list waits for it
        obtain ⟨ys, x, zs, us, x', rfl, hys, -, hx', rfl⟩ := Term.stepItems_eq_some hstep
        have hus := (Term.values?_eq_some hys).2.2.2
        have hx : x.Valid := hxs x (by simp)
        have htok : ∀ y : Term, (Term.list (ys ++ y :: zs)).tokens ++ R = .sym "[" ::
            (Tokens.listFrame us ++ (y.tokens ++ (Term.tokensItems zs ++ .sym "]" :: R))) :=
          fun y => by
            rw [Term.tokens, Term.tokensItems_after_values hys]
            simp
        rw [List.append_assoc, htok x, htok x']
        exact scan_part (fire_list_item pre hus ((tokens_pending hx' hx).append _))
          (crossing_listFrame hus) (ih x (by simp) hx' hx _ _ (around_listFrame pre us)
            (around_tokensItems (by simp [around, closers]) zs))
      · -- the items are values: the list folds
        refine ⟨Builtin.listFold.rule, pre.length, ?_⟩
        rw [scanWith_of_fire (fire_list_values hvs pre R) (by simp [Term.tokens])]
        simp [Term.tokens]
  | listTail xs t ihs ih =>
    intro t' h hvalid pre R hl hr
    cases hvalid with
    | listTail hxs ht =>
      rcases Term.step_listTail h with
        ⟨xs', hstep, rfl⟩ | ⟨vs, hvs, ⟨u, hu, rfl⟩ | ⟨w, W, hw, hW, rfl⟩⟩
      · -- the first item that is no value steps, and the list waits for it
        obtain ⟨ys, x, zs, us, x', rfl, hys, -, hx', rfl⟩ := Term.stepItems_eq_some hstep
        have hus := (Term.values?_eq_some hys).2.2.2
        have hx : x.Valid := hxs x (by simp)
        have htok : ∀ y : Term, (Term.listTail (ys ++ y :: zs) t).tokens ++ R = .sym "[" ::
            (Tokens.listFrame us ++ (y.tokens ++ (Term.tokensItems zs ++ .sym "..." ::
              (t.tokens ++ .sym "]" :: R)))) :=
          fun y => by
            rw [Term.tokens, Term.tokensItems_after_values hys]
            simp
        rw [List.append_assoc, htok x, htok x']
        exact scan_part (fire_list_item pre hus ((tokens_pending hx' hx).append _))
          (crossing_listFrame hus) (ihs x (by simp) hx' hx _ _ (around_listFrame pre us)
            (around_tokensItems (by simp [around, closers]) zs))
      · -- the items are values and the tail steps
        have hvals := (Term.values?_eq_some hvs).2.2.2
        rcases List.eq_nil_or_concat vs with rfl | ⟨us, w, rfl⟩
        · have htok : ∀ y : Term, (Term.listTail xs y).tokens ++ R =
              .sym "[" :: ([.sym "..."] ++ (y.tokens ++ .sym "]" :: R)) := fun y => by
            simp [Term.tokens, (Term.values?_eq_some hvs).1]
          rw [List.append_assoc, htok t, htok u]
          exact scan_part (by simpa using fire_list_ellipsis pre (t.tokens ++ .sym "]" :: R))
            (.sym (by simp [closers]) .nil)
            (ih hu ht _ _ (by simp [around, openers]) (by simp [around, closers]))
        · rw [List.concat_eq_append] at hvs hvals
          have hus : ∀ u ∈ us, u.isValue = true := fun u hu => hvals u (by simp [hu])
          have hw : w.isValue = true := hvals w (by simp)
          have htok : ∀ y : Term, (Term.listTail xs y).tokens ++ R = .sym "[" ::
              ((Tokens.listFrame us ++ [w, .sym "..."]) ++ (y.tokens ++ .sym "]" :: R)) :=
            fun y => by
              rw [Term.tokens, Term.tokensItems_values hvs]
              simp
          rw [List.append_assoc, htok t, htok u]
          have hstall := fire_list_tail pre hus hw ((tokens_pending hu ht).append (.sym "]" :: R))
          exact scan_part (by simpa using hstall)
            ((crossing_listFrame hus).append (.value hw (by simp [closers]) .nil))
            (ih hu ht _ _ (by simp [List.getLast?_cons, around, openers])
              (by simp [around, closers]))
      · -- the items and the tail are values: the list folds
        refine ⟨Builtin.listFold.rule, pre.length, ?_⟩
        rw [scanWith_of_fire (fire_listTail_values hvs hw hW pre R) (by simp [Term.tokens])]
        simp [Term.tokens]
  | map es ih =>
    intro t' h hvalid pre R hl hr
    cases hvalid with
    | map hks hvs =>
      rcases Term.step_map h with ⟨es', hstep, rfl⟩ | ⟨ps, hps, rfl⟩
      · obtain ⟨ys, k, v, zs, ps, rfl, hys, hfirst⟩ := Term.stepEntries_eq_some hstep
        have hpv := (Term.pairs?_eq_some hys).2.2.2
        rcases hfirst with ⟨-, k', hk', rfl⟩ | ⟨hka, -, v', hv', rfl⟩
        · -- the first key that is no value steps, and the map waits for it
          have hk : k.Valid := hks (k, v) (by simp)
          have htok : ∀ y : Term, (Term.map (ys ++ (y, v) :: zs)).tokens ++ R = .sym "\x7b" ::
              (Tokens.mapFrame ps ++ (y.tokens ++ (.sym ":" :: (v.tokens ++
                (Term.tokensEntries zs ++ .sym "\x7d" :: R))))) := fun y => by
            rw [Term.tokens, Term.tokensEntries_after_pairs hys]
            simp
          rw [List.append_assoc, htok k, htok k']
          exact scan_part (fire_map_key pre hpv ((tokens_pending hk' hk).append _))
            (crossing_mapFrame hpv) ((ih (k, v) (by simp)).1 hk' hk _ _ (around_mapFrame pre ps)
              (by simp [around, closers]))
        · -- the key is a value and the value steps, and the map waits for it
          obtain ⟨a, ha⟩ := Option.isSome_iff_exists.1 hka
          have hv : v.Valid := hvs (k, v) (by simp)
          have htok : ∀ y : Term, (Term.map (ys ++ (k, y) :: zs)).tokens ++ R = .sym "\x7b" ::
              ((Tokens.mapFrame ps ++ [a, .sym ":"]) ++ (y.tokens ++
                (Term.tokensEntries zs ++ .sym "\x7d" :: R))) := fun y => by
            rw [Term.tokens, Term.tokensEntries_after_pairs hys, Term.tokens_of_value? ha]
            simp
          rw [List.append_assoc, htok v, htok v']
          have hstall := fire_map_value pre hpv (Term.isValue_of_value? ha)
            ((tokens_pending hv' hv).append (Term.tokensEntries zs ++ .sym "\x7d" :: R))
          exact scan_part (by simpa using hstall)
            ((crossing_mapFrame hpv).append
              (.value (Term.isValue_of_value? ha) (by simp [closers]) .nil))
            ((ih (k, v) (by simp)).2 hv' hv _ _ (by simp [List.getLast?_cons, around, openers])
              (around_tokensEntries (by simp [around, closers]) zs))
      · -- the entries are values: the map folds
        refine ⟨Builtin.mapFold.rule, pre.length, ?_⟩
        rw [scanWith_of_fire (fire_map_values hps pre R) (by simp [Term.tokens])]
        simp [Term.tokens]
  | mapRest es r ihs ih =>
    intro t' h hvalid pre R hl hr
    cases hvalid with
    | mapRest hks hvs hr' =>
      rcases Term.step_mapRest h with
        ⟨es', hstep, rfl⟩ | ⟨ps, hps, ⟨u, hu, rfl⟩ | ⟨w, W, hw, hW, rfl⟩⟩
      · obtain ⟨ys, k, v, zs, ps, rfl, hys, hfirst⟩ := Term.stepEntries_eq_some hstep
        have hpv := (Term.pairs?_eq_some hys).2.2.2
        rcases hfirst with ⟨-, k', hk', rfl⟩ | ⟨hka, -, v', hv', rfl⟩
        · -- the first key that is no value steps, and the map waits for it
          have hk : k.Valid := hks (k, v) (by simp)
          have htok : ∀ y : Term, (Term.mapRest (ys ++ (y, v) :: zs) r).tokens ++ R =
              .sym "\x7b" :: (Tokens.mapFrame ps ++ (y.tokens ++ (.sym ":" :: (v.tokens ++
                (Term.tokensEntries zs ++ .sym "..." :: (r.tokens ++ .sym "\x7d" :: R)))))) :=
            fun y => by
              rw [Term.tokens, Term.tokensEntries_after_pairs hys]
              simp
          rw [List.append_assoc, htok k, htok k']
          exact scan_part (fire_map_key pre hpv ((tokens_pending hk' hk).append _))
            (crossing_mapFrame hpv) ((ihs (k, v) (by simp)).1 hk' hk _ _ (around_mapFrame pre ps)
              (by simp [around, closers]))
        · -- the key is a value and the value steps, and the map waits for it
          obtain ⟨a, ha⟩ := Option.isSome_iff_exists.1 hka
          have hv : v.Valid := hvs (k, v) (by simp)
          have htok : ∀ y : Term, (Term.mapRest (ys ++ (k, y) :: zs) r).tokens ++ R =
              .sym "\x7b" :: ((Tokens.mapFrame ps ++ [a, .sym ":"]) ++ (y.tokens ++
                (Term.tokensEntries zs ++ .sym "..." :: (r.tokens ++ .sym "\x7d" :: R)))) :=
            fun y => by
              rw [Term.tokens, Term.tokensEntries_after_pairs hys, Term.tokens_of_value? ha]
              simp
          rw [List.append_assoc, htok v, htok v']
          have hstall := fire_map_value pre hpv (Term.isValue_of_value? ha)
            ((tokens_pending hv' hv).append
              (Term.tokensEntries zs ++ .sym "..." :: (r.tokens ++ .sym "\x7d" :: R)))
          exact scan_part (by simpa using hstall)
            ((crossing_mapFrame hpv).append
              (.value (Term.isValue_of_value? ha) (by simp [closers]) .nil))
            ((ihs (k, v) (by simp)).2 hv' hv _ _ (by simp [List.getLast?_cons, around, openers])
              (around_tokensEntries (by simp [around, closers]) zs))
      · -- the entries are values and the remainder steps
        have hvals := (Term.pairs?_eq_some hps).2.2.2
        rcases List.eq_nil_or_concat ps with rfl | ⟨qs, ⟨k, v⟩, rfl⟩
        · have htok : ∀ y : Term, (Term.mapRest es y).tokens ++ R =
              .sym "\x7b" :: ([.sym "..."] ++ (y.tokens ++ .sym "\x7d" :: R)) := fun y => by
            simp [Term.tokens, (Term.pairs?_eq_some hps).1]
          rw [List.append_assoc, htok r, htok u]
          exact scan_part (by simpa using fire_map_ellipsis pre (r.tokens ++ .sym "\x7d" :: R))
            (.sym (by simp [closers]) .nil)
            (ih hu hr' _ _ (by simp [around, openers]) (by simp [around, closers]))
        · rw [List.concat_eq_append] at hps hvals
          have hqs : ∀ q ∈ qs, q.1.isValue = true ∧ q.2.isValue = true :=
            fun q hq => hvals q (by simp [hq])
          obtain ⟨hk, hv⟩ := hvals (k, v) (by simp)
          have htok : ∀ y : Term, (Term.mapRest es y).tokens ++ R = .sym "\x7b" ::
              ((Tokens.mapFrame qs ++ [k, .sym ":", v, .sym "..."]) ++
                (y.tokens ++ .sym "\x7d" :: R)) := fun y => by
            rw [Term.tokens, Term.tokensEntries_pairs hps]
            simp
          rw [List.append_assoc, htok r, htok u]
          have hstall := fire_map_rest pre hqs hk hv ((tokens_pending hu hr').append (.sym "\x7d" :: R))
          exact scan_part (by simpa using hstall)
            ((crossing_mapFrame hqs).append (.value hk (by simp [closers])
              (.value hv (by simp [closers]) .nil)))
            (ih hu hr' _ _ (by simp [List.getLast?_cons, around, openers])
              (by simp [around, closers]))
      · -- the entries and the remainder are values: the map folds
        refine ⟨Builtin.mapFold.rule, pre.length, ?_⟩
        rw [scanWith_of_fire (fire_mapRest_values hps hw hW pre R) (by simp [Term.tokens])]
        simp [Term.tokens]

end Nested

end Reckon

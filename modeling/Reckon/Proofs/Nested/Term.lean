import Reckon.Proofs.Arith.Expr
import Reckon.Token.Map

/-!
# Terms of lists and maps over arithmetic

A term is a tree of arithmetic, a value, or a list or map of terms, with a tail or a remainder
after `...` (`Nested.Term`). Its tokens write each list as `[ x , y ]` and each map as
`{ k : v , w : u }`, with `... t` before the closing bracket for a tail or a remainder
(`Term.tokens`).

A term has the value `Term.eval`: each tree of arithmetic has one, each item, key and value has
one, a tail is a list and a remainder a map. A list folds to the list of its items' values, a
tail adds its items to the front of the tail, and a map folds to the map its entries build in
order, a later key overriding an earlier equal one, over the remainder's entries.

`Term.step` reduces a term from the left: the first item, key or value that is no value yet
takes a step, then the tail or the remainder, and a bracket whose parts are all values folds.
Each step keeps the value and the grammar and lowers the size by one (`Term.step_eval`,
`Term.step_valid`, `Term.step_size`); a term with a value that is not a value yet can step
(`Term.step_isSome`).
-/

namespace Reckon

namespace Nested

open Arith (Expr)

/-- A term of lists and maps over arithmetic: a tree of arithmetic, a value already folded, or a
list or map of terms, with a tail or a remainder after `...`. -/
inductive Term where
  | arith (e : Expr Number)
  | value (v : Token)
  | list (items : List Term)
  | listTail (items : List Term) (tail : Term)
  | map (entries : List (Term × Term))
  | mapRest (entries : List (Term × Term)) (rest : Term)

namespace Term

mutual
/-- The tokens of a term: items separated by commas, keys and values by colons. -/
def tokens : Term → List Token
  | .arith e => e.tokens
  | .value v => [v]
  | .list xs => Token.sym "[" :: (tokensItems xs).tail ++ [Token.sym "]"]
  | .listTail xs t =>
    Token.sym "[" :: (tokensItems xs).tail ++ Token.sym "..." :: tokens t ++ [Token.sym "]"]
  | .map es => Token.sym "\x7b" :: (tokensEntries es).tail ++ [Token.sym "\x7d"]
  | .mapRest es r =>
    Token.sym "\x7b" :: (tokensEntries es).tail ++ Token.sym "..." :: tokens r ++
      [Token.sym "\x7d"]
/-- The tokens of items, each after a comma. -/
def tokensItems : List Term → List Token
  | [] => []
  | x :: xs => Token.sym "," :: tokens x ++ tokensItems xs
/-- The tokens of entries, each after a comma, with a colon between key and value. -/
def tokensEntries : List (Term × Term) → List Token
  | [] => []
  | (k, v) :: es => Token.sym "," :: tokens k ++ Token.sym ":" :: tokens v ++ tokensEntries es
end

mutual
/-- The steps of a term's reduction: one per operator, minus sign and pair of parentheses of its
trees of arithmetic, and one per bracket. -/
def size : Term → Nat
  | .arith e => e.size
  | .value _ => 0
  | .list xs => sizeItems xs + 1
  | .listTail xs t => sizeItems xs + size t + 1
  | .map es => sizeEntries es + 1
  | .mapRest es r => sizeEntries es + size r + 1
def sizeItems : List Term → Nat
  | [] => 0
  | x :: xs => size x + sizeItems xs
def sizeEntries : List (Term × Term) → Nat
  | [] => 0
  | (k, v) :: es => size k + size v + sizeEntries es
end

/-- What `[ vs ... w ]` folds to: `w` is a list, and at least one item stands before it. -/
def withTail (vs : List Token) : Token → Option Token
  | .list ts => if vs.isEmpty then none else some (.list (vs ++ ts))
  | _ => none

/-- What `{ ps ... w }` folds to: `w` is a map, and at least one entry stands before it; the
entries override the remainder's. -/
def withRest (ps : List (Token × Token)) : Token → Option Token
  | .map rs => if ps.isEmpty then none else some (.map (Entries.merge rs (Entries.build ps)))
  | _ => none

mutual
/-- The value a term reduces to, when its trees of arithmetic have values, each tail is a list
and each remainder a map. -/
def eval : Term → Option Token
  | .arith e => e.eval.toOption.map .num
  | .value v => if v.isValue then some v else none
  | .list xs => (evalItems xs).map .list
  | .listTail xs t => (evalItems xs).bind fun vs => (eval t).bind (withTail vs)
  | .map es => (evalEntries es).map fun ps => .map (Entries.build ps)
  | .mapRest es r => (evalEntries es).bind fun ps => (eval r).bind (withRest ps)
def evalItems : List Term → Option (List Token)
  | [] => some []
  | x :: xs => (eval x).bind fun v => (evalItems xs).map (v :: ·)
def evalEntries : List (Term × Term) → Option (List (Token × Token))
  | [] => some []
  | (k, v) :: es =>
    (eval k).bind fun k' => (eval v).bind fun v' => (evalEntries es).map ((k', v') :: ·)
end

/-- The value of a term that is one already: a number, or a value token. -/
def value? : Term → Option Token
  | .arith e => e.leaf?.map .num
  | .value v => if v.isValue then some v else none
  | _ => none

/-- The values of items that are all values already. -/
def values? : List Term → Option (List Token)
  | [] => some []
  | x :: xs => x.value?.bind fun v => (values? xs).map (v :: ·)

/-- The entries of keys and values that are all values already. -/
def pairs? : List (Term × Term) → Option (List (Token × Token))
  | [] => some []
  | (k, v) :: es => k.value?.bind fun k' => v.value?.bind fun v' => (pairs? es).map ((k', v') :: ·)

mutual
/-- One step of the reduction from the left: the first part that is no value yet steps, and a
bracket whose parts are all values folds. -/
def step : Term → Option Term
  | .arith e => e.step.map .arith
  | .value _ => none
  | .list xs =>
    match stepItems xs with
    | some xs' => some (.list xs')
    | none => (values? xs).map fun vs => .value (.list vs)
  | .listTail xs t =>
    match stepItems xs with
    | some xs' => some (.listTail xs' t)
    | none =>
      (values? xs).bind fun vs =>
        match step t with
        | some t' => some (.listTail xs t')
        | none => (t.value?.bind (withTail vs)).map .value
  | .map es =>
    match stepEntries es with
    | some es' => some (.map es')
    | none => (pairs? es).map fun ps => .value (.map (Entries.build ps))
  | .mapRest es r =>
    match stepEntries es with
    | some es' => some (.mapRest es' r)
    | none =>
      (pairs? es).bind fun ps =>
        match step r with
        | some r' => some (.mapRest es r')
        | none => (r.value?.bind (withRest ps)).map .value
/-- The first item that is no value steps. -/
def stepItems : List Term → Option (List Term)
  | [] => none
  | x :: xs =>
    match x.value? with
    | some _ => (stepItems xs).map (x :: ·)
    | none => (step x).map (· :: xs)
/-- The first key or value that is no value steps. -/
def stepEntries : List (Term × Term) → Option (List (Term × Term))
  | [] => none
  | (k, v) :: es =>
    match k.value?, v.value? with
    | none, _ => (step k).map fun k' => (k', v) :: es
    | some _, none => (step v).map fun v' => (k, v') :: es
    | some _, some _ => (stepEntries es).map ((k, v) :: ·)
end

/-- The trees of arithmetic in the term are of the grammar and have no negated exponent. -/
inductive Valid : Term → Prop
  | arith {e : Expr Number} : e.Grammatical → e.NoNegatedExponent → Valid (.arith e)
  | value (v : Token) : Valid (.value v)
  | list {xs : List Term} : (∀ x ∈ xs, Valid x) → Valid (.list xs)
  | listTail {xs : List Term} {t : Term} : (∀ x ∈ xs, Valid x) → Valid t → Valid (.listTail xs t)
  | map {es : List (Term × Term)} : (∀ e ∈ es, Valid e.1) → (∀ e ∈ es, Valid e.2) →
      Valid (.map es)
  | mapRest {es : List (Term × Term)} {r : Term} : (∀ e ∈ es, Valid e.1) →
      (∀ e ∈ es, Valid e.2) → Valid r → Valid (.mapRest es r)

theorem induction {P : Term → Prop} (arith : ∀ e, P (.arith e)) (value : ∀ v, P (.value v))
    (list : ∀ xs, (∀ x ∈ xs, P x) → P (.list xs))
    (listTail : ∀ xs t, (∀ x ∈ xs, P x) → P t → P (.listTail xs t))
    (map : ∀ es, (∀ e ∈ es, P e.1 ∧ P e.2) → P (.map es))
    (mapRest : ∀ es r, (∀ e ∈ es, P e.1 ∧ P e.2) → P r → P (.mapRest es r)) (t : Term) : P t :=
  @Term.rec P (fun xs => ∀ x ∈ xs, P x) (fun es => ∀ e ∈ es, P e.1 ∧ P e.2)
    (fun e => P e.1 ∧ P e.2) arith value list listTail map mapRest
    (fun _ h => absurd h List.not_mem_nil) (fun _ _ hx hxs => List.forall_mem_cons.2 ⟨hx, hxs⟩)
    (fun _ h => absurd h List.not_mem_nil) (fun _ _ he hes => List.forall_mem_cons.2 ⟨he, hes⟩)
    (fun _ _ hk hv => ⟨hk, hv⟩) t

/-! ### Terms that are values already -/

theorem value?_eq_some {t : Term} {v : Token} :
    t.value? = some v ↔ (∃ n, t = .arith (.lit n) ∧ v = .num n) ∨ (t = .value v ∧ v.isValue = true) := by
  cases t with
  | arith e =>
    cases e with
    | lit n => simpa [value?, Expr.leaf?] using eq_comm
    | _ => simp [value?, Expr.leaf?]
  | value w =>
    by_cases hw : w.isValue <;> simp only [value?, hw] <;> simp <;> rintro rfl <;> simpa using hw
  | _ => simp [value?]

theorem tokens_of_value? {t : Term} {v : Token} (h : t.value? = some v) : t.tokens = [v] := by
  rcases value?_eq_some.1 h with ⟨n, rfl, rfl⟩ | ⟨rfl, -⟩ <;> rfl

theorem size_of_value? {t : Term} {v : Token} (h : t.value? = some v) : t.size = 0 := by
  rcases value?_eq_some.1 h with ⟨n, rfl, rfl⟩ | ⟨rfl, -⟩ <;> rfl

theorem eval_of_value? {t : Term} {v : Token} (h : t.value? = some v) : t.eval = some v := by
  rcases value?_eq_some.1 h with ⟨n, rfl, rfl⟩ | ⟨rfl, hv⟩
  · rfl
  · simp [eval, hv]

theorem isValue_of_value? {t : Term} {v : Token} (h : t.value? = some v) : v.isValue = true := by
  rcases value?_eq_some.1 h with ⟨n, rfl, rfl⟩ | ⟨rfl, hv⟩
  · rfl
  · exact hv

theorem step_of_value? {t : Term} {v : Token} (h : t.value? = some v) : t.step = none := by
  rcases value?_eq_some.1 h with ⟨n, rfl, rfl⟩ | ⟨rfl, -⟩ <;> rfl

theorem values?_eq_some {xs : List Term} {us : List Token} (h : values? xs = some us) :
    tokensItems xs = us.flatMap (fun u => [.sym ",", u]) ∧ sizeItems xs = 0 ∧
      evalItems xs = some us ∧ ∀ u ∈ us, u.isValue = true := by
  induction xs generalizing us with
  | nil =>
    simp only [values?, Option.some.injEq] at h
    subst h
    simp [tokensItems, sizeItems, evalItems]
  | cons x xs ih =>
    simp only [values?, Option.bind_eq_some_iff, Option.map_eq_some_iff] at h
    obtain ⟨u, hu, us, hus, rfl⟩ := h
    obtain ⟨htok, hsize, heval, hval⟩ := ih hus
    refine ⟨?_, ?_, ?_, ?_⟩
    · simp [tokensItems, tokens_of_value? hu, htok]
    · simp [sizeItems, size_of_value? hu, hsize]
    · simp [evalItems, eval_of_value? hu, heval]
    · exact List.forall_mem_cons.2 ⟨isValue_of_value? hu, hval⟩

theorem pairs?_eq_some {es : List (Term × Term)} {ps : List (Token × Token)}
    (h : pairs? es = some ps) :
    tokensEntries es = ps.flatMap (fun p => [.sym ",", p.1, .sym ":", p.2]) ∧
      sizeEntries es = 0 ∧ evalEntries es = some ps ∧
      ∀ p ∈ ps, p.1.isValue = true ∧ p.2.isValue = true := by
  induction es generalizing ps with
  | nil =>
    simp only [pairs?, Option.some.injEq] at h
    subst h
    simp [tokensEntries, sizeEntries, evalEntries]
  | cons e es ih =>
    obtain ⟨k, v⟩ := e
    simp only [pairs?, Option.bind_eq_some_iff, Option.map_eq_some_iff] at h
    obtain ⟨k', hk, v', hv, ps, hps, rfl⟩ := h
    obtain ⟨htok, hsize, heval, hval⟩ := ih hps
    refine ⟨?_, ?_, ?_, ?_⟩
    · simp [tokensEntries, tokens_of_value? hk, tokens_of_value? hv, htok]
    · simp [sizeEntries, size_of_value? hk, size_of_value? hv, hsize]
    · simp [evalEntries, eval_of_value? hk, eval_of_value? hv, heval]
    · exact List.forall_mem_cons.2 ⟨⟨isValue_of_value? hk, isValue_of_value? hv⟩, hval⟩

/-! ### The parts of a bracket -/

theorem tokensItems_append (xs ys : List Term) :
    tokensItems (xs ++ ys) = tokensItems xs ++ tokensItems ys := by
  induction xs with
  | nil => rfl
  | cons x xs ih => simp [tokensItems, ih]

theorem sizeItems_append (xs ys : List Term) : sizeItems (xs ++ ys) = sizeItems xs + sizeItems ys := by
  induction xs with
  | nil => simp [sizeItems]
  | cons x xs ih => simp [sizeItems, ih]; omega

theorem evalItems_append (xs ys : List Term) :
    evalItems (xs ++ ys) = (evalItems xs).bind fun us => (evalItems ys).map (us ++ ·) := by
  induction xs with
  | nil => simp [evalItems]
  | cons x xs ih =>
    simp only [List.cons_append, evalItems, ih]
    cases eval x <;> cases evalItems xs <;> cases evalItems ys <;> rfl

theorem tokensEntries_append (es fs : List (Term × Term)) :
    tokensEntries (es ++ fs) = tokensEntries es ++ tokensEntries fs := by
  induction es with
  | nil => rfl
  | cons e es ih => simp [tokensEntries, ih]

theorem sizeEntries_append (es fs : List (Term × Term)) :
    sizeEntries (es ++ fs) = sizeEntries es + sizeEntries fs := by
  induction es with
  | nil => simp [sizeEntries]
  | cons e es ih => simp [sizeEntries, ih]; omega

theorem evalEntries_append (es fs : List (Term × Term)) :
    evalEntries (es ++ fs) = (evalEntries es).bind fun ps => (evalEntries fs).map (ps ++ ·) := by
  induction es with
  | nil => simp [evalEntries]
  | cons e es ih =>
    obtain ⟨k, v⟩ := e
    simp only [List.cons_append, evalEntries, ih]
    cases eval k <;> cases eval v <;> cases evalEntries es <;> cases evalEntries fs <;> rfl

theorem stepItems_append_of_values? {ys : List Term} {us : List Token} (h : values? ys = some us)
    (zs : List Term) : stepItems (ys ++ zs) = (stepItems zs).map (ys ++ ·) := by
  induction ys generalizing us with
  | nil => simp
  | cons y ys ih =>
    simp only [values?, Option.bind_eq_some_iff, Option.map_eq_some_iff] at h
    obtain ⟨u, hu, us, hus, rfl⟩ := h
    simp [stepItems, hu, ih hus, Option.map_map, Function.comp_def]

/-- A step of items steps the first item that is no value, after items that are. -/
theorem stepItems_eq_some {xs xs' : List Term} (h : stepItems xs = some xs') :
    ∃ ys x zs us x', xs = ys ++ x :: zs ∧ values? ys = some us ∧ x.value? = none ∧
      x.step = some x' ∧ xs' = ys ++ x' :: zs := by
  induction xs generalizing xs' with
  | nil => simp [stepItems] at h
  | cons x xs ih =>
    cases hx : x.value? with
    | some u =>
      simp only [stepItems, hx, Option.map_eq_some_iff] at h
      obtain ⟨xs'', hxs, rfl⟩ := h
      obtain ⟨ys, y, zs, us, y', rfl, hys, hy, hy', rfl⟩ := ih hxs
      exact ⟨x :: ys, y, zs, u :: us, y', rfl, by simp [values?, hx, hys], hy, hy', rfl⟩
    | none =>
      simp only [stepItems, hx, Option.map_eq_some_iff] at h
      obtain ⟨x', hx', rfl⟩ := h
      exact ⟨[], x, xs, [], x', rfl, rfl, hx, hx', rfl⟩

theorem values?_eq_none {xs : List Term} (h : values? xs = none) :
    ∃ ys x zs us, xs = ys ++ x :: zs ∧ values? ys = some us ∧ x.value? = none := by
  induction xs with
  | nil => simp [values?] at h
  | cons x xs ih =>
    cases hx : x.value? with
    | some u =>
      have hxs : values? xs = none := by
        cases hxs : values? xs
        · rfl
        · simp [values?, hx, hxs] at h
      obtain ⟨ys, y, zs, us, rfl, hys, hy⟩ := ih hxs
      exact ⟨x :: ys, y, zs, u :: us, rfl, by simp [values?, hx, hys], hy⟩
    | none => exact ⟨[], x, xs, [], rfl, rfl, hx⟩

theorem stepEntries_append_of_pairs? {ys : List (Term × Term)} {ps : List (Token × Token)}
    (h : pairs? ys = some ps) (zs : List (Term × Term)) :
    stepEntries (ys ++ zs) = (stepEntries zs).map (ys ++ ·) := by
  induction ys generalizing ps with
  | nil => simp
  | cons e ys ih =>
    obtain ⟨k, v⟩ := e
    simp only [pairs?, Option.bind_eq_some_iff, Option.map_eq_some_iff] at h
    obtain ⟨k', hk, v', hv, ps, hps, rfl⟩ := h
    simp [stepEntries, hk, hv, ih hps, Option.map_map, Function.comp_def]

/-- A step of entries steps the key of the first entry whose key is no value, or else the
value of the first entry whose value is no value, after entries that are values. -/
theorem stepEntries_eq_some {es es' : List (Term × Term)} (h : stepEntries es = some es') :
    ∃ ys k v zs ps, es = ys ++ (k, v) :: zs ∧ pairs? ys = some ps ∧
      ((k.value? = none ∧ ∃ k', k.step = some k' ∧ es' = ys ++ (k', v) :: zs) ∨
        ((k.value?).isSome ∧ v.value? = none ∧ ∃ v', v.step = some v' ∧
          es' = ys ++ (k, v') :: zs)) := by
  induction es generalizing es' with
  | nil => simp [stepEntries] at h
  | cons e es ih =>
    obtain ⟨k, v⟩ := e
    cases hk : k.value? with
    | none =>
      simp only [stepEntries, hk, Option.map_eq_some_iff] at h
      obtain ⟨k', hk', rfl⟩ := h
      exact ⟨[], k, v, es, [], rfl, rfl, .inl ⟨hk, k', hk', rfl⟩⟩
    | some a =>
      cases hv : v.value? with
      | none =>
        simp only [stepEntries, hk, hv, Option.map_eq_some_iff] at h
        obtain ⟨v', hv', rfl⟩ := h
        exact ⟨[], k, v, es, [], rfl, rfl, .inr ⟨by simp [hk], hv, v', hv', rfl⟩⟩
      | some b =>
        simp only [stepEntries, hk, hv, Option.map_eq_some_iff] at h
        obtain ⟨es'', hes, rfl⟩ := h
        obtain ⟨ys, k₁, v₁, zs, ps, rfl, hys, hstep⟩ := ih hes
        refine ⟨(k, v) :: ys, k₁, v₁, zs, (a, b) :: ps, rfl, by simp [pairs?, hk, hv, hys], ?_⟩
        rcases hstep with ⟨h₁, k', hk', rfl⟩ | ⟨h₁, h₂, v', hv', rfl⟩
        · exact .inl ⟨h₁, k', hk', rfl⟩
        · exact .inr ⟨h₁, h₂, v', hv', rfl⟩

theorem pairs?_eq_none {es : List (Term × Term)} (h : pairs? es = none) :
    ∃ ys k v zs ps, es = ys ++ (k, v) :: zs ∧ pairs? ys = some ps ∧
      (k.value? = none ∨ ((k.value?).isSome ∧ v.value? = none)) := by
  induction es with
  | nil => simp [pairs?] at h
  | cons e es ih =>
    obtain ⟨k, v⟩ := e
    cases hk : k.value? with
    | none => exact ⟨[], k, v, es, [], rfl, rfl, .inl hk⟩
    | some a =>
      cases hv : v.value? with
      | none => exact ⟨[], k, v, es, [], rfl, rfl, .inr ⟨by simp [hk], hv⟩⟩
      | some b =>
        have hes : pairs? es = none := by
          cases hes : pairs? es
          · rfl
          · simp [pairs?, hk, hv, hes] at h
        obtain ⟨ys, k₁, v₁, zs, ps, rfl, hys, hfirst⟩ := ih hes
        exact ⟨(k, v) :: ys, k₁, v₁, zs, (a, b) :: ps, rfl, by simp [pairs?, hk, hv, hys], hfirst⟩

theorem withTail_eq_some {vs : List Token} {w W : Token} (h : withTail vs w = some W) :
    ∃ ts, w = .list ts ∧ vs ≠ [] ∧ W = .list (vs ++ ts) := by
  cases w with
  | list ts =>
    cases vs with
    | nil => simp [withTail] at h
    | cons v vs =>
      simp only [withTail, List.isEmpty_cons, Bool.false_eq_true, if_false, Option.some.injEq] at h
      exact ⟨ts, rfl, List.cons_ne_nil v vs, h.symm⟩
  | _ => simp [withTail] at h

theorem withRest_eq_some {ps : List (Token × Token)} {w W : Token} (h : withRest ps w = some W) :
    ∃ rs, w = .map rs ∧ ps ≠ [] ∧ W = .map (Entries.merge rs (Entries.build ps)) := by
  cases w with
  | map rs =>
    cases ps with
    | nil => simp [withRest] at h
    | cons p ps =>
      simp only [withRest, List.isEmpty_cons, Bool.false_eq_true, if_false, Option.some.injEq] at h
      exact ⟨rs, rfl, List.cons_ne_nil p ps, h.symm⟩
  | _ => simp [withRest] at h

/-! ### What a step does

A step of a bracket steps one of its parts, or folds the bracket when every part is a value. -/

section Step

attribute [local simp] step

theorem step_arith {e : Expr Number} {t' : Term} (h : (arith e).step = some t') :
    ∃ e', e.step = some e' ∧ t' = arith e' := by
  obtain ⟨e', he, rfl⟩ := Option.map_eq_some_iff.1 h
  exact ⟨e', he, rfl⟩

theorem step_list {xs : List Term} {t' : Term} (h : (list xs).step = some t') :
    (∃ xs', stepItems xs = some xs' ∧ t' = list xs') ∨
      ∃ vs, values? xs = some vs ∧ t' = .value (.list vs) := by
  simp only [step] at h
  split at h
  · next xs' hxs => exact .inl ⟨xs', hxs, (Option.some.inj h).symm⟩
  · obtain ⟨vs, hvs, rfl⟩ := Option.map_eq_some_iff.1 h
    exact .inr ⟨vs, hvs, rfl⟩

theorem step_listTail {xs : List Term} {t t' : Term} (h : (listTail xs t).step = some t') :
    (∃ xs', stepItems xs = some xs' ∧ t' = listTail xs' t) ∨
      ∃ vs, values? xs = some vs ∧ ((∃ u, t.step = some u ∧ t' = listTail xs u) ∨
        ∃ w W, t.value? = some w ∧ withTail vs w = some W ∧ t' = .value W) := by
  simp only [step] at h
  split at h
  · next xs' hxs => exact .inl ⟨xs', hxs, (Option.some.inj h).symm⟩
  · obtain ⟨vs, hvs, h⟩ := Option.bind_eq_some_iff.1 h
    refine .inr ⟨vs, hvs, ?_⟩
    split at h
    · next u hu => exact .inl ⟨u, hu, (Option.some.inj h).symm⟩
    · obtain ⟨W, hW, rfl⟩ := Option.map_eq_some_iff.1 h
      obtain ⟨w, hw, hW⟩ := Option.bind_eq_some_iff.1 hW
      exact .inr ⟨w, W, hw, hW, rfl⟩

theorem step_map {es : List (Term × Term)} {t' : Term} (h : (map es).step = some t') :
    (∃ es', stepEntries es = some es' ∧ t' = map es') ∨
      ∃ ps, pairs? es = some ps ∧ t' = .value (.map (Entries.build ps)) := by
  simp only [step] at h
  split at h
  · next es' hes => exact .inl ⟨es', hes, (Option.some.inj h).symm⟩
  · obtain ⟨ps, hps, rfl⟩ := Option.map_eq_some_iff.1 h
    exact .inr ⟨ps, hps, rfl⟩

theorem step_mapRest {es : List (Term × Term)} {r t' : Term} (h : (mapRest es r).step = some t') :
    (∃ es', stepEntries es = some es' ∧ t' = mapRest es' r) ∨
      ∃ ps, pairs? es = some ps ∧ ((∃ u, r.step = some u ∧ t' = mapRest es u) ∨
        ∃ w W, r.value? = some w ∧ withRest ps w = some W ∧ t' = .value W) := by
  simp only [step] at h
  split at h
  · next es' hes => exact .inl ⟨es', hes, (Option.some.inj h).symm⟩
  · obtain ⟨ps, hps, h⟩ := Option.bind_eq_some_iff.1 h
    refine .inr ⟨ps, hps, ?_⟩
    split at h
    · next u hu => exact .inl ⟨u, hu, (Option.some.inj h).symm⟩
    · obtain ⟨W, hW, rfl⟩ := Option.map_eq_some_iff.1 h
      obtain ⟨w, hw, hW⟩ := Option.bind_eq_some_iff.1 hW
      exact .inr ⟨w, W, hw, hW, rfl⟩

end Step

/-! ### What a step keeps -/

section Lift

/-! A step of items or entries is a step of one part, so what a step of a part keeps, the step of
the items or entries keeps. -/

variable {xs xs' : List Term} {es es' : List (Term × Term)}

theorem sizeItems_step (ih : ∀ x ∈ xs, ∀ {x'}, x.step = some x' → x'.size + 1 = x.size)
    (h : stepItems xs = some xs') : sizeItems xs' + 1 = sizeItems xs := by
  obtain ⟨ys, x, zs, -, x', rfl, -, -, hx', rfl⟩ := stepItems_eq_some h
  have := ih x (by simp) hx'
  simp only [sizeItems_append, sizeItems]
  omega

theorem sizeEntries_step (ih : ∀ e ∈ es, (∀ {k'}, e.1.step = some k' → k'.size + 1 = e.1.size) ∧
      ∀ {v'}, e.2.step = some v' → v'.size + 1 = e.2.size)
    (h : stepEntries es = some es') : sizeEntries es' + 1 = sizeEntries es := by
  obtain ⟨ys, k, v, zs, -, rfl, -, ⟨-, k', hk', rfl⟩ | ⟨-, -, v', hv', rfl⟩⟩ := stepEntries_eq_some h
  · have hk : k'.size + 1 = k.size := (ih (k, v) (by simp)).1 hk'
    simp only [sizeEntries_append, sizeEntries]
    omega
  · have hv : v'.size + 1 = v.size := (ih (k, v) (by simp)).2 hv'
    simp only [sizeEntries_append, sizeEntries]
    omega

theorem evalItems_step (ih : ∀ x ∈ xs, ∀ {x'}, x.step = some x' → x'.eval = x.eval)
    (h : stepItems xs = some xs') : evalItems xs' = evalItems xs := by
  obtain ⟨ys, x, zs, -, x', rfl, -, -, hx', rfl⟩ := stepItems_eq_some h
  simp only [evalItems_append, evalItems, ih x (by simp) hx']

theorem evalEntries_step (ih : ∀ e ∈ es, (∀ {k'}, e.1.step = some k' → k'.eval = e.1.eval) ∧
      ∀ {v'}, e.2.step = some v' → v'.eval = e.2.eval)
    (h : stepEntries es = some es') : evalEntries es' = evalEntries es := by
  obtain ⟨ys, k, v, zs, -, rfl, -, ⟨-, k', hk', rfl⟩ | ⟨-, -, v', hv', rfl⟩⟩ := stepEntries_eq_some h
  · simp only [evalEntries_append, evalEntries, (ih (k, v) (by simp)).1 hk']
  · simp only [evalEntries_append, evalEntries, (ih (k, v) (by simp)).2 hv']

theorem valid_items_step (ih : ∀ x ∈ xs, ∀ {x'}, x.step = some x' → x.Valid → x'.Valid)
    (h : stepItems xs = some xs') (hv : ∀ x ∈ xs, x.Valid) : ∀ x ∈ xs', x.Valid := by
  obtain ⟨ys, x, zs, -, x', rfl, -, -, hx', rfl⟩ := stepItems_eq_some h
  simp only [List.forall_mem_append, List.forall_mem_cons] at ih hv ⊢
  exact ⟨hv.1, ih.2.1 hx' hv.2.1, hv.2.2⟩

theorem valid_entries_step (ih : ∀ e ∈ es, (∀ {k'}, e.1.step = some k' → e.1.Valid → k'.Valid) ∧
      ∀ {v'}, e.2.step = some v' → e.2.Valid → v'.Valid)
    (h : stepEntries es = some es') (hk : ∀ e ∈ es, e.1.Valid) (hv : ∀ e ∈ es, e.2.Valid) :
    (∀ e ∈ es', e.1.Valid) ∧ ∀ e ∈ es', e.2.Valid := by
  obtain ⟨ys, k, v, zs, -, rfl, -, hstep⟩ := stepEntries_eq_some h
  rcases hstep with ⟨-, k', hk', rfl⟩ | ⟨-, -, v', hv', rfl⟩ <;>
    simp only [List.forall_mem_append, List.forall_mem_cons] at ih hk hv ⊢
  · exact ⟨⟨hk.1, ih.2.1.1 hk' hk.2.1, hk.2.2⟩, hv⟩
  · exact ⟨hk, ⟨hv.1, ih.2.1.2 hv' hv.2.1, hv.2.2⟩⟩

end Lift

theorem step_size (t : Term) : ∀ {t'}, t.step = some t' → t'.size + 1 = t.size := by
  induction t using Term.induction with
  | arith e =>
    intro t' h
    obtain ⟨e', he, rfl⟩ := step_arith h
    exact e.step_size he
  | value v => intro t' h; cases h
  | list xs ih =>
    intro t' h
    rcases step_list h with ⟨xs', hxs, rfl⟩ | ⟨vs, hvs, rfl⟩
    · simp [size, sizeItems_step ih hxs]
    · simp [size, (values?_eq_some hvs).2.1]
  | listTail xs t ihs ih =>
    intro t' h
    rcases step_listTail h with ⟨xs', hxs, rfl⟩ | ⟨vs, hvs, ⟨u, hu, rfl⟩ | ⟨w, W, hw, -, rfl⟩⟩
    · have := sizeItems_step ihs hxs
      simp only [size]
      omega
    · have := ih hu
      simp only [size]
      omega
    · simp [size, (values?_eq_some hvs).2.1, size_of_value? hw]
  | map es ih =>
    intro t' h
    rcases step_map h with ⟨es', hes, rfl⟩ | ⟨ps, hps, rfl⟩
    · simp [size, sizeEntries_step ih hes]
    · simp [size, (pairs?_eq_some hps).2.1]
  | mapRest es r ihs ih =>
    intro t' h
    rcases step_mapRest h with ⟨es', hes, rfl⟩ | ⟨ps, hps, ⟨u, hu, rfl⟩ | ⟨w, W, hw, -, rfl⟩⟩
    · have := sizeEntries_step ihs hes
      simp only [size]
      omega
    · have := ih hu
      simp only [size]
      omega
    · simp [size, (pairs?_eq_some hps).2.1, size_of_value? hw]

theorem step_eval (t : Term) : ∀ {t'}, t.step = some t' → t'.eval = t.eval := by
  induction t using Term.induction with
  | arith e =>
    intro t' h
    obtain ⟨e', he, rfl⟩ := step_arith h
    simp [eval, e.step_eval he]
  | value v => intro t' h; cases h
  | list xs ih =>
    intro t' h
    rcases step_list h with ⟨xs', hxs, rfl⟩ | ⟨vs, hvs, rfl⟩
    · simp [eval, evalItems_step ih hxs]
    · simp [eval, (values?_eq_some hvs).2.2.1, Token.isValue, Token.kind]
  | listTail xs t ihs ih =>
    intro t' h
    rcases step_listTail h with ⟨xs', hxs, rfl⟩ | ⟨vs, hvs, ⟨u, hu, rfl⟩ | ⟨w, W, hw, hW, rfl⟩⟩
    · simp [eval, evalItems_step ihs hxs]
    · simp [eval, ih hu]
    · obtain ⟨ts, rfl, -, rfl⟩ := withTail_eq_some hW
      simp [eval, (values?_eq_some hvs).2.2.1, eval_of_value? hw, hW, Token.isValue, Token.kind]
  | map es ih =>
    intro t' h
    rcases step_map h with ⟨es', hes, rfl⟩ | ⟨ps, hps, rfl⟩
    · simp [eval, evalEntries_step ih hes]
    · simp [eval, (pairs?_eq_some hps).2.2.1, Token.isValue, Token.kind]
  | mapRest es r ihs ih =>
    intro t' h
    rcases step_mapRest h with ⟨es', hes, rfl⟩ | ⟨ps, hps, ⟨u, hu, rfl⟩ | ⟨w, W, hw, hW, rfl⟩⟩
    · simp [eval, evalEntries_step ihs hes]
    · simp [eval, ih hu]
    · obtain ⟨rs, rfl, -, rfl⟩ := withRest_eq_some hW
      simp [eval, (pairs?_eq_some hps).2.2.1, eval_of_value? hw, hW, Token.isValue, Token.kind]

theorem step_valid (t : Term) : ∀ {t'}, t.step = some t' → t.Valid → t'.Valid := by
  induction t using Term.induction with
  | arith e =>
    intro t' h hv
    obtain ⟨e', he, rfl⟩ := step_arith h
    cases hv with
    | arith hg hn => exact .arith (e.step_grammatical he hg) (e.step_noNegatedExponent he hn)
  | value v => intro t' h; cases h
  | list xs ih =>
    intro t' h hv
    cases hv with
    | list hxs =>
      rcases step_list h with ⟨xs', hstep, rfl⟩ | ⟨vs, -, rfl⟩
      · exact .list (valid_items_step ih hstep hxs)
      · exact .value _
  | listTail xs t ihs ih =>
    intro t' h hv
    cases hv with
    | listTail hxs ht =>
      rcases step_listTail h with ⟨xs', hstep, rfl⟩ | ⟨vs, -, ⟨u, hu, rfl⟩ | ⟨w, W, -, -, rfl⟩⟩
      · exact .listTail (valid_items_step ihs hstep hxs) ht
      · exact .listTail hxs (ih hu ht)
      · exact .value _
  | map es ih =>
    intro t' h hv
    cases hv with
    | map hk hv =>
      rcases step_map h with ⟨es', hstep, rfl⟩ | ⟨ps, -, rfl⟩
      · obtain ⟨hk', hv'⟩ := valid_entries_step ih hstep hk hv
        exact .map hk' hv'
      · exact .value _
  | mapRest es r ihs ih =>
    intro t' h hv
    cases hv with
    | mapRest hk hv hr =>
      rcases step_mapRest h with ⟨es', hstep, rfl⟩ | ⟨ps, -, ⟨u, hu, rfl⟩ | ⟨w, W, -, -, rfl⟩⟩
      · obtain ⟨hk', hv'⟩ := valid_entries_step ihs hstep hk hv
        exact .mapRest hk' hv' hr
      · exact .mapRest hk hv (ih hu hr)
      · exact .value _

/-! ### Terms with a value step -/

theorem stepItems_of_values? {xs : List Term} {vs : List Token} (h : values? xs = some vs) :
    stepItems xs = none := by
  simpa [stepItems] using stepItems_append_of_values? h []

theorem stepEntries_of_pairs? {es : List (Term × Term)} {ps : List (Token × Token)}
    (h : pairs? es = some ps) : stepEntries es = none := by
  simpa [stepEntries] using stepEntries_append_of_pairs? h []

theorem eval_of_mem_items {xs : List Term} {us : List Token} (h : evalItems xs = some us) :
    ∀ x ∈ xs, ∃ w, x.eval = some w := by
  induction xs generalizing us with
  | nil => simp
  | cons x xs ih =>
    simp only [evalItems, Option.bind_eq_some_iff, Option.map_eq_some_iff] at h
    obtain ⟨w, hw, us, hus, -⟩ := h
    exact List.forall_mem_cons.2 ⟨⟨w, hw⟩, ih hus⟩

theorem eval_of_mem_entries {es : List (Term × Term)} {ps : List (Token × Token)}
    (h : evalEntries es = some ps) :
    ∀ e ∈ es, (∃ a, e.1.eval = some a) ∧ ∃ b, e.2.eval = some b := by
  induction es generalizing ps with
  | nil => simp
  | cons e es ih =>
    obtain ⟨k, v⟩ := e
    simp only [evalEntries, Option.bind_eq_some_iff, Option.map_eq_some_iff] at h
    obtain ⟨a, ha, b, hb, ps, hps, -⟩ := h
    exact List.forall_mem_cons.2 ⟨⟨⟨a, ha⟩, ⟨b, hb⟩⟩, ih hps⟩

theorem stepItems_isSome {xs : List Term}
    (ih : ∀ x ∈ xs, x.value? = none → ∀ {w}, x.eval = some w → ∃ x', x.step = some x')
    {us : List Token} (heval : evalItems xs = some us) (hv : values? xs = none) :
    ∃ xs', stepItems xs = some xs' := by
  obtain ⟨ys, x, zs, vs, rfl, hys, hx⟩ := values?_eq_none hv
  -- the first item that is no value has a value, so it steps
  obtain ⟨w, hw⟩ := eval_of_mem_items heval x (by simp)
  obtain ⟨x', hx'⟩ := ih x (by simp) hx hw
  exact ⟨ys ++ x' :: zs, by simp [stepItems_append_of_values? hys, stepItems, hx, hx']⟩

theorem stepEntries_isSome {es : List (Term × Term)}
    (ih : ∀ e ∈ es, (e.1.value? = none → ∀ {w}, e.1.eval = some w → ∃ k', e.1.step = some k') ∧
      (e.2.value? = none → ∀ {w}, e.2.eval = some w → ∃ v', e.2.step = some v'))
    {ps : List (Token × Token)} (heval : evalEntries es = some ps) (hp : pairs? es = none) :
    ∃ es', stepEntries es = some es' := by
  obtain ⟨ys, k, v, zs, qs, rfl, hys, hfirst⟩ := pairs?_eq_none hp
  obtain ⟨⟨a, ha⟩, ⟨b, hb⟩⟩ : (∃ a, k.eval = some a) ∧ ∃ b, v.eval = some b :=
    eval_of_mem_entries heval (k, v) (by simp)
  obtain ⟨ihk, ihv⟩ : (k.value? = none → ∀ {w}, k.eval = some w → ∃ k', k.step = some k') ∧
      (v.value? = none → ∀ {w}, v.eval = some w → ∃ v', v.step = some v') := ih (k, v) (by simp)
  rw [stepEntries_append_of_pairs? hys]
  rcases hfirst with hk | ⟨hk, hv⟩
  · -- the key is no value: it steps
    obtain ⟨k', hk'⟩ := ihk hk ha
    exact ⟨ys ++ (k', v) :: zs, by simp [stepEntries, hk, hk']⟩
  · -- the key is a value and the value is none: the value steps
    obtain ⟨a', ha'⟩ := Option.isSome_iff_exists.1 hk
    obtain ⟨v', hv'⟩ := ihv hv hb
    exact ⟨ys ++ (k, v') :: zs, by simp [stepEntries, ha', hv, hv']⟩

theorem step_isSome (t : Term) : t.value? = none → ∀ {w}, t.eval = some w → ∃ t', t.step = some t' := by
  induction t using Term.induction with
  | arith e =>
    intro hv w hw
    have hleaf : e.leaf? = none := by simpa [value?] using hv
    obtain ⟨n, hn, -⟩ := Option.map_eq_some_iff.1 hw
    obtain ⟨e', he'⟩ := e.step_isSome hleaf (Expr.toOption_eq_some.1 hn)
    exact ⟨arith e', by simp [step, he']⟩
  | value v =>
    intro hv w hw
    by_cases h : v.isValue <;> simp [value?, eval, h] at hv hw
  | list xs ih =>
    intro _ w hw
    obtain ⟨us, hus, -⟩ := Option.map_eq_some_iff.1 hw
    cases hvs : values? xs with
    | some vs => exact ⟨value (.list vs), by simp [step, stepItems_of_values? hvs, hvs]⟩
    | none =>
      obtain ⟨xs', hxs'⟩ := stepItems_isSome ih hus hvs
      exact ⟨list xs', by simp [step, hxs']⟩
  | listTail xs t ihs ih =>
    intro _ w hw
    obtain ⟨us, hus, hw⟩ := Option.bind_eq_some_iff.1 hw
    obtain ⟨a, ha, hW⟩ := Option.bind_eq_some_iff.1 hw
    cases hvs : values? xs with
    | none =>
      obtain ⟨xs', hxs'⟩ := stepItems_isSome ihs hus hvs
      exact ⟨listTail xs' t, by simp [step, hxs']⟩
    | some vs =>
      -- the items are values: the tail steps, or else it is a value and the list folds
      obtain rfl : us = vs := by simpa [hus] using (values?_eq_some hvs).2.2.1
      cases ht : t.step with
      | some u => exact ⟨listTail xs u, by simp [step, stepItems_of_values? hvs, hvs, ht]⟩
      | none =>
        cases htv : t.value? with
        | none => simpa [ht] using ih htv ha
        | some a' =>
          obtain rfl : a' = a := by simpa [eval_of_value? htv] using ha
          exact ⟨value w, by simp [step, stepItems_of_values? hvs, hvs, ht, htv, hW]⟩
  | map es ih =>
    intro _ w hw
    obtain ⟨ps, hps, -⟩ := Option.map_eq_some_iff.1 hw
    cases hp : pairs? es with
    | some qs =>
      exact ⟨value (.map (Entries.build qs)), by simp [step, stepEntries_of_pairs? hp, hp]⟩
    | none =>
      obtain ⟨es', hes'⟩ := stepEntries_isSome ih hps hp
      exact ⟨map es', by simp [step, hes']⟩
  | mapRest es r ihs ih =>
    intro _ w hw
    obtain ⟨ps, hps, hw⟩ := Option.bind_eq_some_iff.1 hw
    obtain ⟨a, ha, hW⟩ := Option.bind_eq_some_iff.1 hw
    cases hp : pairs? es with
    | none =>
      obtain ⟨es', hes'⟩ := stepEntries_isSome ihs hps hp
      exact ⟨mapRest es' r, by simp [step, hes']⟩
    | some qs =>
      -- the entries are values: the remainder steps, or else it is a value and the map folds
      obtain rfl : ps = qs := by simpa [hps] using (pairs?_eq_some hp).2.2.1
      cases hr : r.step with
      | some u => exact ⟨mapRest es u, by simp [step, stepEntries_of_pairs? hp, hp, hr]⟩
      | none =>
        cases hrv : r.value? with
        | none => simpa [hr] using ih hrv ha
        | some a' =>
          obtain rfl : a' = a := by simpa [eval_of_value? hrv] using ha
          exact ⟨value w, by simp [step, stepEntries_of_pairs? hp, hp, hr, hrv, hW]⟩

theorem value?_of_step_eq_none {t : Term} {w : Token} (hs : t.step = none) (hw : t.eval = some w) :
    t.value? = some w := by
  cases hv : t.value? with
  | none =>
    obtain ⟨t', ht'⟩ := step_isSome t hv hw
    rw [hs] at ht'
    cases ht'
  | some v => rw [← hw, eval_of_value? hv]

end Term

end Nested

end Reckon

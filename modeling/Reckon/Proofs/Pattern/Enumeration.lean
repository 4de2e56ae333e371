import Mathlib.Logic.Function.Iterate
import Reckon.Pattern.Match

/-!
# The enumeration of matches is the backtracking search

`Pattern.Matches` enumerates the ways a template matches with a stack of suspended attempts.
This module proves that it answers exactly the matches of the plain backtracking matcher
`Pattern.matchAll`, which takes the obligations from left to right in the list monad and
threads the bindings through them: the `k`-th request answers the `k`-th match of the
reference, so the matches come in its order and with its multiplicity, and once they are used
up every further request answers none.

A stack of attempts is read as the matches it still holds: those of the attempt on top, then
those of the attempts below it (`Pattern.pendingMatches`). Resuming an attempt keeps the
matches it answers followed by those of the stack it leaves (`resume_spec`), so a request
answers the first match the stack holds and leaves the others (`next_spec`).
-/

namespace Reckon

namespace Pattern

mutual
/-- The ways the pattern `pat` matches the value `val` on top of the bindings `binds`. -/
def matchOne (pat val : Token) (binds : Bindings) : List Bindings :=
  match pat with
  | .var name cat =>
    if !Token.accepts cat val then []
    else
      match binds.lookup name with
      | some prev => if prev.equal val then [binds] else []
      | none => [binds ++ [(name, val)]]
  | .listCap h t =>
    match val with
    | .list (x :: xs) => (matchOne h x binds).flatMap fun b => matchOne t (.list xs) b
    | _ => []
  | .mapCap k v r =>
    match val with
    | .map es =>
      es.zipIdx.flatMap fun p =>
        ((matchOne k p.1.1 binds).flatMap fun b => matchOne v p.1.2 b).flatMap fun b =>
          matchOne r (.map (Entries.eraseAt es p.2)) b
    | _ => []
  | .list ps =>
    if !(Token.list ps).hasPlaceholder then
      if (Token.list ps).equal val then [binds] else []
    else
      match val with
      | .list xs => if xs.length == ps.length then matchAll (ps.zip xs) binds else []
      | _ => []
  | _ => if pat.equal val then [binds] else []
termination_by 2 * sizeOf pat
decreasing_by
  · simp only [Token.listCap.sizeOf_spec]
    omega
  · simp only [Token.listCap.sizeOf_spec]
    omega
  · simp only [Token.mapCap.sizeOf_spec]
    omega
  · simp only [Token.mapCap.sizeOf_spec]
    omega
  · simp only [Token.mapCap.sizeOf_spec]
    omega
  · have := weight_zip_lt ps xs
    omega

/-- The ways the pairs of patterns and values match from left to right, each on top of the
bindings the ones before it made. -/
def matchAll (pairs : List (Token × Token)) (binds : Bindings) : List Bindings :=
  match pairs with
  | [] => [binds]
  | (pat, val) :: rest => (matchOne pat val binds).flatMap fun b => matchAll rest b
termination_by 2 * weight pairs + 1
decreasing_by
  · have := weight_lt_cons (pat, val) rest
    omega
  · simp only [weight_cons]
    omega
end

@[simp] theorem matchAll_nil (binds : Bindings) : matchAll [] binds = [binds] := by
  rw [matchAll]

@[simp] theorem matchAll_cons (pat val : Token) (rest : List (Token × Token)) :
    matchAll ((pat, val) :: rest) = fun binds => (matchOne pat val binds).flatMap (matchAll rest) := by
  funext binds
  rw [matchAll]

section Equations

attribute [local simp] matchOne

theorem matchOne_var (name : String) (cat : Kind) (val : Token) (binds : Bindings) :
    matchOne (.var name cat) val binds =
      if !Token.accepts cat val then []
      else
        match binds.lookup name with
        | some prev => if prev.equal val then [binds] else []
        | none => [binds ++ [(name, val)]] := by
  rw [matchOne]

theorem matchOne_listCap (h t x : Token) (xs : List Token) (binds : Bindings) :
    matchOne (.listCap h t) (.list (x :: xs)) binds =
      (matchOne h x binds).flatMap fun b => matchOne t (.list xs) b := by
  rw [matchOne]

theorem matchOne_listCap_of {h t val : Token} (hval : ∀ x xs, val = .list (x :: xs) → False)
    (binds : Bindings) : matchOne (.listCap h t) val binds = [] := by
  cases val with
  | list xs =>
    cases xs with
    | nil => simp
    | cons x xs => exact absurd rfl (hval x xs)
  | _ => simp

theorem matchOne_mapCap (k v r : Token) (es : List (Token × Token)) (binds : Bindings) :
    matchOne (.mapCap k v r) (.map es) binds =
      es.zipIdx.flatMap fun p =>
        ((matchOne k p.1.1 binds).flatMap fun b => matchOne v p.1.2 b).flatMap fun b =>
          matchOne r (.map (Entries.eraseAt es p.2)) b := by
  rw [matchOne]

theorem matchOne_mapCap_of {k v r val : Token} (hval : ∀ e tail, val = .map (e :: tail) → False)
    (binds : Bindings) : matchOne (.mapCap k v r) val binds = [] := by
  cases val with
  | map es =>
    cases es with
    | nil => simp
    | cons e tail => exact absurd rfl (hval e tail)
  | _ => simp

theorem matchOne_list (ps : List Token) (val : Token) (binds : Bindings) :
    matchOne (.list ps) val binds =
      if !(Token.list ps).hasPlaceholder then
        if (Token.list ps).equal val then [binds] else []
      else
        match val with
        | .list xs => if xs.length == ps.length then matchAll (ps.zip xs) binds else []
        | _ => [] := by
  rw [matchOne.eq_def]

theorem matchOne_of_literal {pat : Token} (hvar : ∀ name cat, pat = .var name cat → False)
    (hlc : ∀ h t, pat = .listCap h t → False) (hmc : ∀ k v r, pat = .mapCap k v r → False)
    (hlist : ∀ ps, pat = .list ps → False) (val : Token) (binds : Bindings) :
    matchOne pat val binds = if pat.equal val then [binds] else [] := by
  cases pat with
  | var name cat => exact absurd rfl (hvar name cat)
  | listCap h t => exact absurd rfl (hlc h t)
  | mapCap k v r => exact absurd rfl (hmc k v r)
  | list ps => exact absurd rfl (hlist ps)
  | num _ | text _ | bool _ | sym _ | map _ => simp

end Equations

theorem matchAll_append (pre rest : List (Token × Token)) (binds : Bindings) :
    matchAll (pre ++ rest) binds = (matchAll pre binds).flatMap (matchAll rest) := by
  induction pre generalizing binds with
  | nil => simp
  | cons p pre ih =>
    obtain ⟨pat, val⟩ := p
    simp only [List.cons_append, matchAll_cons, List.flatMap_assoc]
    congr 1
    funext b
    exact ih b

end Pattern

namespace Template

/-- All the ways, in the order of the backtracking search, in which the template `tmpl`
matches the workspace `ws` at `pos`; none when the template is empty or does not fit at `pos`. -/
def allMatches (tmpl ws : List Token) (pos : Int) : List Bindings :=
  if tmpl.isEmpty || pos < 0 || ws.length < pos.toNat + tmpl.length then []
  else Pattern.matchAll (tmpl.zip (ws.drop pos.toNat)) []

end Template

namespace Pattern

/-- The matches a stack of attempts still holds, the attempt on top first. -/
def pendingMatches (stack : List Choice) : List Bindings :=
  stack.flatMap fun c => matchAll c.pending c.binds

@[simp] theorem pendingMatches_nil : pendingMatches [] = [] := rfl

@[simp] theorem pendingMatches_cons (c : Choice) (stack : List Choice) :
    pendingMatches (c :: stack) = matchAll c.pending c.binds ++ pendingMatches stack := by
  simp [pendingMatches]

@[simp] theorem pendingMatches_append (s t : List Choice) :
    pendingMatches (s ++ t) = pendingMatches s ++ pendingMatches t := by
  simp [pendingMatches]

theorem matchAll_entryPairs (k v r : Token) (es : List (Token × Token))
    (p : (Token × Token) × Nat) (rest : List (Token × Token)) (binds : Bindings) :
    matchAll (entryPairs k v r es p.2 p.1 ++ rest) binds =
      (((matchOne k p.1.1 binds).flatMap fun b => matchOne v p.1.2 b).flatMap fun b =>
        matchOne r (.map (Entries.eraseAt es p.2)) b).flatMap (matchAll rest) := by
  simp only [entryPairs, List.cons_append, List.nil_append, matchAll_cons, List.flatMap_assoc]

theorem pendingMatches_map (ps : List ((Token × Token) × Nat))
    (f : (Token × Token) × Nat → List (Token × Token)) (binds : Bindings) :
    pendingMatches (ps.map fun p => ⟨f p, binds⟩) = ps.flatMap fun p => matchAll (f p) binds := by
  simp [pendingMatches, List.flatMap_map]

/-- Resuming an attempt answers the first of its matches, if it has one, and leaves a stack
that holds its other matches followed by those of the stack below. -/
theorem resume_spec (pending : List (Token × Token)) (binds : Bindings) (stack : List Choice) :
    (resume pending binds stack).1.toList ++ pendingMatches (resume pending binds stack).2 =
      matchAll pending binds ++ pendingMatches stack := by
  fun_induction resume pending binds stack with
  | case1 binds stack => simp
  | case2 binds stack val rest name cat hacc =>
    simp [matchOne_var, hacc]
  | case3 binds stack val rest name cat hacc prev hprev heq ih =>
    simp only [Bool.not_eq_true', Bool.not_eq_false] at hacc
    simp [ih, matchOne_var, hacc, hprev, heq]
  | case4 binds stack val rest name cat hacc prev hprev hne =>
    simp only [Bool.not_eq_true', Bool.not_eq_false] at hacc
    simp [matchOne_var, hacc, hprev, hne]
  | case5 binds stack val rest name cat hacc hnone ih =>
    simp only [Bool.not_eq_true', Bool.not_eq_false] at hacc
    simp [ih, matchOne_var, hacc, hnone]
  | case6 binds stack rest h t x xs ih =>
    simp [ih, matchOne_listCap, List.flatMap_assoc]
  | case7 binds stack val rest h t hval =>
    simp [matchOne_listCap_of hval]
  | case8 binds stack rest k v r e tail ih =>
    rw [ih, pendingMatches_append, pendingMatches_map]
    simp only [matchAll_cons, matchOne_mapCap, List.flatMap_assoc]
    simp only [← List.flatMap_assoc, ← matchAll_entryPairs]
    simp [List.zipIdx_cons]
  | case9 binds stack val rest k v r hval =>
    simp [matchOne_mapCap_of hval]
  | case10 binds stack val rest ps hlit heq ih =>
    simp [ih, matchOne_list, hlit, heq]
  | case11 binds stack val rest ps hlit hne =>
    simp [matchOne_list, hlit, hne]
  | case12 binds stack rest ps hlit xs hlen ih =>
    simp only [Bool.not_eq_true', Bool.not_eq_false] at hlit
    simp [ih, matchOne_list, hlit, hlen, matchAll_append]
  | case13 binds stack rest ps hlit xs hlen =>
    simp only [Bool.not_eq_true', Bool.not_eq_false] at hlit
    simp [matchOne_list, hlit, hlen]
  | case14 binds stack val rest ps hlit hval =>
    simp only [Bool.not_eq_true', Bool.not_eq_false] at hlit
    have : matchOne (.list ps) val binds = [] := by
      rw [matchOne_list]
      simp only [hlit, Bool.not_true, Bool.false_eq_true, if_false]
    simp [this]
  | case15 binds stack pat val rest heq hvar hlc hmc hlist ih =>
    simp [ih, matchOne_of_literal hvar hlc hmc hlist, heq]
  | case16 binds stack pat val rest hne hvar hlc hmc hlist =>
    simp [matchOne_of_literal hvar hlc hmc hlist, hne]

namespace Matches

/-- A request answers the first match the stack holds and leaves the others. -/
theorem next_spec (m : Matches) :
    m.next.1 = (pendingMatches m.choices).head? ∧
      pendingMatches m.next.2.choices = (pendingMatches m.choices).tail := by
  fun_induction next m with
  | case1 m h => simp [h]
  | case2 m c cs h b stack hr =>
    -- the attempt on top answers `b` first, and what follows `b` is left on the stack
    have hspec := resume_spec c.pending c.binds cs
    rw [hr] at hspec
    simp only [Option.toList_some, List.singleton_append] at hspec
    simp [h, ← hspec]
  | case3 m c cs h stack hr ih =>
    -- a failed attempt leaves a stack that holds the same matches
    have hspec := resume_spec c.pending c.binds cs
    rw [hr] at hspec
    simp only [Option.toList_none, List.nil_append] at hspec
    rw [h, pendingMatches_cons, ← hspec]
    exact ih

theorem pendingMatches_iterate (k : Nat) (m : Matches) :
    pendingMatches ((fun m : Matches => m.next.2)^[k] m).choices =
      (pendingMatches m.choices).drop k := by
  induction k generalizing m with
  | zero => rfl
  | succ k ih =>
    rw [Function.iterate_succ_apply, ih, (next_spec m).2, List.drop_tail]

theorem take_eq (n : Nat) (m : Matches) : m.take n = (pendingMatches m.choices).take n := by
  induction n generalizing m with
  | zero => simp [take]
  | succ n ih =>
    obtain ⟨hhead, htail⟩ := next_spec m
    rw [take]
    generalize pendingMatches m.choices = held at hhead htail
    split
    next b m' hnext =>
      rw [hnext] at hhead htail
      rw [ih, htail]
      cases held with
      | nil => simp at hhead
      | cons b' rest => simp_all
    next o m' hnext =>
      rw [hnext] at hhead
      cases held with
      | nil => simp
      | cons b' rest => simp_all

theorem pendingMatches_start (tmpl ws : List Token) (pos : Int) :
    pendingMatches (start tmpl ws pos).choices = Template.allMatches tmpl ws pos := by
  unfold start Template.allMatches
  split <;> simp

end Matches

/-- The `k`-th request, counting from zero, answers the `k`-th match of the backtracking search,
and once those are used up every request answers none. -/
theorem next_iterate_eq (tmpl ws : List Token) (pos : Int) (k : Nat) :
    ((fun m : Matches => m.next.2)^[k] (Matches.start tmpl ws pos)).next.1 =
      (Template.allMatches tmpl ws pos)[k]? := by
  rw [(Matches.next_spec _).1, Matches.pendingMatches_iterate, Matches.pendingMatches_start,
    List.head?_drop]

end Pattern

namespace Template

theorem firstMatch_eq_head (tmpl ws : List Token) (pos : Int) :
    firstMatch tmpl ws pos = (allMatches tmpl ws pos).head? := by
  rw [firstMatch, (Pattern.Matches.next_spec _).1, Pattern.Matches.pendingMatches_start]

theorem solutions_eq_take (limit : Nat) (tmpl ws : List Token) (pos : Int) :
    solutions limit tmpl ws pos = (allMatches tmpl ws pos).take limit := by
  rw [solutions, Pattern.Matches.take_eq, Pattern.Matches.pendingMatches_start]

end Template

end Reckon

import Mathlib.Data.List.Nodup
import Reckon.Proofs.Context.Closing
import Reckon.Proofs.Brackets.Reduction
import Reckon.Proofs.Arith.Evaluate

/-!
# Continuing an answer

A session that has answered `P` reads input starting with an infix operator `op` as continuing
`P`: it reduces `P op ...` when `P` is a single token and `( P ) op ...` otherwise. This module
shows that in a fresh session of the built-in rules this is the same as reducing the earlier
input `a` between parentheses in front of the new input (`Session.evaluate_continued`).

The reduction of `( a ) r` starts by repeating the reduction of `a` pass for pass one place
further in (`Library.reduceWith_parenthesized`), as `Reckon.Proofs.Context.Shift` and
`Reckon.Proofs.Context.Closing` show of single passes. This needs `a` bracketed all along its
reduction: a bracket brought up out of a map would let the conditional find an `else` after
the closing parenthesis, and the two calls then answer differently
(`Session.evaluate_continued_hidden_else`, which runs both calls pass by pass). After `a` has
reached `P`, the fresh reduction holds `( P ) r`, which is what the continued call starts from,
or `P r` after one more step when `P` is a single value; it is some steps into its budget, and a
reduction that ends in a normal form ends the same when started from the beginning
(`Library.reduceWith_from_start`).
-/

namespace Reckon

namespace Library

theorem findSome?_congr {α β : Type} {l : List α} {f g : α → Option β}
    (h : ∀ a ∈ l, f a = g a) : l.findSome? f = l.findSome? g := by
  induction l with
  | nil => rfl
  | cons a l ih =>
    simp only [List.findSome?_cons, h a List.mem_cons_self,
      ih fun b hb => h b (List.mem_cons_of_mem a hb)]

end Library

namespace Builtin

theorem exists_sym_mem_template {b : Builtin} (hb : b.Plain) :
    ∃ s, Token.sym s ∈ b.template := by
  cases b with
  | «alias» words target =>
    obtain ⟨w, ws, rfl⟩ := List.exists_cons_of_ne_nil hb.1
    exact ⟨w, by simp [template]⟩
  | binary op => exact ⟨op.symbol, by simp [template]⟩
  | parens | listFold | mapFold | negate | logicalNot | conditional | lookup =>
    exact ⟨_, List.mem_cons_self⟩

theorem fits_open {b : Builtin} (hb : b.Plain) (hne : b ≠ .parens) (ws : List Token) :
    Library.fits b.template (.sym "(" :: ws) 0 = false := by
  cases b with
  | parens => exact absurd rfl hne
  | «alias» words target =>
    obtain ⟨w, ws', rfl⟩ := List.exists_cons_of_ne_nil hb.1
    have hw : (Token.sym w).isBracket = false := hb.2 w (by simp)
    have hopen : (Token.sym "(").isSym w = false := by
      cases h : (Token.sym "(").isSym w
      · rfl
      · rw [← Token.isSym_eq_true.1 h] at hw
        simp [Token.isBracket, Tokens.opens, Token.isSym] at hw
    simp [template, hopen]
  | binary op =>
    have hacc : Token.accepts op.operandKind (.sym "(") = false := by
      cases h : Token.accepts op.operandKind (.sym "(")
      · rfl
      · have := Token.isBracket_of_accepts (Arith.operandKind_ne_symbol op) h
        simp [Token.isBracket, Tokens.opens, Token.isSym] at this
    simp [template, Library.fitsToken_var _ (Arith.operandKind_ne_symbol op), hacc]
  | listFold | mapFold | negate | logicalNot | conditional | lookup =>
    simp [template, Token.isSym]

end Builtin

namespace Arith

theorem parensAt_open {ws : List Token} (hwb : Tokens.WellBracketed ws)
    (hv : ∀ v, ws = [v] → v.isValue = false) (r : List Token) :
    parensAt (.sym "(" :: (ws ++ .sym ")" :: r)) = none := by
  rcases ws with _ | ⟨t, _ | ⟨u, rest⟩⟩
  · cases r <;> simp [parensAt, Token.isValue, Token.kind]
  · simp [parensAt, hv t rfl]
  · -- a value followed by a closer closes a bracket nobody opened
    have hclose : ¬ (t.isValue = true ∧ u.isSym ")" = true) := by
      rintro ⟨ht, hu⟩
      rw [Token.isSym_eq_true.1 hu] at hwb
      unfold Tokens.WellBracketed at hwb
      rw [Tokens.awaiting_cons_of_not_bracket (Token.isBracket_of_isValue ht),
        Tokens.awaiting_cons] at hwb
      simp [Tokens.awaitStep, Tokens.closerOf?, Token.symName?, Compiler.closerOf, Tokens.closes,
        Token.isSym] at hwb
    simp only [parensAt, List.cons_append]
    rw [if_neg (by simpa [Token.isSym] using hclose)]

end Arith

namespace Library

open Builtin in
theorem attempt_open {b : Builtin} (hb : b.Plain) {ws : List Token} (hwb : Tokens.WellBracketed ws)
    (hv : ∀ v, ws = [v] → v.isValue = false) (r : List Token) :
    attempt b.rule (.sym "(" :: (ws ++ .sym ")" :: r)) 0 = none := by
  by_cases hp : b = .parens
  · subst hp
    have h := Arith.attempt_parens [] (.sym "(" :: (ws ++ .sym ")" :: r))
    rw [List.nil_append, List.length_nil, Arith.parensAt_open hwb hv r] at h
    exact h
  · have hne : b.rule.template.isEmpty = false := by
      simpa [Builtin.rule] using template_ne_nil hb
    have hfit : fits b.rule.template (.sym "(" :: (ws ++ .sym ")" :: r)) 0 = false :=
      fits_open hb hp _
    unfold attempt
    rw [hne, hfit]
    rfl

theorem firing?_value {v : Token} (hv : v.isValue = true) : builtins.firing? [v] = none := by
  refine firing?_eq_none fun pos hpos r hr => ?_
  obtain ⟨b, rfl, hb⟩ := Builtin.plain_of_mem_rules hr
  obtain rfl : pos = 0 := by simpa using hpos
  have hne : b.rule.template.isEmpty = false := by
    simpa [Builtin.rule] using Builtin.template_ne_nil hb
  rw [hne, Bool.false_or]
  cases hfit : fits b.rule.template [v] 0
  · rfl
  · obtain ⟨s, hs⟩ := Builtin.exists_sym_mem_template hb
    have hmem := sym_mem_of_fits hfit hs
    rw [List.mem_singleton] at hmem
    simp [← hmem, Token.isValue, Token.kind] at hv

theorem firing?_builtins {ws : List Token} {f : Firing} (h : builtins.firing? ws = some f) :
    ∃ r pos ws', f = .rewritten r pos ws' := by
  rw [firing?_eq] at h
  obtain ⟨pos, -, h⟩ := List.exists_of_findSome?_eq_some h
  obtain ⟨r, hr, h⟩ := List.exists_of_findSome?_eq_some h
  obtain ⟨b, rfl, -⟩ := Builtin.plain_of_mem_rules hr
  unfold attempt at h
  split at h
  · split at h
    · rw [Arith.rule_fire] at h
      obtain ⟨ws', -, rfl⟩ := Option.map_eq_some_iff.1 h
      exact ⟨_, _, _, rfl⟩
    · simp at h
  · simp at h

/-- Where the built-in rules fire in a well-bracketed workspace,
they fire one place further in when the workspace stands between parentheses with more tokens
after them. -/
theorem firing?_parenthesized {ws : List Token} (hwb : Tokens.WellBracketed ws) {f : Firing}
    (h : builtins.firing? ws = some f) (r : List Token) :
    builtins.firing? (.sym "(" :: (ws ++ .sym ")" :: r)) =
      some ((f.extend (.sym ")" :: r)).shift (.sym "(")) := by
  -- a single value fires nothing, so the opening parenthesis does not fire either
  have hv : ∀ v, ws = [v] → v.isValue = false := by
    rintro v rfl
    cases hval : v.isValue
    · rfl
    · rw [firing?_value hval] at h
      cases h
  have hzero :
      builtins.rules.findSome? (attempt · (.sym "(" :: (ws ++ .sym ")" :: r)) 0) = none := by
    rw [List.findSome?_eq_none_iff]
    intro rule hr
    obtain ⟨b, rfl, hb⟩ := Builtin.plain_of_mem_rules hr
    exact attempt_open hb hwb hv r
  have hinside : ∀ q ∈ List.range ws.length,
      builtins.rules.findSome? (attempt · (.sym "(" :: (ws ++ .sym ")" :: r)) (q + 1)) =
        (builtins.rules.findSome? (attempt · ws q)).map
          fun f => (f.extend (.sym ")" :: r)).shift (.sym "(") := by
    intro q hq
    rw [List.map_findSome?]
    refine findSome?_congr fun rule hr => ?_
    obtain ⟨b, rfl, hb⟩ := Builtin.plain_of_mem_rules hr
    show attempt b.rule _ (q + 1) = Option.map _ (attempt b.rule ws q)
    rw [attempt_cons hb (.sym "(") _ q (.inr List.mem_cons_self),
      attempt_append hb hwb (List.mem_range.1 hq), Option.map_map]
    rfl
  have hfirst : (List.range ws.length).findSome?
      (fun q => builtins.rules.findSome? (attempt · (.sym "(" :: (ws ++ .sym ")" :: r)) (q + 1))) =
        some ((f.extend (.sym ")" :: r)).shift (.sym "(")) := by
    rw [firing?_eq] at h
    rw [findSome?_congr hinside]
    have hmap := congrArg (Option.map fun f => (f.extend (.sym ")" :: r)).shift (.sym "(")) h
    rw [List.map_findSome?] at hmap
    exact hmap
  have hlen : (.sym "(" :: (ws ++ .sym ")" :: r)).length = ws.length + (1 + r.length) + 1 := by
    simp
    omega
  rw [firing?_eq, hlen, List.range_succ_eq_map, List.findSome?_cons, hzero, List.range_add,
    List.map_append, List.findSome?_append, List.findSome?_map]
  simp only [Function.comp_def, Nat.succ_eq_add_one, hfirst, Option.some_or]

theorem steps_le_of_normal {lib : Library} {limit fuel depth : Nat} {ws : List Token}
    {p : Progress} (h : (lib.reduceWith limit fuel depth ws p).1.normal = true) :
    p.steps ≤ limit := by
  cases fuel with
  | zero => simp [reduceWith] at h
  | succ fuel =>
    by_contra hover
    rw [reduceWith, if_pos (by omega)] at h
    simp at h

/-- A reduction started `j` steps later under a budget `j` larger
ends the same, `j` steps later: the budget is only ever compared with the step count. -/
theorem reduceWith_later (lib : Library) (limit j : Nat) (fuel depth : Nat) (ws : List Token)
    (p : Progress) : ∀ t : Array TraceEntry,
      (lib.reduceWith (limit + j) fuel depth ws ⟨p.steps + j, t⟩).1 =
          (lib.reduceWith limit fuel depth ws p).1 ∧
        (lib.reduceWith (limit + j) fuel depth ws ⟨p.steps + j, t⟩).2.steps =
          (lib.reduceWith limit fuel depth ws p).2.steps + j := by
  fun_induction lib.reduceWith limit fuel depth ws p with
  | case1 depth ws p =>
    intro t
    simp [reduceWith]
  | case2 fuel depth ws p hover =>
    intro t
    rw [reduceWith, if_pos (by dsimp only; omega)]
    simp
  | case3 fuel depth ws p hunder hnone =>
    intro t
    rw [reduceWith, if_neg (by dsimp only; omega), hnone]
    simp
  | case4 fuel depth ws p hunder r pos ws' hfire n ih =>
    intro t
    rw [reduceWith, if_neg (by dsimp only; omega), hfire]
    simp only
    rw [show p.steps + j + 1 = n + j by omega]
    exact ih _
  | case5 fuel depth ws p hunder r pos body hfire n inner q hinner hnormal ws' ihInner ih =>
    intro t
    rw [reduceWith, if_neg (by dsimp only; omega), hfire]
    simp only
    rcases hlater : lib.reduceWith (limit + j) fuel (depth + 1) body ⟨p.steps + j + 1, t⟩ with
      ⟨inner', q'⟩
    -- the nested reduction ends the same, `j` steps later
    obtain ⟨h1, h2⟩ := ihInner t
    rw [show (⟨n, p.trace⟩ : Progress).steps + j = p.steps + j + 1 by simp [n]; omega, hlater,
      hinner] at h1 h2
    simp only at h1 h2
    subst h1
    simp only [hnormal, if_true]
    rw [h2]
    exact ih _
  | case6 fuel depth ws p hunder r pos body hfire n inner q hinner hnormal ihInner =>
    intro t
    rw [reduceWith, if_neg (by dsimp only; omega), hfire]
    simp only
    rcases hlater : lib.reduceWith (limit + j) fuel (depth + 1) body ⟨p.steps + j + 1, t⟩ with
      ⟨inner', q'⟩
    obtain ⟨h1, h2⟩ := ihInner t
    rw [show (⟨n, p.trace⟩ : Progress).steps + j = p.steps + j + 1 by simp [n]; omega, hlater,
      hinner] at h1 h2
    simp only at h1 h2
    subst h1
    simp [hnormal, h2]

theorem reduceWith_from_start {lib : Library} {limit f depth k : Nat} {ws : List Token}
    {t : Array TraceEntry} (h : (lib.reduceWith limit f depth ws ⟨k, t⟩).1.normal = true)
    {fuel : Nat} (hf : f ≤ fuel) :
    (lib.reduceWith limit fuel depth ws {}).1 = (lib.reduceWith limit f depth ws ⟨k, t⟩).1 := by
  have hk : k ≤ limit := steps_le_of_normal h
  obtain ⟨hlater, -⟩ := reduceWith_later lib (limit - k) k f depth ws {} t
  rw [show ({} : Progress).steps + k = k from Nat.zero_add k, Nat.sub_add_cancel hk] at hlater
  have hnormal : (lib.reduceWith (limit - k) f depth ws {}).1.normal = true := hlater ▸ h
  rw [reduceWith_of_normal lib hnormal (Nat.sub_le limit k) fuel hf, hlater]

theorem firing?_parens_value {v : Token} (hv : v.isValue = true) (r : List Token) :
    builtins.firing? (.sym "(" :: v :: .sym ")" :: r) =
      some (.rewritten Builtin.parens.rule 0 (v :: r)) := by
  have hparens : attempt Builtin.parens.rule (.sym "(" :: v :: .sym ")" :: r) 0 =
      some (.rewritten Builtin.parens.rule 0 (v :: r)) := by
    have h := Arith.attempt_parens [] (.sym "(" :: v :: .sym ")" :: r)
    rw [List.nil_append, List.length_nil] at h
    rw [h]
    simp [Arith.parensAt, hv, Token.isSym]
  have hrules : builtins.rules = Builtin.parens.rule :: Builtin.rules.tail := rfl
  rw [firing?_eq, List.length_cons, List.range_succ_eq_map, List.findSome?_cons, hrules,
    List.findSome?_cons, hparens]

/-- A reduction by the built-in rules of a bracketed workspace that
ends in a normal form `P` is repeated pass for pass inside parentheses with more tokens after
them, with the same steps, budget and fuel, and leaves `P` between the parentheses. -/
theorem reduceWith_parenthesized {limit fuel depth : Nat} {ws : List Token} {p : Progress}
    (hws : Tokens.Bracketed ws) {P : List Token} {q : Progress}
    (h : builtins.reduceWith limit fuel depth ws p = (⟨P, true⟩, q)) (r : List Token) :
    ∀ p' : Progress, p'.steps = p.steps → ∃ fuel' t, fuel' ≤ fuel ∧
      builtins.reduceWith limit fuel depth (.sym "(" :: (ws ++ .sym ")" :: r)) p' =
        builtins.reduceWith limit fuel' depth (.sym "(" :: (P ++ .sym ")" :: r))
          ⟨q.steps, t⟩ := by
  fun_induction builtins.reduceWith limit fuel depth ws p with
  | case1 => simp at h
  | case2 => simp at h
  | case3 fuel depth ws p hunder hnone =>
    intro p' hp
    simp only [Prod.mk.injEq, Reduced.mk.injEq, and_true] at h
    obtain ⟨rfl, rfl⟩ := h
    refine ⟨fuel + 1, p'.trace, Nat.le_refl _, ?_⟩
    rw [← hp]
  | case4 fuel depth ws p hunder rule pos ws' hfire n ih =>
    intro p' hp
    have hws' : Tokens.Bracketed ws' := firing?_keeps builtins_admissible hws hfire
    obtain ⟨fuel', t, hle, heq⟩ := ih hws' h ⟨p'.steps + 1, p'.trace.push
      ⟨p'.steps + 1, depth, rule.name, pos + 1, .sym "(" :: (ws' ++ .sym ")" :: r)⟩⟩
      (by simp [n, hp])
    refine ⟨fuel', t, by omega, ?_⟩
    rw [reduceWith, if_neg (by omega), firing?_parenthesized hws.1 hfire r]
    exact heq
  | case5 fuel depth ws p hunder rule pos body hfire =>
    obtain ⟨_, _, _, hf⟩ := firing?_builtins hfire
    cases hf
  | case6 fuel depth ws p hunder rule pos body hfire =>
    obtain ⟨_, _, _, hf⟩ := firing?_builtins hfire
    cases hf

theorem attempt_conditional_eq_none {ws : List Token} {pos : Nat}
    (h : Builtin.findElse ws (pos + 3) 0 0 = none) :
    attempt Builtin.conditional.rule ws pos = none := by
  have happly : Builtin.conditional.apply ws pos = none := by
    simp [Builtin.apply, h]
  unfold attempt
  rw [Arith.rule_fire, happly]
  simp

theorem findSome?_attempt_eq_none {lib : Library} {ws : List Token} {q : Nat}
    (h : ∀ r ∈ lib.rules, (r.template.isEmpty || fits r.template ws q) = false) :
    lib.rules.findSome? (attempt · ws q) = none := by
  rw [List.findSome?_eq_none_iff]
  intro r hr
  simp [attempt, h r hr]

theorem firing?_eq_of_first {lib : Library} {ws : List Token} (pos : Nat)
    (hpos : pos < ws.length)
    (S : List Nat) (hS : ∀ q ∈ S, lib.rules.findSome? (attempt · ws q) = none)
    (h : ∀ q < pos, q ∉ S → ∀ r ∈ lib.rules,
      (r.template.isEmpty || fits r.template ws q) = false)
    {f : Firing} (hat : lib.rules.findSome? (attempt · ws pos) = some f) :
    lib.firing? ws = some f := by
  have hnone :
      (List.range pos).findSome? (fun q => lib.rules.findSome? (attempt · ws q)) = none := by
    rw [List.findSome?_eq_none_iff]
    intro q hq
    by_cases hqS : q ∈ S
    · exact hS q hqS
    · exact findSome?_attempt_eq_none (h q (List.mem_range.1 hq) hqS)
  obtain ⟨n, hn⟩ : ∃ n, ws.length = pos + (n + 1) := ⟨ws.length - pos - 1, by omega⟩
  rw [firing?_eq, hn, List.range_add, List.findSome?_append, hnone, List.range_succ_eq_map,
    List.map_cons, List.findSome?_cons]
  simp [hat]

theorem firing?_eq_none_of {lib : Library} {ws : List Token}
    (S : List Nat) (hS : ∀ q ∈ S, lib.rules.findSome? (attempt · ws q) = none)
    (h : ∀ q < ws.length, q ∉ S → ∀ r ∈ lib.rules,
      (r.template.isEmpty || fits r.template ws q) = false) :
    lib.firing? ws = none := by
  rw [firing?_eq, List.findSome?_eq_none_iff]
  intro q hq
  by_cases hqS : q ∈ S
  · exact hS q hqS
  · exact findSome?_attempt_eq_none (h q (List.mem_range.1 hq) hqS)

theorem reduceWith_rewritten {lib : Library} {limit fuel depth : Nat} {ws : List Token}
    {p : Progress} (hfuel : 0 < fuel) (hlim : p.steps ≤ limit) {r : Rule} {pos : Nat}
    {ws' : List Token} (h : lib.firing? ws = some (.rewritten r pos ws')) :
    lib.reduceWith limit fuel depth ws p = lib.reduceWith limit (fuel - 1) depth ws'
      ⟨p.steps + 1, p.trace.push ⟨p.steps + 1, depth, r.name, pos, ws'⟩⟩ := by
  obtain ⟨f, rfl⟩ : ∃ f, fuel = f + 1 := ⟨fuel - 1, by omega⟩
  rw [reduceWith, if_neg (by omega), h]
  rfl

theorem reduceWith_normal {lib : Library} {limit fuel depth : Nat} {ws : List Token}
    {p : Progress} (hfuel : 0 < fuel) (hlim : p.steps ≤ limit) (h : lib.firing? ws = none) :
    lib.reduceWith limit fuel depth ws p = (⟨ws, true⟩, p) := by
  obtain ⟨f, rfl⟩ : ∃ f, fuel = f + 1 := ⟨fuel - 1, by omega⟩
  rw [reduceWith, if_neg (by omega), h]

theorem findSome?_eq_of_forall_ne {α β : Type} {l : List α} {f : α → Option β} {a : α}
    (ha : a ∈ l) (h : ∀ x ∈ l, x ≠ a → f x = none) : l.findSome? f = f a := by
  induction l with
  | nil => cases ha
  | cons x l ih =>
    rw [List.findSome?_cons]
    by_cases hx : x = a
    · subst hx
      cases hfx : f x with
      | some y => rfl
      | none =>
        rw [List.findSome?_eq_none_iff]
        intro y hy
        by_cases hyx : y = x
        · rw [hyx, hfx]
        · exact h y (List.mem_cons_of_mem _ hy) hyx
    · rw [h x List.mem_cons_self hx]
      exact ih ((List.mem_cons.1 ha).resolve_left (Ne.symm hx))
        fun y hy hya => h y (List.mem_cons_of_mem _ hy) hya

theorem builtins_names_nodup : (builtins.rules.map Rule.name).Nodup := by decide

theorem findSome?_attempt_named {ws : List Token} {q : Nat} {r : Rule} (hr : r ∈ builtins.rules)
    (h : ∀ r' ∈ builtins.rules, r'.name ≠ r.name →
      (r'.template.isEmpty || fits r'.template ws q) = false) :
    builtins.rules.findSome? (attempt · ws q) = attempt r ws q := by
  refine findSome?_eq_of_forall_ne hr fun r' hr' hne => ?_
  have hname : r'.name ≠ r.name := fun heq =>
    hne (List.inj_on_of_nodup_map builtins_names_nodup hr' hr heq)
  simp [attempt, h r' hr' hname]

end Library

namespace Session

@[simp] theorem maxSteps_evaluate (s : Session) (ts : List Token) :
    (s.evaluate ts).2.maxSteps = s.maxSteps := by
  unfold evaluate
  split
  · rfl
  · split
    dsimp only
    split <;> rfl

theorem evaluate_ok_iff (s : Session) {ts : List Token} (hne : ts ≠ []) (w : List Token) :
    (s.evaluate ts).1.result = .ok w ↔
      (s.library.reduce s.maxSteps (s.continuing ts)).1 = ⟨w, true⟩ := by
  unfold evaluate
  split
  · rename_i hempty
    simp [List.isEmpty_iff.1 hempty] at hne
  · split
    rename_i r p heq
    dsimp only
    rcases r with ⟨w', _ | _⟩ <;> simp [heq]

theorem continuing_infix (s : Session) (hprev : s.previous ≠ []) {op : String}
    (hop : s.library.isInfix op = true) (rest : List Token) :
    s.continuing (.sym op :: rest) = s.continued ++ .sym op :: rest := by
  simp [continuing, hprev, hop]

/-- In a fresh session of the built-in
rules, let a bracketed input `a` answer `P`, a single value or at least two tokens. Then input
that starts with an infix operator, given next, answers what `( a )` followed by it answers in
the fresh session, whenever that answer comes within the budget. -/
theorem evaluate_continued {s : Session} (hlib : s.library = Library.builtins)
    (hprev : s.previous = [])
    {a : List Token} (ha : Tokens.Bracketed a) (hne : a ≠ []) {P : List Token}
    (hP : (s.evaluate a).1.result = .ok P)
    (hshape : (∃ v, P = [v] ∧ v.isValue = true) ∨ 2 ≤ P.length) {op : String}
    (hop : Library.builtins.isInfix op = true) (rest : List Token) {out : List Token}
    (hout : (s.evaluate (.sym "(" :: (a ++ .sym ")" :: .sym op :: rest))).1.result = .ok out) :
    ((s.evaluate a).2.evaluate (.sym op :: rest)).1.result = .ok out := by
  have hprev' : (s.evaluate a).2.previous = P := by
    rw [previous_evaluate, hP, if_neg (by simpa using hne)]
    rfl
  have hPne : P ≠ [] := by
    rintro rfl
    simp at hshape
  rw [evaluate_ok_iff s hne, Arith.continuing_of_previous_nil hprev, hlib] at hP
  rw [evaluate_ok_iff s (List.cons_ne_nil _ _), Arith.continuing_of_previous_nil hprev, hlib,
    Library.reduce] at hout
  rw [evaluate_ok_iff _ (List.cons_ne_nil _ _), library_evaluate, maxSteps_evaluate, hlib,
    continuing_infix _ (by rw [hprev']; exact hPne) (by rw [library_evaluate, hlib]; exact hop),
    continued, hprev', Library.reduce]
  -- the fresh call first repeats the first one inside the parentheses
  obtain ⟨fuel, t, hfuel, hwrap⟩ :=
    Library.reduceWith_parenthesized ha (Prod.ext hP rfl) (.sym op :: rest) {} rfl
  rw [hwrap] at hout
  generalize (Library.builtins.reduceWith s.maxSteps (s.maxSteps + 2) 1 a {}).2.steps = k at hout
  have hnormal : (Library.builtins.reduceWith s.maxSteps fuel 1
      (.sym "(" :: (P ++ .sym ")" :: .sym op :: rest)) ⟨k, t⟩).1.normal = true := by
    rw [hout]
  rcases hshape with ⟨v, rfl, hv⟩ | hlen
  · -- a single value loses its parentheses, and the rest is the continued call
    obtain ⟨f, rfl⟩ : ∃ f, fuel = f + 1 := by
      cases fuel with
      | zero => simp [Library.reduceWith] at hnormal
      | succ f => exact ⟨f, rfl⟩
    have hk : k ≤ s.maxSteps := Library.steps_le_of_normal hnormal
    obtain ⟨t', hstep⟩ : ∃ t', Library.builtins.reduceWith s.maxSteps (f + 1) 1
        (.sym "(" :: ([v] ++ .sym ")" :: .sym op :: rest)) ⟨k, t⟩ =
          Library.builtins.reduceWith s.maxSteps f 1 (v :: .sym op :: rest) ⟨k + 1, t'⟩ := by
      exact ⟨_, by rw [List.singleton_append, Library.reduceWith, if_neg (by dsimp only; omega),
        Library.firing?_parens_value hv]⟩
    rw [hstep] at hout hnormal
    simp only [if_pos (show [v].length = 1 from rfl), List.singleton_append]
    rw [Library.reduceWith_from_start hnormal (by omega), hout]
  · -- the rest is the continued call with the parentheses still in place
    have hcont : (if P.length = 1 then P else .sym "(" :: P ++ [.sym ")"]) ++ .sym op :: rest =
        .sym "(" :: (P ++ .sym ")" :: .sym op :: rest) := by
      rw [if_neg (by omega)]
      simp
    rw [hcont, Library.reduceWith_from_start hnormal hfuel, hout]

/-- After `1`, the input `+` answers `1 +`, as `( 1 ) +` does in a fresh session. -/
theorem evaluate_continued_value :
    ((build []).evaluate [.num (.exact 1)]).1.result = .ok [.num (.exact 1)] ∧
      ((build []).evaluate [.sym "(", .num (.exact 1), .sym ")", .sym "+"]).1.result =
        .ok [.num (.exact 1), .sym "+"] ∧
      (((build []).evaluate [.num (.exact 1)]).2.evaluate [.sym "+"]).1.result =
        .ok [.num (.exact 1), .sym "+"] := by
  have hone : (Token.num (.exact 1)).isValue = true := rfl
  have hplus : Library.builtins.firing? [.num (.exact 1), .sym "+"] = none :=
    Library.firing?_eq_none (by decide)
  have hP : ((build []).evaluate [.num (.exact 1)]).1.result = .ok [.num (.exact 1)] := by
    simp [evaluate, Library.reduce, build, draft, continuing, Library.reduceWith,
      Library.builtins_mk, Library.firing?_value hone]
  have hout : ((build []).evaluate [.sym "(", .num (.exact 1), .sym ")", .sym "+"]).1.result =
      .ok [.num (.exact 1), .sym "+"] := by
    simp [evaluate, Library.reduce, build, draft, continuing, Library.reduceWith,
      Library.builtins_mk, Library.firing?_parens_value hone, hplus, defaultMaxSteps]
  exact ⟨hP, hout, @evaluate_continued (build []) rfl rfl [.num (.exact 1)] (by decide) (by simp)
    [.num (.exact 1)] hP (.inl ⟨_, rfl, hone⟩) "+" (by decide) [] _ hout⟩

/-- Without its input bracketed by itself the continuation is not parenthesizing the input. The
well-bracketed `if true then ( get true from {true: (} get true from {true: (} )` answers
`if true then ( ( ( )`, after which `+ else` answers `( if true then ( ( ( ) ) + else`: the
`else` lies inside brackets and nothing fires. In the fresh reduction of the same input between
parentheses followed by `+ else`, the first lookup hides the closing parenthesis from the
conditional, which then reaches the `else` and fires before the second lookup. -/
theorem evaluate_continued_hidden_else :
    let m : Token := .map [(.bool true, .sym "(")]
    let a : List Token := [.sym "if", .bool true, .sym "then", .sym "(", .sym "get", .bool true,
      .sym "from", m, .sym "get", .bool true, .sym "from", m, .sym ")"]
    let P : List Token :=
      [.sym "if", .bool true, .sym "then", .sym "(", .sym "(", .sym "(", .sym ")"]
    Tokens.WellBracketed a ∧ ¬ Tokens.Bracketed a ∧ Library.builtins.isInfix "+" = true ∧
      ((build []).evaluate a).1.result = .ok P ∧
      (((build []).evaluate a).2.evaluate [.sym "+", .sym "else"]).1.result =
        .ok (.sym "(" :: P ++ [.sym ")", .sym "+", .sym "else"]) ∧
      ((build []).evaluate (.sym "(" :: (a ++ [.sym ")", .sym "+", .sym "else"]))).1.result =
        .ok [.sym "(", .sym "(", .sym "(", .sym "(", .sym "(", .sym ")", .sym ")", .sym "+",
          .sym ")"] := by
  dsimp only
  have hcond : Builtin.conditional.rule ∈ Library.builtins.rules := by
    simp [Library.builtins, Builtin.rules]
  have hlookup : Builtin.lookup.rule ∈ Library.builtins.rules := by
    simp [Library.builtins, Builtin.rules]
  have hwb : Tokens.WellBracketed [.sym "if", .bool true, .sym "then", .sym "(", .sym "get",
      .bool true, .sym "from", .map [(.bool true, .sym "(")], .sym "get", .bool true, .sym "from",
      .map [(.bool true, .sym "(")], .sym ")"] := by
    decide
  -- the reduction of the input: two lookups, while the conditional finds no `else`
  have h1 : Library.builtins.firing? [.sym "if", .bool true, .sym "then", .sym "(", .sym "get",
      .bool true, .sym "from", .map [(.bool true, .sym "(")], .sym "get", .bool true, .sym "from",
      .map [(.bool true, .sym "(")], .sym ")"] =
      some (.rewritten Builtin.lookup.rule 4 [.sym "if", .bool true, .sym "then", .sym "(",
        .sym "(", .sym "get", .bool true, .sym "from", .map [(.bool true, .sym "(")],
        .sym ")"]) := by
    refine Library.firing?_eq_of_first 4 (by decide) [0] ?_ (by decide) ?_
    · have hfe : Builtin.findElse [.sym "if", .bool true, .sym "then", .sym "(", .sym "get",
          .bool true, .sym "from", .map [(.bool true, .sym "(")], .sym "get", .bool true,
          .sym "from", .map [(.bool true, .sym "(")], .sym ")"] 3 0 0 = none := by
        simp [Builtin.findElse, Tokens.opens, Tokens.closes, Token.isSym]
      simp only [List.mem_singleton, forall_eq]
      rw [Library.findSome?_attempt_named hcond (by decide),
        Library.attempt_conditional_eq_none hfe]
    · rw [Library.findSome?_attempt_named hlookup (by decide)]
      simp [Library.attempt, Library.fits, Rule.eligible, Rule.fire, Builtin.rule, Builtin.apply,
        Template.firstMatch_eq_head, Template.allMatches, Builtin.template, Builtin.subordinateTo,
        Tokens.splice, Segment.ofTemplate, Segment.ofSubject, Pattern.matchOne, Entries.get?,
        Token.equal, Token.kind, Token.accepts, Token.isValue, List.lookup_cons, Builtin.anyVar]
  have h2 : Library.builtins.firing? [.sym "if", .bool true, .sym "then", .sym "(", .sym "(",
      .sym "get", .bool true, .sym "from", .map [(.bool true, .sym "(")], .sym ")"] =
      some (.rewritten Builtin.lookup.rule 5
        [.sym "if", .bool true, .sym "then", .sym "(", .sym "(", .sym "(", .sym ")"]) := by
    refine Library.firing?_eq_of_first 5 (by decide) [0] ?_ (by decide) ?_
    · have hfe : Builtin.findElse [.sym "if", .bool true, .sym "then", .sym "(", .sym "(",
          .sym "get", .bool true, .sym "from", .map [(.bool true, .sym "(")], .sym ")"] 3 0 0 =
          none := by
        simp [Builtin.findElse, Tokens.opens, Tokens.closes, Token.isSym]
      simp only [List.mem_singleton, forall_eq]
      rw [Library.findSome?_attempt_named hcond (by decide),
        Library.attempt_conditional_eq_none hfe]
    · rw [Library.findSome?_attempt_named hlookup (by decide)]
      simp [Library.attempt, Library.fits, Rule.eligible, Rule.fire, Builtin.rule, Builtin.apply,
        Template.firstMatch_eq_head, Template.allMatches, Builtin.template, Builtin.subordinateTo,
        Tokens.splice, Segment.ofTemplate, Segment.ofSubject, Pattern.matchOne, Entries.get?,
        Token.equal, Token.kind, Token.accepts, Token.isValue, List.lookup_cons, Builtin.anyVar]
  have h3 : Library.builtins.firing?
      [.sym "if", .bool true, .sym "then", .sym "(", .sym "(", .sym "(", .sym ")"] = none := by
    refine Library.firing?_eq_none_of [0] ?_ (by decide)
    have hfe : Builtin.findElse
        [.sym "if", .bool true, .sym "then", .sym "(", .sym "(", .sym "(", .sym ")"] 3 0 0 =
        none := by
      simp [Builtin.findElse, Tokens.opens, Tokens.closes, Token.isSym]
    simp only [List.mem_singleton, forall_eq]
    rw [Library.findSome?_attempt_named hcond (by decide),
      Library.attempt_conditional_eq_none hfe]
  -- the continued call: the `else` lies inside brackets
  have h4 : Library.builtins.firing? [.sym "(", .sym "if", .bool true, .sym "then", .sym "(",
      .sym "(", .sym "(", .sym ")", .sym ")", .sym "+", .sym "else"] = none := by
    refine Library.firing?_eq_none_of [1] ?_ (by decide)
    have hfe : Builtin.findElse [.sym "(", .sym "if", .bool true, .sym "then", .sym "(",
        .sym "(", .sym "(", .sym ")", .sym ")", .sym "+", .sym "else"] 4 0 0 = none := by
      simp [Builtin.findElse, Tokens.opens, Tokens.closes, Token.isSym]
    simp only [List.mem_singleton, forall_eq]
    rw [Library.findSome?_attempt_named hcond (by decide),
      Library.attempt_conditional_eq_none hfe]
  -- the fresh call: the first lookup inside the parentheses, then the conditional
  -- (the ascription spares the elaborator a search for the append over two literals)
  have w1 : Library.builtins.firing? (.sym "(" :: (([.sym "if", .bool true, .sym "then",
      .sym "(", .sym "get", .bool true, .sym "from", .map [(.bool true, .sym "(")], .sym "get",
      .bool true, .sym "from", .map [(.bool true, .sym "(")], .sym ")"] : List Token) ++
      [.sym ")", .sym "+", .sym "else"])) =
      some (.rewritten Builtin.lookup.rule 5 [.sym "(", .sym "if", .bool true, .sym "then",
        .sym "(", .sym "(", .sym "get", .bool true, .sym "from", .map [(.bool true, .sym "(")],
        .sym ")", .sym ")", .sym "+", .sym "else"]) := by
    rw [Library.firing?_parenthesized hwb h1]
    simp [Firing.extend, Firing.shift]
  have w2 : Library.builtins.firing? [.sym "(", .sym "if", .bool true, .sym "then", .sym "(",
      .sym "(", .sym "get", .bool true, .sym "from", .map [(.bool true, .sym "(")], .sym ")",
      .sym ")", .sym "+", .sym "else"] =
      some (.rewritten Builtin.conditional.rule 1 [.sym "(", .sym "(", .sym "(", .sym "(",
        .sym "get", .bool true, .sym "from", .map [(.bool true, .sym "(")], .sym ")", .sym ")",
        .sym "+", .sym ")"]) := by
    refine Library.firing?_eq_of_first 1 (by decide) [] (by simp) (by decide) ?_
    have hfe : Builtin.findElse [.sym "(", .sym "if", .bool true, .sym "then", .sym "(",
        .sym "(", .sym "get", .bool true, .sym "from", .map [(.bool true, .sym "(")], .sym ")",
        .sym ")", .sym "+", .sym "else"] 4 0 0 = some 13 := by
      simp [Builtin.findElse, Tokens.opens, Tokens.closes, Token.isSym]
    have hbe : Builtin.branchEnd [.sym "(", .sym "if", .bool true, .sym "then", .sym "(",
        .sym "(", .sym "get", .bool true, .sym "from", .map [(.bool true, .sym "(")], .sym ")",
        .sym ")", .sym "+", .sym "else"] 14 0 0 = 14 := by
      simp [Builtin.branchEnd]
    rw [Library.findSome?_attempt_named hcond (by decide)]
    simp [hfe, hbe, Builtin.slice, Library.attempt, Library.fits, Rule.eligible, Rule.fire,
      Builtin.rule, Builtin.apply, Template.firstMatch_eq_head, Template.allMatches,
      Builtin.template, Builtin.subordinateTo, Tokens.splice, Segment.ofTemplate,
      Segment.ofSubject, Pattern.matchOne, Token.equal, Token.kind, Token.accepts, Token.isValue]
  have w3 : Library.builtins.firing? [.sym "(", .sym "(", .sym "(", .sym "(", .sym "get",
      .bool true, .sym "from", .map [(.bool true, .sym "(")], .sym ")", .sym ")", .sym "+",
      .sym ")"] =
      some (.rewritten Builtin.lookup.rule 4 [.sym "(", .sym "(", .sym "(", .sym "(", .sym "(",
        .sym ")", .sym ")", .sym "+", .sym ")"]) := by
    refine Library.firing?_eq_of_first 4 (by decide) [] (by simp) (by decide) ?_
    rw [Library.findSome?_attempt_named hlookup (by decide)]
    simp [Library.attempt, Library.fits, Rule.eligible, Rule.fire, Builtin.rule, Builtin.apply,
      Template.firstMatch_eq_head, Template.allMatches, Builtin.template, Builtin.subordinateTo,
      Tokens.splice, Segment.ofTemplate, Segment.ofSubject, Pattern.matchOne, Entries.get?,
      Token.equal, Token.kind, Token.accepts, Token.isValue, List.lookup_cons, Builtin.anyVar]
  have w4 : Library.builtins.firing? [.sym "(", .sym "(", .sym "(", .sym "(", .sym "(", .sym ")",
      .sym ")", .sym "+", .sym ")"] = none :=
    Library.firing?_eq_none (by decide)
  have hA : ((build []).evaluate [.sym "if", .bool true, .sym "then", .sym "(", .sym "get",
      .bool true, .sym "from", .map [(.bool true, .sym "(")], .sym "get", .bool true, .sym "from",
      .map [(.bool true, .sym "(")], .sym ")"]).1.result =
      .ok [.sym "if", .bool true, .sym "then", .sym "(", .sym "(", .sym "(", .sym ")"] := by
    rw [evaluate_ok_iff _ (List.cons_ne_nil _ _), Arith.continuing_of_previous_nil rfl]
    show (Library.builtins.reduceWith defaultMaxSteps (defaultMaxSteps + 2) 1 _ {}).1 = _
    rw [Library.reduceWith_rewritten ?_ ?_ h1, Library.reduceWith_rewritten ?_ ?_ h2,
      Library.reduceWith_normal ?_ ?_ h3]
    all_goals decide
  have hprev : ((build []).evaluate [.sym "if", .bool true, .sym "then", .sym "(", .sym "get",
      .bool true, .sym "from", .map [(.bool true, .sym "(")], .sym "get", .bool true, .sym "from",
      .map [(.bool true, .sym "(")], .sym ")"]).2.previous =
      [.sym "if", .bool true, .sym "then", .sym "(", .sym "(", .sym "(", .sym ")"] := by
    rw [previous_evaluate, hA]
    rfl
  refine ⟨hwb, by decide, by decide, hA, ?_, ?_⟩
  · -- the continued call puts the answer between parentheses, and fires nothing
    rw [evaluate_ok_iff _ (List.cons_ne_nil _ _), library_evaluate, maxSteps_evaluate,
      continuing_infix _ (by rw [hprev]; simp) (by rw [library_evaluate]; decide), continued,
      hprev]
    show (Library.builtins.reduceWith defaultMaxSteps (defaultMaxSteps + 2) 1 _ {}).1 = _
    rw [if_neg (by decide)]
    simp only [List.cons_append, List.nil_append]
    rw [Library.reduceWith_normal ?_ ?_ h4]
    all_goals decide
  · -- the fresh call: the first lookup, the conditional, the second lookup
    rw [evaluate_ok_iff _ (List.cons_ne_nil _ _), Arith.continuing_of_previous_nil rfl]
    show (Library.builtins.reduceWith defaultMaxSteps (defaultMaxSteps + 2) 1 _ {}).1 = _
    rw [Library.reduceWith_rewritten ?_ ?_ w1, Library.reduceWith_rewritten ?_ ?_ w2,
      Library.reduceWith_rewritten ?_ ?_ w3, Library.reduceWith_normal ?_ ?_ w4]
    all_goals decide

end Session

end Reckon

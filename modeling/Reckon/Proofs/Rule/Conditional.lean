import Reckon.Proofs.Brackets.Builtin

/-!
# The branches of a conditional

The conditional `if c then A else B` finds its branches with two counting scans: `findElse`
looks for the `else` of the then-branch and `branchEnd` for the end of the else-branch. Each
keeps a bracket depth and a count of the nested conditionals still open, and neither knows the
grammar of a branch.

A branch, by that grammar (`Builtin.Branch`), is one or more items: a plain token, a bracket
group around a balanced sequence, or a nested conditional `if B then B else B`. A plain token is
neither a bracket nor one of `,` `...` `:` `if` `then` `else`.

Both scans read across a whole branch and come out with the counts they started with
(`Builtin.findElse_branch`, `Builtin.branchEnd_branch`): a bracket group goes up and down again,
and a nested conditional opens one count at its `if` and closes it at its `else`, before its
else-branch, whose items the scans read at the outer count. So the then-branch ends at the first
`else` after it, and the else-branch at the first `,` `...` `:` `then` `else` or closer after it,
or at the end of the workspace.

Main statement: `Builtin.apply_conditional_branch`. The rule at `if` replaces exactly the span
`if b then A else C` by the branch `b` chooses, alone when it is one token and in parentheses
otherwise, whatever stands before the span, as long as what follows it ends a branch.
-/

namespace Reckon

namespace Builtin

open Tokens

/-- The symbols a branch holds only inside a nested conditional or a bracket group: the
separators of lists and maps and the words of a conditional. -/
def branchWords : List String := [",", "...", ":", "if", "then", "else"]

/-- A token that is an item of a branch on its own: no bracket and none of `branchWords`. -/
def isPlainItem (t : Token) : Bool := !t.isBracket && !branchWords.any t.isSym

/-- The branches of a conditional: one or more items, each a plain token, an opener, a balanced
sequence and a closer, or a nested conditional. -/
inductive Branch : List Token → Prop
  | plain {t : Token} : isPlainItem t = true → Branch [t]
  | group {o c : Token} {inner : List Token} : opens o = true → Balanced inner →
      closes c = true → Branch (o :: inner ++ [c])
  | cond {c a e : List Token} : Branch c → Branch a → Branch e →
      Branch (.sym "if" :: c ++ .sym "then" :: a ++ .sym "else" :: e)
  | append {x y : List Token} : Branch x → Branch y → Branch (x ++ y)

/-- What may follow a conditional whose else-branch ends there: nothing, a closer, or a
separator or word of an enclosing structure or conditional. -/
def endsBranch : Option Token → Bool
  | none => true
  | some t => closes t || [",", "...", ":", "then", "else"].any t.isSym

/-- The tokens a chosen branch becomes: itself when it is one token, in parentheses otherwise,
so that it stays one operand. -/
def kept : List Token → List Token
  | [t] => [t]
  | ts => .sym "(" :: ts ++ [.sym ")"]

theorem Branch.ne_nil {a : List Token} (h : Branch a) : a ≠ [] := by
  induction h with
  | plain => simp
  | group => simp
  | cond => simp
  | append _ _ ihx => simp [ihx]

/-! ### One token at a time -/

theorem getElem_of_drop_eq_cons {ws rest : List Token} {i : Nat} {t : Token}
    (h : ws.drop i = t :: rest) : ∃ hi : i < ws.length, ws[i] = t := by
  have hi : i < ws.length := by
    have hlen := congrArg List.length h
    simp only [List.length_drop, List.length_cons] at hlen
    omega
  rw [List.drop_eq_getElem_cons hi] at h
  exact ⟨hi, (List.cons_eq_cons.1 h).1⟩

theorem depthStep_cases {d d' : Nat} {t : Token} (h : depthStep d t = some d') :
    (opens t = true ∧ d' = d + 1) ∨ (opens t = false ∧ closes t = true ∧ d = d' + 1) ∨
      (opens t = false ∧ closes t = false ∧ d' = d) := by
  unfold depthStep at h
  split at h
  · exact .inl ⟨by assumption, (Option.some.inj h).symm⟩
  · rename_i hop
    split at h
    · rename_i hcl
      split at h
      · cases h
      · cases h
        exact .inr (.inl ⟨by simpa using hop, hcl, rfl⟩)
    · rename_i hcl
      cases h
      exact .inr (.inr ⟨by simpa using hop, by simpa using hcl, rfl⟩)

section Scans

variable {ws rest : List Token} {i : Nat} {t : Token}

theorem findElse_depthStep (h : ws.drop i = t :: rest) {d d' : Nat} (hstep : depthStep d t = some d')
    (hin : t.isBracket = true ∨ 0 < d) (n : Nat) : findElse ws i d n = findElse ws (i + 1) d' n := by
  obtain ⟨hi, ht⟩ := getElem_of_drop_eq_cons h
  rw [findElse, dif_pos hi]
  simp only [ht]
  rcases depthStep_cases hstep with ⟨hop, rfl⟩ | ⟨hop, hcl, rfl⟩ | ⟨hop, hcl, rfl⟩
  · rw [if_pos hop]
  · rw [if_neg (by simp [hop]), if_pos hcl, if_neg (by simp)]
    rfl
  · have hd : 0 < d' := hin.resolve_left (by simp [Token.isBracket, hop, hcl])
    rw [if_neg (by simp [hop]), if_neg (by simp [hcl]), if_pos hd]

theorem branchEnd_depthStep (h : ws.drop i = t :: rest) {d d' : Nat} (hstep : depthStep d t = some d')
    (hin : t.isBracket = true ∨ 0 < d) (n : Nat) : branchEnd ws i d n = branchEnd ws (i + 1) d' n := by
  obtain ⟨hi, ht⟩ := getElem_of_drop_eq_cons h
  rw [branchEnd, dif_pos hi]
  simp only [ht]
  rcases depthStep_cases hstep with ⟨hop, rfl⟩ | ⟨hop, hcl, rfl⟩ | ⟨hop, hcl, rfl⟩
  · rw [if_pos hop]
  · rw [if_neg (by simp [hop]), if_pos hcl, if_neg (by simp)]
    rfl
  · have hd : 0 < d' := hin.resolve_left (by simp [Token.isBracket, hop, hcl])
    rw [if_neg (by simp [hop]), if_neg (by simp [hcl]), if_pos hd]

theorem findElse_other (h : ws.drop i = t :: rest) (hb : t.isBracket = false)
    (hif : t.isSym "if" = false) (helse : t.isSym "else" = false) (n : Nat) :
    findElse ws i 0 n = findElse ws (i + 1) 0 n := by
  obtain ⟨hi, ht⟩ := getElem_of_drop_eq_cons h
  simp only [Token.isBracket, Bool.or_eq_false_iff] at hb
  rw [findElse, dif_pos hi]
  simp only [ht, hb.1, hb.2, hif, helse, Bool.false_eq_true, if_false, Nat.lt_irrefl]

theorem findElse_if (h : ws.drop i = .sym "if" :: rest) (n : Nat) :
    findElse ws i 0 n = findElse ws (i + 1) 0 (n + 1) := by
  obtain ⟨hi, ht⟩ := getElem_of_drop_eq_cons h
  rw [findElse, dif_pos hi]
  simp [ht, opens, closes, Token.isSym]

theorem findElse_else_succ (h : ws.drop i = .sym "else" :: rest) (n : Nat) :
    findElse ws i 0 (n + 1) = findElse ws (i + 1) 0 n := by
  obtain ⟨hi, ht⟩ := getElem_of_drop_eq_cons h
  rw [findElse, dif_pos hi]
  simp [ht, opens, closes, Token.isSym]

theorem findElse_else_zero (h : ws.drop i = .sym "else" :: rest) : findElse ws i 0 0 = some i := by
  obtain ⟨hi, ht⟩ := getElem_of_drop_eq_cons h
  rw [findElse, dif_pos hi]
  simp [ht, opens, closes, Token.isSym]

theorem branchEnd_other (h : ws.drop i = t :: rest) (hb : t.isBracket = false)
    (hif : t.isSym "if" = false) (helse : t.isSym "else" = false) {n : Nat}
    (hstop : n = 0 → [",", "...", ":", "then"].any t.isSym = false) :
    branchEnd ws i 0 n = branchEnd ws (i + 1) 0 n := by
  obtain ⟨hi, ht⟩ := getElem_of_drop_eq_cons h
  simp only [Token.isBracket, Bool.or_eq_false_iff] at hb
  rw [branchEnd, dif_pos hi]
  simp only [ht, hb.1, hb.2, hif, helse, Bool.false_eq_true, if_false, Nat.lt_irrefl,
    Bool.false_and, Bool.or_false]
  split
  · rename_i hc
    cases n with
    | zero =>
      have hs := hstop rfl
      simp only [List.any_cons, List.any_nil, Bool.or_false, Bool.or_eq_false_iff] at hs
      obtain ⟨h1, h2, h3, h4⟩ := hs
      simp [h1, h2, h3, h4] at hc
    | succ n => simp at hc
  · rfl

theorem branchEnd_if (h : ws.drop i = .sym "if" :: rest) (n : Nat) :
    branchEnd ws i 0 n = branchEnd ws (i + 1) 0 (n + 1) := by
  obtain ⟨hi, ht⟩ := getElem_of_drop_eq_cons h
  rw [branchEnd, dif_pos hi]
  simp [ht, opens, closes, Token.isSym]

theorem branchEnd_else_succ (h : ws.drop i = .sym "else" :: rest) (n : Nat) :
    branchEnd ws i 0 (n + 1) = branchEnd ws (i + 1) 0 n := by
  obtain ⟨hi, ht⟩ := getElem_of_drop_eq_cons h
  rw [branchEnd, dif_pos hi]
  simp [ht, opens, closes, Token.isSym]

theorem branchEnd_stop (h : endsBranch (ws.drop i).head? = true) (hi : i ≤ ws.length) :
    branchEnd ws i 0 0 = i := by
  cases hd : ws.drop i with
  | nil =>
    have hle : ws.length ≤ i := by
      have hlen := congrArg List.length hd
      simp only [List.length_drop, List.length_nil] at hlen
      omega
    rw [branchEnd, dif_neg (by omega)]
    omega
  | cons t rest =>
    obtain ⟨hi', ht⟩ := getElem_of_drop_eq_cons hd
    rw [hd] at h
    simp only [endsBranch, List.head?_cons, Bool.or_eq_true, List.any_cons, List.any_nil,
      Bool.or_false] at h
    rw [branchEnd, dif_pos hi']
    simp only [ht]
    rcases h with hcl | hsep
    · have hop : opens t = false := by
        simp only [closes, Bool.or_eq_true, Token.isSym_eq_true] at hcl
        rcases hcl with (rfl | rfl) | rfl <;> rfl
      simp [hop, hcl]
    · simp only [Token.isSym_eq_true] at hsep
      rcases hsep with rfl | rfl | rfl | rfl | rfl <;> simp [opens, closes, Token.isSym]

end Scans

/-! ### Across a branch -/

theorem opens_eq_false_of_closes {t : Token} (h : closes t = true) : opens t = false := by
  simp only [closes, Bool.or_eq_true, Token.isSym_eq_true] at h
  rcases h with (rfl | rfl) | rfl <;> simp [opens, Token.isSym]

theorem depthStep_succ {k k' : Nat} {t : Token} (h : depthStep k t = some k') :
    depthStep (k + 1) t = some (k' + 1) := by
  rcases depthStep_cases h with ⟨hop, rfl⟩ | ⟨hop, hcl, rfl⟩ | ⟨hop, hcl, rfl⟩
  · exact depthStep_of_opens hop _
  · exact depthStep_of_closes hop hcl _
  · exact depthStep_of_neither hop hcl _

section Across

variable {ws rest : List Token} {i : Nat}

theorem findElse_inside {xs : List Token} {k m : Nat} (hxs : depthAfter k xs = some m)
    (h : ws.drop i = xs ++ rest) (n : Nat) :
    findElse ws i (k + 1) n = findElse ws (i + xs.length) (m + 1) n := by
  induction xs generalizing i k with
  | nil =>
    cases hxs
    rfl
  | cons t xs ih =>
    rw [depthAfter_cons] at hxs
    obtain ⟨k', hstep, hxs⟩ := Option.bind_eq_some_iff.1 hxs
    have hstep' := depthStep_succ hstep
    rw [findElse_depthStep h hstep' (.inr (Nat.succ_pos k)) n,
      ih hxs (by rw [← List.drop_drop, h]; rfl)]
    simp only [List.length_cons]
    congr 1
    omega

theorem branchEnd_inside {xs : List Token} {k m : Nat} (hxs : depthAfter k xs = some m)
    (h : ws.drop i = xs ++ rest) (n : Nat) :
    branchEnd ws i (k + 1) n = branchEnd ws (i + xs.length) (m + 1) n := by
  induction xs generalizing i k with
  | nil =>
    cases hxs
    rfl
  | cons t xs ih =>
    rw [depthAfter_cons] at hxs
    obtain ⟨k', hstep, hxs⟩ := Option.bind_eq_some_iff.1 hxs
    have hstep' := depthStep_succ hstep
    rw [branchEnd_depthStep h hstep' (.inr (Nat.succ_pos k)) n,
      ih hxs (by rw [← List.drop_drop, h]; rfl)]
    simp only [List.length_cons]
    congr 1
    omega

/-- Read outside brackets, a whole branch leaves the scan for the
`else` with the count of nested conditionals it came in with. -/
theorem findElse_branch {a : List Token} (ha : Branch a) :
    ∀ {ws rest : List Token} {i : Nat}, ws.drop i = a ++ rest → ∀ n,
      findElse ws i 0 n = findElse ws (i + a.length) 0 n := by
  induction ha with
  | plain hp =>
    intro ws rest i h n
    simp only [isPlainItem, branchWords, Bool.and_eq_true, Bool.not_eq_true', List.any_cons,
      List.any_nil, Bool.or_false, Bool.or_eq_false_iff] at hp
    obtain ⟨hb, -, -, -, hif, -, helse⟩ := hp
    exact findElse_other h hb hif helse n
  | @group o c inner ho hbal hc =>
    intro ws rest i h n
    simp only [List.cons_append, List.append_assoc, List.nil_append] at h
    have h₁ : ws.drop (i + 1) = inner ++ c :: rest := by rw [← List.drop_drop, h]; rfl
    rw [findElse_depthStep h (depthStep_of_opens ho 0) (.inl (by simp [Token.isBracket, ho])) n,
      findElse_inside hbal h₁ n, findElse_depthStep (drop_add_of_drop_eq h₁)
        (depthStep_of_closes (opens_eq_false_of_closes hc) hc 0) (.inl (by simp [Token.isBracket, hc])) n]
    simp only [List.length_append, List.length_cons, List.length_nil]
    congr 1
    omega
  | @cond c a e _ _ _ ihc iha ihe =>
    intro ws rest i h n
    simp only [List.cons_append, List.append_assoc] at h
    -- `if`, the condition, `then`, the then-branch, `else`, the else-branch, one at a time
    have h₁ : ws.drop (i + 1) = c ++ .sym "then" :: (a ++ .sym "else" :: (e ++ rest)) := by
      rw [← List.drop_drop, h]; rfl
    have h₂ := drop_add_of_drop_eq h₁
    have h₃ : ws.drop (i + 1 + c.length + 1) = a ++ .sym "else" :: (e ++ rest) := by
      rw [← List.drop_drop, h₂]; rfl
    have h₄ := drop_add_of_drop_eq h₃
    have h₅ : ws.drop (i + 1 + c.length + 1 + a.length + 1) = e ++ rest := by
      rw [← List.drop_drop, h₄]; rfl
    rw [findElse_if h, ihc h₁, findElse_other h₂ (by decide) (by decide) (by decide), iha h₃,
      findElse_else_succ h₄, ihe h₅]
    simp only [List.length_append, List.length_cons]
    congr 1
    omega
  | append _ _ ihx ihy =>
    intro ws rest i h n
    rw [List.append_assoc] at h
    rw [ihx h, ihy (drop_add_of_drop_eq h), List.length_append, Nat.add_assoc]

/-- Read outside brackets, a whole branch leaves the scan for the end of
the else-branch with the count of nested conditionals it came in with. -/
theorem branchEnd_branch {a : List Token} (ha : Branch a) :
    ∀ {ws rest : List Token} {i : Nat}, ws.drop i = a ++ rest → ∀ n,
      branchEnd ws i 0 n = branchEnd ws (i + a.length) 0 n := by
  induction ha with
  | plain hp =>
    intro ws rest i h n
    simp only [isPlainItem, branchWords, Bool.and_eq_true, Bool.not_eq_true', List.any_cons,
      List.any_nil, Bool.or_false, Bool.or_eq_false_iff] at hp
    obtain ⟨hb, hcomma, hdots, hcolon, hif, hthen, helse⟩ := hp
    exact branchEnd_other h hb hif helse fun _ => by simp [hcomma, hdots, hcolon, hthen]
  | @group o c inner ho hbal hc =>
    intro ws rest i h n
    simp only [List.cons_append, List.append_assoc, List.nil_append] at h
    have h₁ : ws.drop (i + 1) = inner ++ c :: rest := by rw [← List.drop_drop, h]; rfl
    rw [branchEnd_depthStep h (depthStep_of_opens ho 0) (.inl (by simp [Token.isBracket, ho])) n,
      branchEnd_inside hbal h₁ n, branchEnd_depthStep (drop_add_of_drop_eq h₁)
        (depthStep_of_closes (opens_eq_false_of_closes hc) hc 0) (.inl (by simp [Token.isBracket, hc])) n]
    simp only [List.length_append, List.length_cons, List.length_nil]
    congr 1
    omega
  | @cond c a e _ _ _ ihc iha ihe =>
    intro ws rest i h n
    simp only [List.cons_append, List.append_assoc] at h
    -- inside the nested conditional, `then` stops nothing: a conditional is open
    have h₁ : ws.drop (i + 1) = c ++ .sym "then" :: (a ++ .sym "else" :: (e ++ rest)) := by
      rw [← List.drop_drop, h]; rfl
    have h₂ := drop_add_of_drop_eq h₁
    have h₃ : ws.drop (i + 1 + c.length + 1) = a ++ .sym "else" :: (e ++ rest) := by
      rw [← List.drop_drop, h₂]; rfl
    have h₄ := drop_add_of_drop_eq h₃
    have h₅ : ws.drop (i + 1 + c.length + 1 + a.length + 1) = e ++ rest := by
      rw [← List.drop_drop, h₄]; rfl
    rw [branchEnd_if h, ihc h₁, branchEnd_other h₂ (by decide) (by decide) (by decide) (by simp),
      iha h₃, branchEnd_else_succ h₄, ihe h₅]
    simp only [List.length_append, List.length_cons]
    congr 1
    omega
  | append _ _ ihx ihy =>
    intro ws rest i h n
    rw [List.append_assoc] at h
    rw [ihx h, ihy (drop_add_of_drop_eq h), List.length_append, Nat.add_assoc]

end Across

/-! ### The rule at `if` -/

theorem firstMatch_conditional (b : Bool) (pre rest : List Token) :
    Template.firstMatch conditional.template (pre ++ .sym "if" :: .bool b :: .sym "then" :: rest)
      pre.length = some [("C", .bool b)] := by
  rw [Template.firstMatch_append, Template.firstMatch_zero (by simp [template]) (by simp [template])]
  simp [template, Pattern.matchAll_cons, Pattern.matchOne_sym,
    Pattern.matchOne_var_fresh "C" .bool (.bool b) [] rfl, Token.accepts, Token.kind]

/-- At the `if` of
`if b then A else C`, with branches `A` and `C`, the rule replaces exactly that span by `A` when
`b` holds and by `C` otherwise, alone when it is one token and in parentheses otherwise: whatever
stands before the `if`, as long as nothing, a closer, or one of `,` `...` `:` `then` `else` stands
after `C`. -/
theorem apply_conditional_branch (b : Bool) {a e : List Token} (ha : Branch a) (he : Branch e)
    (pre post : List Token) (hpost : endsBranch post.head? = true) :
    conditional.apply (pre ++ .sym "if" :: .bool b :: .sym "then" :: a ++ .sym "else" :: e ++ post)
      pre.length = some (pre ++ kept (if b then a else e) ++ post) := by
  set ws := pre ++ .sym "if" :: .bool b :: .sym "then" :: a ++ .sym "else" :: e ++ post with hws
  -- the then-branch, its `else`, the else-branch and what follows, by their positions
  have h₀ : ws.drop (pre.length + 3) = a ++ .sym "else" :: (e ++ post) := by
    simp [hws, List.drop_append]
  have h₁ := drop_add_of_drop_eq h₀
  have h₂ : ws.drop (pre.length + 3 + a.length + 1) = e ++ post := by
    rw [← List.drop_drop, h₁]; rfl
  have h₃ := drop_add_of_drop_eq h₂
  have helse : findElse ws (pre.length + 3) 0 0 = some (pre.length + 3 + a.length) := by
    rw [findElse_branch ha h₀, findElse_else_zero h₁]
  have hend : branchEnd ws (pre.length + 3 + a.length + 1) 0 0 =
      pre.length + 3 + a.length + 1 + e.length := by
    rw [branchEnd_branch he h₂, branchEnd_stop (by rw [h₃]; exact hpost)]
    simp only [hws, List.length_append, List.length_cons]
    omega
  have hA : slice ws (pre.length + 3) (pre.length + 3 + a.length) = a := by
    simp [slice, h₀]
  have hC : slice ws (pre.length + 3 + a.length + 1) (pre.length + 3 + a.length + 1 + e.length) =
      e := by
    simp [slice, h₂]
  have hsplice : ∀ xs, splice ws pre.length (pre.length + 3 + a.length + 1 + e.length) xs =
      pre ++ xs ++ post := by
    intro xs
    rw [splice, h₃]
    simp [hws]
  have hmatch : Template.firstMatch conditional.template ws pre.length = some [("C", .bool b)] := by
    simpa only [hws, List.append_assoc, List.cons_append] using
      firstMatch_conditional b pre (a ++ .sym "else" :: (e ++ post))
  simp only [apply, hmatch, helse, Option.bind_eq_bind, Option.bind_some, List.lookup_cons,
    beq_self_eq_true]
  generalize pre.length + 3 + a.length + 1 + e.length = stop at hend hC hsplice
  -- a branch is never empty, so it goes back alone or in parentheses
  cases b with
  | true =>
    simp only [hA, hend, if_true]
    obtain ⟨t, rest, rfl⟩ := List.exists_cons_of_ne_nil ha.ne_nil
    cases rest <;> simp [kept, hsplice]
  | false =>
    simp only [hC, hend, Bool.false_eq_true, if_false]
    obtain ⟨t, rest, rfl⟩ := List.exists_cons_of_ne_nil he.ne_nil
    cases rest <;> simp [kept, hsplice]

/-- A false condition keeps an else-branch that holds a nested conditional and one more token,
in parentheses, and drops a then-branch in brackets; the `,` after it ends the branch. -/
theorem apply_conditional_nested :
    let a : List Token := [.sym "(", .num (.exact 1), .sym "+", .num (.exact 2), .sym ")"]
    let e : List Token := [.sym "if", .bool true, .sym "then", .num (.exact 3), .sym "else",
      .num (.exact 4), .num (.exact 5)]
    Branch a ∧ Branch e ∧ endsBranch (some (.sym ",")) = true ∧
      conditional.apply ([.num (.exact 0), .sym "*"] ++ .sym "if" :: .bool false :: .sym "then" ::
          a ++ .sym "else" :: e ++ [.sym ","]) 2 =
        some ([.num (.exact 0), .sym "*"] ++ kept e ++ [.sym ","]) := by
  intro a e
  have ha : Branch (.sym "(" :: [.num (.exact 1), .sym "+", .num (.exact 2)] ++ [.sym ")"]) :=
    .group (by decide +kernel) (by decide +kernel) (by decide +kernel)
  have hcond : Branch (.sym "if" :: [.bool true] ++ .sym "then" :: [.num (.exact 3)] ++
      .sym "else" :: [.num (.exact 4)]) :=
    .cond (.plain (by decide +kernel)) (.plain (by decide +kernel)) (.plain (by decide +kernel))
  have he : Branch e := .append hcond (.plain (t := .num (.exact 5)) (by decide +kernel))
  exact ⟨ha, he, rfl, apply_conditional_branch false ha he [.num (.exact 0), .sym "*"] [.sym ","] rfl⟩

end Builtin

end Reckon

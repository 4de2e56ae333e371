import Reckon.Proofs.Brackets.Values

/-!
# The built-in rules keep a workspace bracketed

Every built-in rule replaces a balanced span of the workspace, starting where it fires, by a
bracketed sequence. The rules matched by their template replace the span the template covers,
which has the template's brackets, by one inert token: a binding, a computed number or
boolean, a symbol, or the value of a map entry. The folds replace an opening bracket and
everything up to its closer by the list or map they build. The conditional counts brackets
without telling their kinds apart: its else-branch runs to a closer of an enclosing structure
or to the end of the workspace, and in a well-bracketed workspace both leave the branch
balanced. The branch it keeps is a balanced span of the workspace, so it is well bracketed on
its own, and it goes back alone or in new parentheses.

Main statement: `Builtin.apply_bracketed`, for every built-in rule whose words are no brackets,
as every session's are (`Builtin.plain_of_mem_rules`).
-/

namespace Reckon

namespace Tokens

theorem depthAfter_one_closer {t : Token} (ht : closes t = true) :
    depthAfter 1 [t] = some 0 := by
  have hop : opens t = false := by
    simp only [closes, Bool.or_eq_true, Token.isSym_eq_true] at ht
    rcases ht with (rfl | rfl) | rfl <;> simp [opens, Token.isSym]
  simp [depthAfter_cons, depthStep, hop, ht]

theorem depthStep_of_opens {t : Token} (h : opens t = true) (d : Nat) :
    depthStep d t = some (d + 1) := by
  simp [depthStep, h]

theorem depthStep_of_closes {t : Token} (hop : opens t = false) (h : closes t = true) (d : Nat) :
    depthStep (d + 1) t = some d := by
  simp [depthStep, hop, h]

theorem depthStep_of_neither {t : Token} (hop : opens t = false) (hcl : closes t = false)
    (d : Nat) : depthStep d t = some d := by
  simp [depthStep, hop, hcl]

theorem depthAfter_of_not_bracket {ts : List Token} (h : ∀ t ∈ ts, t.isBracket = false)
    (d : Nat) : depthAfter d ts = some d := by
  induction ts with
  | nil => rfl
  | cons t ts ih =>
    rw [depthAfter_cons_of_not_bracket (h t List.mem_cons_self)]
    exact ih fun u hu => h u (List.mem_cons_of_mem _ hu)

theorem drop_eq_cons_of_getElem? {ws : List Token} {i : Nat} {t : Token} (h : ws[i]? = some t) :
    ws.drop i = t :: ws.drop (i + 1) := by
  have hlt : i < ws.length := by
    by_contra hge
    rw [List.getElem?_eq_none (by omega)] at h
    cases h
  rw [List.getElem?_eq_getElem hlt, Option.some.injEq] at h
  rw [List.drop_eq_getElem_cons hlt, h]

theorem Bracketed.fold {ws span rest : List Token} {pos : Nat} {o v : Token} (h : Bracketed ws)
    (ho : opens o = true) (hat : ws[pos]? = some o) (hspan : ws.drop (pos + 1) = span ++ rest)
    (hdepth : depthAfter 1 span = some 0) (hv : v.Inert) : Bracketed (ws.take pos ++ [v] ++ rest) := by
  have hdrop : ws.drop pos = (o :: span) ++ rest := by
    rw [drop_eq_cons_of_getElem? hat, hspan]
    rfl
  refine h.rewrite hdrop ?_ (bracketed_singleton hv)
  unfold Tokens.Balanced
  rw [depthAfter_cons, depthStep_of_opens ho 0]
  exact hdepth

theorem Bracketed.fold_empty {ws : List Token} {pos : Nat} {o c v : Token} (h : Bracketed ws)
    (ho : opens o = true) (hc : closes c = true) (hat : ws[pos]? = some o)
    (hnext : ws[pos + 1]? = some c) (hv : v.Inert) :
    Bracketed (ws.take pos ++ [v] ++ ws.drop (pos + 2)) :=
  h.fold ho hat (drop_eq_cons_of_getElem? hnext) (depthAfter_one_closer hc) hv

end Tokens

namespace Builtin

open Tokens

theorem isBracket_sym_comma : (Token.sym ",").isBracket = false := by
  simp [Token.isBracket, opens, closes, Token.isSym]

theorem isBracket_sym_ellipsis : (Token.sym "...").isBracket = false := by
  simp [Token.isBracket, opens, closes, Token.isSym]

theorem isBracket_sym_colon : (Token.sym ":").isBracket = false := by
  simp [Token.isBracket, opens, closes, Token.isSym]

theorem isBracket_sym_else : (Token.sym "else").isBracket = false := by
  simp [Token.isBracket, opens, closes, Token.isSym]

/-- Folding the items from `i` on replaces the tokens from `start` to the
closing bracket by one inert list; the tokens from `i` up to and with that bracket take the
count from one down to zero. -/
theorem foldList_spec {ws ws' : List Token} {start i : Nat} {items : List Token}
    (h : foldList ws start i items = some ws') (hws : ∀ t ∈ ws, t.bracketFreeMaps = true)
    (hitems : ∀ x ∈ items, x.bracketFreeMaps = true) :
    ∃ span rest v, ws.drop i = span ++ rest ∧ depthAfter 1 span = some 0 ∧ v.Inert ∧
      ws' = ws.take start ++ [v] ++ rest := by
  fun_induction foldList ws start i items with
  | case1 i items hlen t next after hdrop hval items' hcomma ih =>
    -- a value and a comma: the fold goes on two tokens further
    have ht : t ∈ ws := List.mem_of_mem_drop (hdrop ▸ List.mem_cons_self)
    obtain ⟨span, rest, v, hspan, hdepth, hv, rfl⟩ :=
      ih h (fun x hx => (List.mem_append.1 hx).elim (hitems x)
        (fun hx => List.mem_singleton.1 hx ▸ hws t ht))
    have hafter : after = ws.drop (i + 2) := by
      rw [← List.drop_drop, hdrop]
      rfl
    refine ⟨t :: next :: span, rest, v, ?_, ?_, hv, rfl⟩
    · rw [hdrop, hafter, hspan]
      rfl
    · rw [Token.isSym_eq_true] at hcomma
      subst hcomma
      rw [depthAfter_cons_of_not_bracket (Token.isBracket_of_isValue hval),
        depthAfter_cons_of_not_bracket isBracket_sym_comma]
      exact hdepth
  | case2 i items hlen t next after hdrop hval items' hcomma hclose =>
    have ht : t ∈ ws := List.mem_of_mem_drop (hdrop ▸ List.mem_cons_self)
    refine ⟨[t, next], after, .list items', by simp [hdrop], ?_, ?_, ?_⟩
    · rw [depthAfter_cons_of_not_bracket (Token.isBracket_of_isValue hval)]
      exact depthAfter_one_closer (by simp [closes, hclose])
    · refine Token.inert_list fun x hx => ?_
      rcases List.mem_append.1 hx with hx | hx
      · exact hitems x hx
      · exact List.mem_singleton.1 hx ▸ hws t ht
    · rw [← Option.some.inj h, splice, ← List.drop_drop, hdrop]
      rfl
  | case3 i items hlen t next hval items' hcomma hclose hdots tail close after hclose' hdrop =>
    have hsub : ∀ x ∈ t :: next :: .list tail :: close :: after, x ∈ ws := fun x hx =>
      List.mem_of_mem_drop (hdrop ▸ hx)
    have htail := (Token.bracketFreeMaps_list tail).1 (hws _ (hsub _ (by simp)))
    refine ⟨[t, next, .list tail, close], after, .list (items' ++ tail), by simp [hdrop], ?_, ?_,
      ?_⟩
    · rw [Token.isSym_eq_true] at hdots
      subst hdots
      rw [depthAfter_cons_of_not_bracket (Token.isBracket_of_isValue hval),
        depthAfter_cons_of_not_bracket isBracket_sym_ellipsis,
        depthAfter_cons_of_not_bracket rfl]
      exact depthAfter_one_closer (by simp [closes, hclose'])
    · refine Token.inert_list fun x hx => ?_
      simp only [List.mem_append, List.mem_singleton, items'] at hx
      rcases hx with (hx | rfl) | hx
      · exact hitems x hx
      · exact hws _ (hsub _ List.mem_cons_self)
      · exact htail x hx
    · rw [← Option.some.inj h, splice, ← List.drop_drop, hdrop]
      rfl
  | case4 | case5 | case6 | case7 | case8 | case9 => simp at h

/-- Folding the entries from `i` on replaces the tokens from `start` to the
closing brace by one inert map; the tokens from `i` up to and with that brace take the count
from one down to zero. -/
theorem foldMap_spec {ws ws' : List Token} {start i : Nat} {entries : List (Token × Token)}
    (h : foldMap ws start i entries = some ws') (hws : ∀ t ∈ ws, t.bracketFreeMaps = true)
    (hentries : Entries.Inert entries) :
    ∃ span rest v, ws.drop i = span ++ rest ∧ depthAfter 1 span = some 0 ∧ v.Inert ∧
      ws' = ws.take start ++ [v] ++ rest := by
  fun_induction foldMap ws start i entries with
  | case1 i entries hlen k colon v next after hdrop hkv entries' hcomma ih =>
    -- an entry and a comma: the fold goes on four tokens further
    have hsub : ∀ x ∈ k :: colon :: v :: next :: after, x ∈ ws := fun x hx =>
      List.mem_of_mem_drop (hdrop ▸ hx)
    simp only [Bool.and_eq_true] at hkv
    obtain ⟨⟨hk, hcolon⟩, hv⟩ := hkv
    obtain ⟨span, rest, w, hspan, hdepth, hw, rfl⟩ := ih h (fun e he => by
      rcases List.mem_append.1 he with he | he
      · exact hentries e he
      · rw [List.mem_singleton.1 he]
        exact ⟨hws k (hsub k (by simp)), Token.isBracket_of_isValue hv, hws v (hsub v (by simp))⟩)
    have hafter : after = ws.drop (i + 4) := by
      rw [← List.drop_drop, hdrop]
      rfl
    refine ⟨k :: colon :: v :: next :: span, rest, w, ?_, ?_, hw, rfl⟩
    · rw [hdrop, hafter, hspan]
      rfl
    · rw [Token.isSym_eq_true] at hcolon hcomma
      subst hcolon hcomma
      rw [depthAfter_cons_of_not_bracket (Token.isBracket_of_isValue hk),
        depthAfter_cons_of_not_bracket isBracket_sym_colon,
        depthAfter_cons_of_not_bracket (Token.isBracket_of_isValue hv),
        depthAfter_cons_of_not_bracket isBracket_sym_comma]
      exact hdepth
  | case2 i entries hlen k colon v next after hdrop hkv entries' hcomma hclose =>
    have hsub : ∀ x ∈ k :: colon :: v :: next :: after, x ∈ ws := fun x hx =>
      List.mem_of_mem_drop (hdrop ▸ hx)
    simp only [Bool.and_eq_true] at hkv
    obtain ⟨⟨hk, hcolon⟩, hv⟩ := hkv
    refine ⟨[k, colon, v, next], after, .map (Entries.build entries'), by simp [hdrop], ?_, ?_, ?_⟩
    · rw [Token.isSym_eq_true] at hcolon
      subst hcolon
      rw [depthAfter_cons_of_not_bracket (Token.isBracket_of_isValue hk),
        depthAfter_cons_of_not_bracket isBracket_sym_colon,
        depthAfter_cons_of_not_bracket (Token.isBracket_of_isValue hv)]
      exact depthAfter_one_closer (by simp [closes, hclose])
    · refine Token.inert_map (Entries.All.build fun e he => ?_)
      rcases List.mem_append.1 he with he | he
      · exact hentries e he
      · rw [List.mem_singleton.1 he]
        exact ⟨hws k (hsub k (by simp)), Token.isBracket_of_isValue hv, hws v (hsub v (by simp))⟩
    · rw [← Option.some.inj h, splice, ← List.drop_drop, hdrop]
      rfl
  | case3 i entries hlen k colon v next hkv entries' hcomma hclose hdots rest close after hclose'
      hdrop =>
    have hsub : ∀ x ∈ k :: colon :: v :: next :: .map rest :: close :: after, x ∈ ws :=
      fun x hx => List.mem_of_mem_drop (hdrop ▸ hx)
    simp only [Bool.and_eq_true] at hkv
    obtain ⟨⟨hk, hcolon⟩, hv⟩ := hkv
    have hrest := (Token.bracketFreeMaps_map rest).1 (hws _ (hsub _ (by simp)))
    refine ⟨[k, colon, v, next, .map rest, close], after,
      .map (Entries.merge rest (Entries.build entries')), by simp [hdrop], ?_, ?_, ?_⟩
    · rw [Token.isSym_eq_true] at hcolon hdots
      subst hcolon hdots
      rw [depthAfter_cons_of_not_bracket (Token.isBracket_of_isValue hk),
        depthAfter_cons_of_not_bracket isBracket_sym_colon,
        depthAfter_cons_of_not_bracket (Token.isBracket_of_isValue hv),
        depthAfter_cons_of_not_bracket isBracket_sym_ellipsis,
        depthAfter_cons_of_not_bracket rfl]
      exact depthAfter_one_closer (by simp [closes, hclose'])
    · refine Token.inert_map (Entries.All.merge hrest (Entries.All.build fun e he => ?_))
      rcases List.mem_append.1 he with he | he
      · exact hentries e he
      · rw [List.mem_singleton.1 he]
        exact ⟨hws k (hsub k (by simp)), Token.isBracket_of_isValue hv, hws v (hsub v (by simp))⟩
    · rw [← Option.some.inj h, splice, ← List.drop_drop, hdrop]
      rfl
  | case4 | case5 | case6 | case7 | case8 | case9 => simp at h

/-! ### The conditional's scans -/

/-- The `else` found at `k` for a then-branch read from `i` at depth `d`: the tokens from `i` up
to `k` bring the count from `d` to zero. -/
def ElseAt (ws : List Token) (i d k : Nat) : Prop :=
  ∃ span rest, ws.drop i = span ++ .sym "else" :: rest ∧ depthAfter d span = some 0 ∧
    k = i + span.length

theorem ElseAt.cons {ws : List Token} {i d d' k : Nat} (hi : i < ws.length)
    (hstep : depthStep d ws[i] = some d') (h : ElseAt ws (i + 1) d' k) : ElseAt ws i d k := by
  obtain ⟨span, rest, hdrop, hdepth, rfl⟩ := h
  refine ⟨ws[i] :: span, rest, ?_, ?_, by simp; omega⟩
  · rw [List.drop_eq_getElem_cons hi, hdrop]
    rfl
  · rw [depthAfter_cons, hstep]
    exact hdepth

/-- The `else` of a conditional closes a then-branch that is balanced from
the depth the scan starts at. -/
theorem findElse_spec {ws : List Token} {i depth nested k : Nat}
    (h : findElse ws i depth nested = some k) : ElseAt ws i depth k := by
  fun_induction findElse ws i depth nested with
  | case1 i depth nested hi t hop ih => exact ElseAt.cons hi (depthStep_of_opens hop _) (ih h)
  | case2 => simp at h
  | case3 i depth nested hi t hop hcl hzero ih =>
    obtain ⟨d, rfl⟩ : ∃ d, depth = d + 1 :=
      Nat.exists_eq_succ_of_ne_zero (by simpa using hzero)
    exact ElseAt.cons hi (depthStep_of_closes (by simpa using hop) hcl d) (ih h)
  | case4 i depth nested hi t hop hcl _ ih
  | case5 i depth nested hi t hop hcl _ _ ih
  | case7 i depth nested hi t hop hcl _ _ _ _ ih
  | case8 i depth nested hi t hop hcl _ _ _ ih =>
    exact ElseAt.cons hi (depthStep_of_neither (by simpa using hop) (by simpa using hcl) _) (ih h)
  | case6 i depth nested hi t hop hcl hdepth hif helse hnested =>
    -- the `else` of this conditional stands outside every bracket
    rw [← Option.some.inj h]
    have hd : depth = 0 := by omega
    subst hd
    refine ⟨[], ws.drop (i + 1), ?_, rfl, rfl⟩
    rw [List.drop_eq_getElem_cons hi, ← Token.isSym_eq_true.1 helse]
    rfl
  | case9 => simp at h

/-- The end `stop` of an else-branch read from `i` at depth `d`: the tokens from `i` up to
`stop` move the count from `d` to some depth, which is zero unless the branch runs to the end
of the workspace. -/
def BranchTo (ws : List Token) (i d stop : Nat) : Prop :=
  ∃ span rest e, ws.drop i = span ++ rest ∧ depthAfter d span = some e ∧ (rest ≠ [] → e = 0) ∧
    stop = i + span.length

theorem BranchTo.cons {ws : List Token} {i d d' stop : Nat} (hi : i < ws.length)
    (hstep : depthStep d ws[i] = some d') (h : BranchTo ws (i + 1) d' stop) :
    BranchTo ws i d stop := by
  obtain ⟨span, rest, e, hdrop, hdepth, hend, rfl⟩ := h
  refine ⟨ws[i] :: span, rest, e, ?_, ?_, hend, by simp; omega⟩
  · rw [List.drop_eq_getElem_cons hi, hdrop]
    rfl
  · rw [depthAfter_cons, hstep]
    exact hdepth

theorem BranchTo.here {ws : List Token} {i : Nat} : BranchTo ws i 0 i :=
  ⟨[], ws.drop i, 0, rfl, rfl, fun _ => rfl, rfl⟩

/-- An else-branch ends at a closer outside its own brackets, at a
separator outside its brackets and nested conditionals, or at the end of the workspace. -/
theorem branchEnd_spec (ws : List Token) {i : Nat} (depth nested : Nat) (hi : i ≤ ws.length) :
    BranchTo ws i depth (branchEnd ws i depth nested) := by
  fun_induction branchEnd ws i depth nested with
  | case1 i depth nested hlt t hop ih => exact BranchTo.cons hlt (depthStep_of_opens hop _) (ih hlt)
  | case2 i depth nested hlt t hop hcl hzero =>
    obtain rfl : depth = 0 := by simpa using hzero
    exact BranchTo.here
  | case3 i depth nested hlt t hop hcl hzero ih =>
    obtain ⟨d, rfl⟩ : ∃ d, depth = d + 1 :=
      Nat.exists_eq_succ_of_ne_zero (by simpa using hzero)
    exact BranchTo.cons hlt (depthStep_of_closes (by simpa using hop) hcl d) (ih hlt)
  | case4 i depth nested hlt t hop hcl _ ih
  | case5 i depth nested hlt t hop hcl _ _ ih
  | case6 i depth nested hlt t hop hcl _ _ _ ih
  | case8 i depth nested hlt t hop hcl _ _ _ _ ih =>
    exact BranchTo.cons hlt (depthStep_of_neither (by simpa using hop) (by simpa using hcl) _)
      (ih hlt)
  | case7 i depth nested hlt t hop hcl hdepth _ _ _ =>
    obtain rfl : depth = 0 := by omega
    exact BranchTo.here
  | case9 i depth nested hge =>
    -- past the end: the branch is empty and the workspace ends
    obtain rfl : i = ws.length := by omega
    exact ⟨[], [], depth, by simp, rfl, fun h => absurd rfl h, rfl⟩

/-! ### The rules -/

/-- A built-in rule whose words are no brackets, as those of every session are: an alias has
some words, and neither they nor the symbol it stands for are brackets. -/
def Plain : Builtin → Prop
  | .alias words target => words ≠ [] ∧ ∀ s ∈ target :: words, (Token.sym s).isBracket = false
  | _ => True

theorem template_ne_nil : ∀ {b : Builtin}, b.Plain → b.template ≠ []
  | .alias words _, hb => by simpa [template] using hb.1
  | .binary _, _ | .parens, _ | .listFold, _ | .mapFold, _ | .negate, _ | .logicalNot, _
  | .conditional, _ | .lookup, _ => by simp [template]

theorem isBracket_symbol (op : Operator) : (Token.sym op.symbol).isBracket = false := by
  cases op <;> decide

theorem template_balanced : ∀ {b : Builtin}, b.Plain → b ≠ .listFold → b ≠ .mapFold →
    Balanced b.template
  | .parens, _, _, _ => by decide
  | .listFold, _, hl, _ => absurd rfl hl
  | .mapFold, _, _, hm => absurd rfl hm
  | .alias words target, hb, _, _ => by
    refine depthAfter_of_not_bracket (fun t ht => ?_) 0
    obtain ⟨w, hw, rfl⟩ := List.mem_map.1 ht
    exact hb.2 w (List.mem_cons_of_mem _ hw)
  | .binary op, _, _, _ => by
    refine depthAfter_of_not_bracket (fun t ht => ?_) 0
    simp only [template, List.mem_cons, List.not_mem_nil, or_false] at ht
    rcases ht with rfl | rfl | rfl
    · rfl
    · exact isBracket_symbol op
    · rfl
  | .negate, _, _, _ | .logicalNot, _, _, _ | .conditional, _, _, _ | .lookup, _, _, _ => by
    decide

theorem bracketed_splice_template {b : Builtin} (hb : b.Plain) (hl : b ≠ .listFold)
    (hm : b ≠ .mapFold) {ws : List Token} {pos : Nat} (h : Bracketed ws)
    (hfits : Library.fits b.template ws pos = true) {v : Token} (hv : v.Inert) :
    Bracketed (splice ws pos (pos + b.template.length) [v]) := by
  obtain ⟨-, hspan⟩ := Library.balanced_slice_of_fits (template_no_symbol_var b)
    (template_balanced hb hl hm) hfits
  exact h.splice_at (by omega) hspan (bracketed_singleton hv)

theorem inert_num (n : Number) : (Token.num n).Inert := ⟨rfl, rfl⟩

theorem inert_bool (v : Bool) : (Token.bool v).Inert := ⟨rfl, rfl⟩

theorem Operator.eval_inert {op : Operator} {a b r : Token} (h : op.eval a b = some r) :
    r.Inert := by
  unfold Operator.eval at h
  split at h <;> first
    | (cases h; exact ⟨rfl, rfl⟩)
    | (obtain ⟨_, -, rfl⟩ := Option.map_eq_some_iff.1 h; exact ⟨rfl, rfl⟩)
    | simp at h

theorem inert_of_get? {es : List (Token × Token)} (hmap : (Token.map es).Inert) {k v : Token}
    (h : Entries.get? es k = some v) : v.Inert := by
  obtain ⟨k', hk'⟩ := Entries.mem_of_get? h
  exact ((Token.bracketFreeMaps_map es).1 hmap.2 _ hk').2

/-- It replaces the opening bracket at its position and everything up to
its closer by one inert list. -/
theorem listFold_bracketed {ws ws' : List Token} {pos : Nat} (h : Bracketed ws)
    (hat : ws[pos]? = some (.sym "[")) (happly : listFold.apply ws pos = some ws') :
    Bracketed ws' := by
  have ho : opens (.sym "[") = true := by simp [opens]
  simp only [apply] at happly
  split at happly
  · -- `[ ]` is the empty list
    rename_i hclose
    obtain ⟨c, hc, hcs⟩ := Option.map_eq_some_iff.1 (Option.getD_eq_iff.1 hclose |>.resolve_right
      (by simp))
    rw [← Option.some.inj happly, splice]
    exact h.fold_empty ho (by simp [closes, hcs]) hat hc (Token.inert_list (by simp))
  · obtain ⟨span, rest, v, hspan, hdepth, hv, rfl⟩ :=
      foldList_spec happly h.2 (fun x hx => by simp at hx)
    exact h.fold ho hat hspan hdepth hv

/-- It replaces the opening brace at its position and everything up to its
closer by one inert map. -/
theorem mapFold_bracketed {ws ws' : List Token} {pos : Nat} (h : Bracketed ws)
    (hat : ws[pos]? = some (.sym "\x7b")) (happly : mapFold.apply ws pos = some ws') :
    Bracketed ws' := by
  have ho : opens (.sym "\x7b") = true := by simp [opens]
  simp only [apply] at happly
  split at happly
  · -- `{ }` is the empty map
    rename_i hclose
    obtain ⟨c, hc, hcs⟩ := Option.map_eq_some_iff.1 (Option.getD_eq_iff.1 hclose |>.resolve_right
      (by simp))
    rw [← Option.some.inj happly, splice]
    exact h.fold_empty ho (by simp [closes, hcs]) hat hc (Token.inert_map (by simp [Entries.Inert, Entries.All]))
  · obtain ⟨span, rest, v, hspan, hdepth, hv, rfl⟩ :=
      foldMap_spec happly h.2 (fun e he => by simp at he)
    exact h.fold ho hat hspan hdepth hv

/-- It replaces its whole span, from `if` to the end of the else-branch, by
the branch it keeps, alone or in new parentheses. -/
theorem conditional_bracketed {ws ws' : List Token} {pos : Nat} (h : Bracketed ws)
    (hfits : Library.fits conditional.template ws pos = true)
    (happly : conditional.apply ws pos = some ws') : Bracketed ws' := by
  obtain ⟨hroom, hhead⟩ :=
    Library.balanced_slice_of_fits (template_no_symbol_var _) (by decide) hfits
  simp only [apply] at happly
  obtain ⟨bs, -, happly⟩ := Option.bind_eq_some_iff.1 happly
  obtain ⟨elseAt, helse, happly⟩ := Option.bind_eq_some_iff.1 happly
  -- from `pos` on: the template, the then-branch, `else`, the else-branch, and the rest
  obtain ⟨m₁, r₁, hd₁, hdepth₁, rfl⟩ := findElse_spec helse
  have hS := drop_eq_slice_append ws (Nat.le_add_right pos 3)
  have hr₁ : ws.drop (pos + 3 + m₁.length + 1) = r₁ := by
    have := @drop_add_of_drop_eq ws (m₁ ++ [.sym "else"]) r₁ (pos + 3) (by simpa using hd₁)
    simpa [Nat.add_assoc] using this
  have hroom₁ : pos + 3 + m₁.length + 1 ≤ ws.length := by
    have := congrArg List.length hd₁
    simp at this
    omega
  obtain ⟨m₂, r₂, e, hd₂, hdepth₂, hend, hstop⟩ := branchEnd_spec ws 0 0 hroom₁
  rw [hr₁] at hd₂
  have hdrop : ws.drop pos = (slice ws pos (pos + 3) ++ m₁ ++ [.sym "else"] ++ m₂) ++ r₂ := by
    rw [hS, hd₁, hd₂]
    simp
  have hspan : depthAfter 0 (slice ws pos (pos + 3) ++ m₁ ++ [.sym "else"] ++ m₂) = some e := by
    have hhead' : depthAfter 0 (slice ws pos (pos + 3)) = some 0 := hhead
    simp only [depthAfter_append, hhead', Option.bind_some, hdepth₁,
      depthAfter_cons_of_not_bracket isBracket_sym_else, depthAfter_nil, hdepth₂]
  -- the else-branch is balanced: it ends at a closer or separator outside its brackets, or at
  -- the end of the workspace, which the brackets before it must then close
  have he : e = 0 := by
    cases r₂ with
    | nil =>
      have hw := h.1
      rw [← List.take_append_drop pos ws, hdrop, List.append_nil] at hw
      exact hw.depthAfter_suffix hspan
    | cons => exact hend (List.cons_ne_nil _ _)
  subst he
  have hB := h
  rw [← List.take_append_drop pos ws, hdrop] at hB
  have hB₁ : Bracketed m₁ :=
    @Bracketed.mid (ws.take pos ++ slice ws pos (pos + 3)) m₁ (.sym "else" :: m₂ ++ r₂)
      (by simpa using hB) hdepth₁
  have hB₂ : Bracketed m₂ :=
    @Bracketed.mid (ws.take pos ++ slice ws pos (pos + 3) ++ m₁ ++ [.sym "else"]) m₂ r₂
      (by simpa using hB) hdepth₂
  -- the chosen branch goes over the whole span
  have hrest : ws.drop (branchEnd ws (pos + 3 + m₁.length + 1) 0 0) = r₂ := by
    have := drop_add_of_drop_eq hdrop
    have hlen : (slice ws pos (pos + 3)).length = 3 := by
      simp only [slice, List.length_take, List.length_drop]
      omega
    rw [hstop]
    simp only [List.length_append, hlen, List.length_singleton] at this
    rwa [show pos + (3 + m₁.length + 1 + m₂.length) = pos + 3 + m₁.length + 1 + m₂.length by omega]
      at this
  have hrewrite : ∀ xs, Bracketed xs →
      Bracketed (splice ws pos (branchEnd ws (pos + 3 + m₁.length + 1) 0 0) xs) := by
    intro xs hxs
    rw [splice, hrest]
    exact h.rewrite hdrop hspan hxs
  have hslice₁ : slice ws (pos + 3) (pos + 3 + m₁.length) = m₁ := by
    simp [slice, hd₁]
  have hslice₂ : slice ws (pos + 3 + m₁.length + 1) (branchEnd ws (pos + 3 + m₁.length + 1) 0 0) =
      m₂ := by
    rw [hstop]
    simp [slice, hr₁, hd₂]
  split at happly
  · -- `true`: the then-branch
    simp only [Option.bind_eq_bind, Option.bind_some, hslice₁] at happly
    split at happly
    · simp at happly
    · rw [← Option.some.inj happly]
      exact hrewrite _ hB₁
    · rw [← Option.some.inj happly]
      exact hrewrite _ hB₁.parenthesized
  · -- `false`: the else-branch
    simp only [Option.bind_eq_bind, Option.bind_some, hslice₂] at happly
    split at happly
    · simp at happly
    · rw [← Option.some.inj happly]
      exact hrewrite _ hB₂
    · rw [← Option.some.inj happly]
      exact hrewrite _ hB₂.parenthesized
  · simp at happly

theorem template_noSymbolVars (b : Builtin) : ∀ p ∈ b.template, p.noSymbolVars = true := by
  cases b with
  | binary op => cases op <;> simp [template, Token.noSymbolVars, Operator.operandKind]
  | _ => simp [template, anyVar, Token.noSymbolVars]

/-- Every built-in rule keeps a workspace bracketed where its template has the shape of the
workspace, as the candidate screen asks. -/
theorem apply_bracketed {b : Builtin} (hb : b.Plain) {ws ws' : List Token} {pos : Nat}
    (h : Bracketed ws) (hfits : Library.fits b.template ws pos = true)
    (happly : b.apply ws pos = some ws') : Bracketed ws' := by
  match b, hb, hfits, happly with
  | .parens, hb, hfits, happly =>
    simp only [apply] at happly
    obtain ⟨bs, hbs, happly⟩ := Option.bind_eq_some_iff.1 happly
    obtain ⟨x, hx, happly⟩ := Option.bind_eq_some_iff.1 happly
    rw [← Option.some.inj happly]
    exact bracketed_splice_template hb (by simp) (by simp) h hfits
      ((Template.inert_of_firstMatch (template_noSymbolVars _) h.2 hbs).lookup hx)
  | .listFold, _, hfits, happly =>
    exact listFold_bracketed h ((Library.fits_sym_iff _ _ _).1 hfits) happly
  | .mapFold, _, hfits, happly =>
    exact mapFold_bracketed h ((Library.fits_sym_iff _ _ _).1 hfits) happly
  | .alias words target, hb, hfits, happly =>
    simp only [apply] at happly
    obtain ⟨bs, -, happly⟩ := Option.bind_eq_some_iff.1 happly
    rw [← Option.some.inj happly]
    have := bracketed_splice_template hb (by simp) (by simp) h hfits
      (show (Token.sym target).Inert from ⟨hb.2 target List.mem_cons_self, rfl⟩)
    rwa [template, List.length_map] at this
  | .negate, hb, hfits, happly | .logicalNot, hb, hfits, happly =>
    simp only [apply] at happly
    obtain ⟨bs, -, happly⟩ := Option.bind_eq_some_iff.1 happly
    split at happly
    · simp at happly
    · obtain ⟨x, -, happly⟩ := Option.bind_eq_some_iff.1 happly
      split at happly
      · rw [← Option.some.inj happly]
        exact bracketed_splice_template hb (by simp) (by simp) h hfits (inert_num _)
      · rw [← Option.some.inj happly]
        exact bracketed_splice_template hb (by simp) (by simp) h hfits (inert_bool _)
      · simp at happly
  | .binary op, hb, hfits, happly =>
    simp only [apply] at happly
    obtain ⟨bs, -, happly⟩ := Option.bind_eq_some_iff.1 happly
    -- past the check that a peer operator claims an operand first
    obtain ⟨-, happly⟩ := (ite_eq_iff.1 happly).resolve_left fun h => by simp at h
    obtain ⟨a, -, happly⟩ := Option.bind_eq_some_iff.1 happly
    obtain ⟨c, -, happly⟩ := Option.bind_eq_some_iff.1 happly
    obtain ⟨r, hr, happly⟩ := Option.bind_eq_some_iff.1 happly
    rw [← Option.some.inj happly]
    exact bracketed_splice_template hb (by simp) (by simp) h hfits (Operator.eval_inert hr)
  | .conditional, _, hfits, happly => exact conditional_bracketed h hfits happly
  | .lookup, hb, hfits, happly =>
    simp only [apply] at happly
    obtain ⟨bs, hbs, happly⟩ := Option.bind_eq_some_iff.1 happly
    split at happly
    · rename_i es k hm hk
      obtain ⟨v, hv, happly⟩ := Option.bind_eq_some_iff.1 happly
      rw [← Option.some.inj happly]
      exact bracketed_splice_template hb (by simp) (by simp) h hfits
        (inert_of_get? ((Template.inert_of_firstMatch (template_noSymbolVars _) h.2 hbs).lookup hm) hv)
    · simp at happly

theorem plain_of_mem_rules {r : Rule} (hr : r ∈ rules) : ∃ b : Builtin, r = b.rule ∧ b.Plain := by
  obtain ⟨b, hb, rfl⟩ := List.mem_map.1 hr
  refine ⟨b, rfl, ?_⟩
  simp only [List.mem_cons, List.not_mem_nil, or_false] at hb
  rcases hb with rfl | rfl | rfl | rfl | rfl | rfl | rfl | rfl | rfl | rfl | rfl | rfl | rfl |
    rfl | rfl | rfl | rfl | rfl | rfl | rfl | rfl | rfl | rfl | rfl | rfl | rfl | rfl | rfl | rfl
  all_goals simp [Plain, Token.isBracket, opens, closes, Token.isSym]

end Builtin

end Reckon

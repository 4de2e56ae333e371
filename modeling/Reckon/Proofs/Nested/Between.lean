import Reckon.Proofs.Nested.Scan
import Reckon.Proofs.Rule.Conditional

/-!
# Parts that keep to themselves

A part of a list or a map is reduced in place, between the bracket or separator before it and the
separator or bracket after it. It is reduced there as it is reduced alone when no rule reaches
out of it: neither the rules that look at the token before a span, nor the rules whose template
could run on past its end, nor the conditional, whose scans for its `else` and for the end of its
else-branch run on until a closer or a separator stops them.

The user rules that may stand in a library around such parts are compiled rewrite rules with at
least two tokens and no comma or colon (`Rule.ListSafe`): the reader of a pattern folds brackets,
braces and `...` into list and map patterns, so no other symbol of lists and maps is left in a
template (`Rule.compile_clear`). A part is sealed when its brackets nest, no separator or closer
stands in it outside them, and the else-branch of each of its conditionals ends where a comma
after the part would end it (`Tokens.Sealed`).

Main statement: with a bracket and values and separators before a sealed part and a separator or
closer after it, a pass fires what it fires in the part alone, moved into place
(`Library.firing?_between`).
-/

namespace Reckon

namespace Compiler

/-- The symbols the reader folds into list and map patterns: none of them is left in a
template. -/
def folded : List String := ["[", "]", "\x7b", "\x7d", "..."]

/-- A template token that is none of the folded symbols. -/
def Unfolded (t : Token) : Prop := ∀ s ∈ folded, t.isSym s = false

theorem unfolded_of_kind {t : Token} (h : t.kind ≠ .symbol) : Unfolded t := by
  intro s _
  cases t <;> simp_all [Token.isSym, Token.kind]

theorem unfolded_of_fitsKind {t : Token} {k : Kind} (h : fitsKind t k = true) (hk : k ≠ .symbol) :
    Unfolded t := by
  refine unfolded_of_kind fun hsym => ?_
  simp [fitsKind, hsym] at h
  exact hk h.symm

theorem unfolded_list (xs : List Token) : Unfolded (.list xs) :=
  unfolded_of_kind (by simp [Token.kind])

theorem unfolded_map (es : List (Token × Token)) : Unfolded (.map es) :=
  unfolded_of_kind (by simp [Token.kind])

theorem unfolded_foldr_listCap (items : List Token) {tail : Token} (htail : Unfolded tail) :
    Unfolded (items.foldr (fun h acc => .listCap h acc) tail) := by
  cases items with
  | nil => exact htail
  | cons => exact unfolded_of_kind (by simp [Token.kind])

theorem unfolded_finishMap (es : List (Token × Token)) {rest : Token} (hrest : Unfolded rest) :
    Unfolded (finishMap es rest) := by
  unfold finishMap
  dsimp only
  split
  · exact unfolded_of_kind (by simp [Token.kind])
  · cases es with
    | nil => exact hrest
    | cons => exact unfolded_of_kind (by simp [Token.kind])

/-- What an open bracket keeps that may reach the template as it is: its tail or its rest. -/
def Frame.Clear : Frame → Prop
  | .list _ (.afterTail t) | .map _ (.afterRest t) => Unfolded t
  | _ => True

/-- The invariant of reading a pattern: no folded symbol in the template so far, nor in a tail
or rest still open. -/
structure Reading.Clear (r : Reading) : Prop where
  out : ∀ t ∈ r.out, Unfolded t
  stack : ∀ f ∈ r.stack, f.Clear

theorem Reading.Clear.push {r : Reading} (hr : r.Clear) {f : Frame} (hf : f.Clear)
    {fs : List Frame} (hfs : ∀ g ∈ fs, g.Clear) : ({ r with stack := f :: fs } : Reading).Clear :=
  ⟨hr.out, List.forall_mem_cons.2 ⟨hf, hfs⟩⟩

theorem deliver_clear {i : Token} {r r' : Reading} (hr : r.Clear) (hi : Unfolded i)
    (h : deliver i r = .ok r') : r'.Clear := by
  unfold deliver at h
  split at h
  · cases h
    exact ⟨List.forall_mem_append.2 ⟨hr.out, List.forall_mem_singleton.2 hi⟩, hr.stack⟩
  · rename_i f fs hst
    have hfs : ∀ g ∈ fs, g.Clear := fun g hg => hr.stack g (by simp [hst, hg])
    split at h <;> (try split at h) <;> first
      | (cases h; exact hr)
      | (cases h; refine hr.push ?_ hfs; first | exact hi | trivial)
      | (simp only [reduceCtorEq] at h)

theorem openItem_clear {t : Token} {r r' : Reading} (hr : r.Clear) (h : openItem t r = .ok r') :
    r'.Clear := by
  unfold openItem at h
  split at h
  · cases h
    exact hr.push (by trivial) hr.stack
  · split at h
    · cases h
      exact hr.push (by trivial) hr.stack
    · dsimp only at h
      split at h
      · rename_i hitem
        refine deliver_clear hr (unfolded_of_kind fun hsym => ?_) h
        simp [Token.isPlaceholder, Token.isValue, hsym] at hitem
      · simp at h

theorem unfolded_placeholder {t : Token} (h : ∀ s ∈ folded, t.isSym s = false) :
    Unfolded (placeholder t) := by
  unfold placeholder
  split
  · split
    · exact unfolded_of_kind (by simp [Token.kind])
    · exact h
  · exact h

/-- Reading one token keeps the invariant. -/
theorem step_clear {r r' : Reading} {t : Token} (hr : r.Clear) (h : step r t = .ok r') :
    r'.Clear := by
  unfold step at h
  split at h
  · -- outside brackets a parenthesis joins the template as it is, and any other token but a
    -- bracket or `...` as a placeholder or itself
    split at h
    · exact openItem_clear hr h
    · have hsym : ∀ s, t.isSym s = true → s ∉ folded → ∀ u ∈ folded, t.isSym u = false := by
        intro s hs hnot u hu
        rw [Token.isSym_eq_true.1 hs]
        simp only [Token.isSym, beq_eq_false_iff_ne]
        rintro rfl
        exact hnot hu
      split at h
      · cases h
        exact ⟨List.forall_mem_append.2 ⟨hr.out, List.forall_mem_singleton.2
          (hsym "(" (by assumption) (by decide))⟩, hr.stack⟩
      · split at h
        · split at h
          · simp at h
          · cases h
            exact ⟨List.forall_mem_append.2 ⟨hr.out, List.forall_mem_singleton.2
              (hsym ")" (by assumption) (by decide))⟩, hr.stack⟩
        · split at h
          · simp at h
          · split at h
            · simp at h
            · rename_i hbr _ _ hclose hdots
              cases h
              refine ⟨List.forall_mem_append.2 ⟨hr.out, List.forall_mem_singleton.2
                (unfolded_placeholder ?_)⟩, hr.stack⟩
              simp only [Bool.or_eq_true, not_or, Bool.not_eq_true] at hbr hclose hdots
              simp [folded, hbr, hclose, hdots]
  · rename_i f fs hst
    have hf : f.Clear := hr.stack f (by simp [hst])
    have hclosed : ({ r with stack := fs } : Reading).Clear :=
      ⟨hr.out, fun g hg => hr.stack g (by simp [hst, hg])⟩
    -- a closing bracket hands over what the frame built; anything else opens an item or moves
    -- the frame on
    split at h <;> (repeat' split at h) <;> first
      | exact openItem_clear hr h
      | exact deliver_clear hclosed (unfolded_foldr_listCap _ hf) h
      | exact deliver_clear hclosed (unfolded_finishMap _ hf) h
      | exact deliver_clear hclosed (unfolded_finishMap _ (unfolded_map [])) h
      | exact deliver_clear hclosed (unfolded_list _) h
      | exact deliver_clear hclosed (unfolded_map _) h
      | (cases h; refine hclosed.push ?_ hclosed.stack; trivial)
      | (simp only [reduceCtorEq] at h)

/-- Reading a pattern keeps the invariant. -/
theorem foldlM_step_clear (pat : List Token) {r r' : Reading} (hr : r.Clear)
    (h : pat.foldlM step r = .ok r') : r'.Clear := by
  induction pat generalizing r with
  | nil =>
    cases h
    exact hr
  | cons t pat ih =>
    rw [List.foldlM_cons] at h
    cases hstep : step r t with
    | error e => simp only [hstep, bind, Except.bind, reduceCtorEq] at h
    | ok r₁ =>
      rw [hstep] at h
      exact ih (step_clear hr hstep) h

theorem template_clear {pat tmpl : List Token} (h : template pat = .ok tmpl) :
    ∀ t ∈ tmpl, Unfolded t := by
  unfold template at h
  cases hfold : pat.foldlM step ⟨[], 0, []⟩ with
  | error e => simp only [hfold, bind, Except.bind, reduceCtorEq] at h
  | ok r =>
    have hr := foldlM_step_clear pat ⟨by simp, by simp⟩ hfold
    rw [hfold] at h
    simp only [bind, Except.bind] at h
    split at h
    · simp at h
    · split at h
      · cases h
        exact hr.out
      · simp at h

end Compiler

namespace Rule

theorem compile_clear {pat repl : List Token} {r : Rule} (h : compile pat repl = .ok r) :
    (∀ t ∈ r.template, Compiler.Unfolded t) ∧ r.subordinateTo = [] ∧
      ∃ body, r.action = .rewrite body := by
  unfold compile at h
  split at h
  · simp at h
  split at h
  · simp at h
  split at h
  · simp at h
  · rename_i tmpl htmpl
    split at h
    · simp at h
    · split at h
      · simp at h
      · rename_i body _
        cases h
        exact ⟨Compiler.template_clear htmpl, rfl, body, rfl⟩

/-- A user rule that can run inside a part of a list or a map: a rewrite rule subordinate to no
operator, whose template has at least two tokens and no symbol of the bracket language. -/
structure ListSafe (r : Rule) : Prop where
  rewrite : ∃ body, r.action = .rewrite body
  free : r.subordinateTo = []
  long : 2 ≤ r.template.length
  noStructure : ∀ t ∈ r.template, t.isStructure = false

theorem listSafe_of_compile {pat repl : List Token} {r : Rule} (h : compile pat repl = .ok r)
    (hlong : 2 ≤ r.template.length) (hcomma : Token.sym "," ∉ r.template)
    (hcolon : Token.sym ":" ∉ r.template) : r.ListSafe := by
  obtain ⟨hclear, hfree, hrewrite⟩ := compile_clear h
  refine ⟨hrewrite, hfree, hlong, fun t ht => ?_⟩
  cases t with
  | sym s =>
    have hs := hclear _ ht
    simp only [Compiler.Unfolded, Compiler.folded, List.mem_cons, List.not_mem_nil, or_false,
      forall_eq_or_imp, forall_eq, Token.isSym, beq_eq_false_iff_ne] at hs
    have hsep : s ≠ "," ∧ s ≠ ":" := ⟨fun h => hcomma (h ▸ ht), fun h => hcolon (h ▸ ht)⟩
    simp [Token.isStructure, hs.1, hs.2.1, hs.2.2.1, hs.2.2.2.1, hs.2.2.2.2, hsep.1, hsep.2]
  | _ => rfl

end Rule

namespace Builtin

open Tokens

theorem findElse_append_of_eq_some {ws : List Token} {i depth nested k : Nat}
    (h : findElse ws i depth nested = some k) (post : List Token) :
    findElse (ws ++ post) i depth nested = some k := by
  fun_induction findElse ws i depth nested with
  | case2 | case9 => cases h
  | case6 i depth nested hlt t hop hcl hdepth hif helse hnested =>
    rw [findElse, dif_pos (by simp; omega)]
    simp only [List.getElem_append_left hlt]
    rw [if_neg hop, if_neg hcl, if_neg hdepth, if_neg hif, if_pos helse, if_pos hnested]
    exact h
  | case1 i depth nested hlt t hop ih | case3 i depth nested hlt t hop _ _ ih
  | case4 i depth nested hlt t hop _ _ ih | case5 i depth nested hlt t hop _ _ _ ih
  | case7 i depth nested hlt t hop _ _ _ _ _ ih | case8 i depth nested hlt t hop _ _ _ _ ih =>
    rw [findElse, dif_pos (by simp; omega)]
    simp_all [t, List.getElem_append_left hlt]


theorem depth_zero_of_branchEnd_comma {ws : List Token} {depth nested : Nat}
    (h : branchEnd (ws ++ [.sym ","]) ws.length depth nested = ws.length) :
    depth = 0 ∧ nested = 0 := by
  simp [branchEnd, opens, closes, Token.isSym] at h
  split_ifs at h <;> omega

theorem endsBranch_closer {c : String} (hc : c ∈ Nested.closers) :
    endsBranch (some (.sym c)) = true := by
  simp only [Nested.closers, List.mem_cons, List.not_mem_nil, or_false] at hc
  rcases hc with rfl | rfl | rfl | rfl | rfl <;> decide

theorem branchEnd_append_closer {ws : List Token} {i depth nested : Nat} (hi : i ≤ ws.length)
    (h : branchEnd (ws ++ [.sym ","]) i depth nested = branchEnd ws i depth nested)
    {c : String} (hc : c ∈ Nested.closers) (rest : List Token) :
    branchEnd (ws ++ .sym c :: rest) i depth nested = branchEnd ws i depth nested := by
  revert h
  fun_induction branchEnd ws i depth nested with
  | case9 i depth nested hge =>
    intro h
    obtain rfl : i = ws.length := by omega
    obtain ⟨rfl, rfl⟩ := depth_zero_of_branchEnd_comma h
    exact branchEnd_stop (by simpa using endsBranch_closer hc) (by simp)
  | case2 i depth nested hlt t | case7 i depth nested hlt t =>
    intro h
    rw [branchEnd, dif_pos (by simp; omega)]
    simp_all [t, List.getElem_append_left hlt]
  | case1 i depth nested hlt t hop ih | case3 i depth nested hlt t hop _ _ ih
  | case4 i depth nested hlt t hop _ _ ih | case5 i depth nested hlt t hop _ _ _ ih
  | case6 i depth nested hlt t hop _ _ _ _ ih =>
    intro h
    rw [branchEnd, dif_pos (by simp; omega)] at h ⊢
    simp_all [t, List.getElem_append_left, Nat.add_one_le_iff]
  | case8 i depth nested hlt t hop hcl hdepth hif helse hsep ih =>
    -- a plain token: both scans move on, whatever follows the workspace
    have hstep : ∀ post, branchEnd (ws ++ post) i depth nested =
        branchEnd (ws ++ post) (i + 1) depth nested := fun post => by
      rw [branchEnd, dif_pos (by simp; omega)]
      simp only [List.getElem_append_left hlt]
      rw [if_neg hop, if_neg hcl, if_neg hdepth, if_neg hif, if_neg helse, if_neg hsep]
    intro h
    rw [hstep] at h ⊢
    exact ih hlt h

end Builtin

namespace Tokens

open Builtin

/-- A part that reaches past no separator or closer after it: its brackets nest, no separator or
closer stands in it outside its brackets, and every conditional in it finds its `else` in it and
ends its else-branch where a comma after it would end it. -/
structure Sealed (w : List Token) : Prop where
  bracketed : WellBracketed w
  enclosed : ∀ q < w.length, ∀ s ∈ Nested.closers, w[q]?.any (·.isSym s) = true →
    depthAfter 0 (w.take q) ≠ some 0
  closed : ∀ q < w.length, w[q]?.any (·.isSym "if") = true →
    (findElse w (q + 1) 0 0).any fun k =>
      branchEnd (w ++ [.sym ","]) (k + 1) 0 0 == branchEnd w (k + 1) 0 0

instance : DecidablePred Sealed := fun w =>
  decidable_of_iff (WellBracketed w ∧
      (∀ q < w.length, ∀ s ∈ Nested.closers, w[q]?.any (·.isSym s) = true →
        depthAfter 0 (w.take q) ≠ some 0) ∧
      ∀ q < w.length, w[q]?.any (·.isSym "if") = true →
        (findElse w (q + 1) 0 0).any fun k =>
          branchEnd (w ++ [.sym ","]) (k + 1) 0 0 == branchEnd w (k + 1) 0 0)
    ⟨fun ⟨h1, h2, h3⟩ => ⟨h1, h2, h3⟩, fun ⟨h1, h2, h3⟩ => ⟨h1, h2, h3⟩⟩

theorem Sealed.head {x : Token} {ws : List Token} (hw : Sealed (x :: ws)) :
    ∀ s ∈ Nested.closers, x.isSym s = false := by
  intro s hs
  by_contra hx
  exact hw.enclosed 0 (by simp) s hs (by simpa using hx) rfl

theorem Sealed.second {x y : Token} {ws : List Token} (hw : Sealed (x :: y :: ws))
    (hx : x.isValue = true) : ∀ s ∈ Nested.closers, y.isSym s = false := by
  intro s hs
  by_contra hy
  refine hw.enclosed 1 (by simp) s hs (by simpa using hy) ?_
  simp [depthAfter_cons, depthStep_of_not_bracket (Token.isBracket_of_isValue hx)]

/-- The conditional of a sealed part reads nothing past it: where its template fits, its
scans find the same `else` and the same end of the else-branch with a separator or a closer and
more tokens after the part. -/
theorem Sealed.scans {w : List Token} (hw : Sealed w) {pos : Nat}
    (hfits : Library.fits conditional.template w pos = true) {c : String}
    (hc : c ∈ Nested.closers) (rest : List Token) :
    findElse (w ++ .sym c :: rest) (pos + 3) 0 0 = findElse w (pos + 3) 0 0 ∧
      ∀ k, findElse w (pos + 3) 0 0 = some k →
        branchEnd (w ++ .sym c :: rest) (k + 1) 0 0 = branchEnd w (k + 1) 0 0 := by
  have hlen : conditional.template.length + pos ≤ w.length := by
    simp only [Library.fits, Bool.and_eq_true, decide_eq_true_eq] at hfits
    exact hfits.1
  simp only [template, List.length_cons, List.length_nil] at hlen
  rw [Library.fits_drop _ _ (by omega)] at hfits
  -- the template lies over `if`, a boolean and `then`
  obtain ⟨b, more, hdrop⟩ : ∃ b more, w.drop pos = .sym "if" :: .bool b :: .sym "then" :: more := by
    rcases hd : w.drop pos with _ | ⟨t0, _ | ⟨t1, _ | ⟨t2, more⟩⟩⟩
    all_goals rw [hd] at hfits
    · simp [template] at hfits
    · simp [template] at hfits
    · simp [template] at hfits
    · simp only [template, Library.fits_cons_cons, Library.fitsToken_sym, Bool.and_eq_true,
        Library.fitsToken_var "C" (show Kind.bool ≠ .symbol by decide)] at hfits
      obtain ⟨h0, h1, h2, -⟩ := hfits
      obtain rfl := Token.isSym_eq_true.1 h0
      obtain rfl := Token.isSym_eq_true.1 h2
      cases t1 with
      | bool b => exact ⟨b, more, rfl⟩
      | _ => simp [Token.accepts, Token.kind] at h1
  have hif : w[pos]?.any (·.isSym "if") = true := by
    rw [← List.head?_drop, hdrop]
    simp [Token.isSym]
  obtain ⟨k, hk, hend⟩ := (Option.any_eq_true _ _).1 (hw.closed pos (by omega) hif)
  -- the scan for the `else` moves past the boolean and `then` as it is
  have hskip : findElse w (pos + 1) 0 0 = findElse w (pos + 3) 0 0 := by
    have hd1 : w.drop (pos + 1) = .bool b :: .sym "then" :: more := by
      rw [← List.drop_drop, hdrop]
      rfl
    have hd2 : w.drop (pos + 1 + 1) = .sym "then" :: more := by
      rw [← List.drop_drop, hd1]
      rfl
    rw [findElse_other hd1 rfl rfl rfl, findElse_other hd2 (by decide) (by decide) (by decide)]
  rw [hskip] at hk
  have hlt : k < w.length := (findElse_spec hk).lt_length
  refine ⟨by rw [hk, findElse_append_of_eq_some hk], fun k' hk' => ?_⟩
  obtain rfl : k' = k := Option.some.inj (hk'.symm.trans hk)
  exact branchEnd_append_closer (by omega) (by simpa using hend) hc rest

theorem Sealed.start {w : List Token} (hw : Sealed w) (hne : w ≠ [])
    (hsingle : ∀ v, w = [v] → v.isValue = false) :
    ∃ x ys, w = x :: ys ∧ (∀ s ∈ Nested.closers, x.isSym s = false) ∧
      (x.isValue = false ∨ ∃ y zs, ys = y :: zs ∧ ∀ s ∈ Nested.closers, y.isSym s = false) := by
  obtain ⟨x, ys, rfl⟩ := List.exists_cons_of_ne_nil hne
  refine ⟨x, ys, rfl, hw.head, ?_⟩
  cases hx : x.isValue
  · exact .inl rfl
  · rcases ys with _ | ⟨y, zs⟩
    · exact absurd (hsingle x rfl) (by simp [hx])
    · exact .inr ⟨y, zs, rfl, hw.second hx⟩

end Tokens

namespace Builtin

open Tokens

theorem foldList_stall_part {ws w post : List Token} {start i : Nat} {items : List Token}
    (hdrop : ws.drop i = w ++ post) (hw : Sealed w) (hne : w ≠ [])
    (hsingle : ∀ v, w = [v] → v.isValue = false) : foldList ws start i items = none := by
  obtain ⟨x, ys, rfl, -, hx | ⟨y, zs, rfl, hy⟩⟩ := hw.start hne hsingle
  · exact foldList_stall_item hdrop hx
  · -- a value goes on with a token that neither separates nor closes
    have hlen : i + 1 < ws.length := by
      have := le_length_of_drop [x, y] (by simp) (by simpa using hdrop)
      simp at this
      omega
    rw [foldList, if_pos hlen, hdrop]
    simp [hy "," (by decide), hy "]" (by decide), hy "..." (by decide)]

theorem foldList_stall_tail_part {ws w post : List Token} {start i : Nat} {items : List Token}
    {u : Token} (hdrop : ws.drop i = u :: .sym "..." :: (w ++ post)) (hu : u.isValue = true)
    (hw : Sealed w) (hne : w ≠ []) (hsingle : ∀ v, w = [v] → v.isValue = false) :
    foldList ws start i items = none := by
  obtain ⟨x, ys, rfl, -, hx | ⟨y, zs, rfl, hy⟩⟩ := hw.start hne hsingle
  · exact foldList_stall_tail (by simpa using hdrop) hu fun ts h => by simp [h] at hx
  · have hlen : i + 1 < ws.length := by
      have := le_length_of_drop [u, .sym "..."] (by simp) (by simpa using hdrop)
      simp at this
      omega
    have hclose := hy "]" (by decide)
    simp only [Token.isSym] at hclose
    rw [foldList, if_pos hlen, hdrop]
    cases x <;> simp [hu, Token.isSym, hclose]

theorem foldMap_stall_key_part {ws w post : List Token} {start i : Nat}
    {entries : List (Token × Token)} (hdrop : ws.drop i = w ++ post) (hw : Sealed w)
    (hne : w ≠ []) (hsingle : ∀ v, w = [v] → v.isValue = false) :
    foldMap ws start i entries = none := by
  obtain ⟨x, ys, rfl, -, hx | ⟨y, zs, rfl, hy⟩⟩ := hw.start hne hsingle
  · exact foldMap_stall_key hdrop hx
  · -- the key goes on with no colon
    rw [foldMap]
    split
    · rw [List.cons_append, List.cons_append] at hdrop
      rw [hdrop]
      rcases zs ++ post with _ | ⟨_, _ | ⟨_, _⟩⟩ <;> simp [hy ":" (by decide)]
    · rfl

theorem foldMap_stall_value_part {ws w post : List Token} {start i : Nat}
    {entries : List (Token × Token)} {k : Token} (hdrop : ws.drop i = k :: .sym ":" :: (w ++ post))
    (hw : Sealed w) (hne : w ≠ []) (hsingle : ∀ v, w = [v] → v.isValue = false) :
    foldMap ws start i entries = none := by
  obtain ⟨x, ys, rfl, -, hx | ⟨y, zs, rfl, hy⟩⟩ := hw.start hne hsingle
  · exact foldMap_stall_value (by simpa using hdrop) hx
  · have hlen : i + 3 < ws.length := by
      have := le_length_of_drop [k, .sym ":", x, y] (by simp) (by simpa using hdrop)
      simp at this
      omega
    rw [foldMap, if_pos hlen, hdrop]
    simp [hy "," (by decide), hy "\x7d" (by decide), hy "..." (by decide)]

theorem foldMap_stall_rest_part {ws w post : List Token} {start i : Nat}
    {entries : List (Token × Token)} {k v : Token}
    (hdrop : ws.drop i = k :: .sym ":" :: v :: .sym "..." :: (w ++ post)) (hk : k.isValue = true)
    (hv : v.isValue = true) (hw : Sealed w) (hne : w ≠ [])
    (hsingle : ∀ v, w = [v] → v.isValue = false) : foldMap ws start i entries = none := by
  obtain ⟨x, ys, rfl, -, hx | ⟨y, zs, rfl, hy⟩⟩ := hw.start hne hsingle
  · exact foldMap_stall_rest (by simpa using hdrop) hk hv fun es h => by simp [h] at hx
  · have hlen : i + 3 < ws.length := by
      have := le_length_of_drop [k, .sym ":", v, .sym "..."] (by simp) (by simpa using hdrop)
      simp at this
      omega
    have hclose := hy "\x7d" (by decide)
    simp only [Token.isSym] at hclose
    rw [foldMap, if_pos hlen, hdrop]
    cases x <;> simp [hk, hv, Token.isSym, hclose]

end Builtin

namespace Tokens

open Builtin Library

theorem Sealed.head?_ne {w : List Token} (hw : Sealed w) (hne : w ≠ []) (post : List Token)
    {s : String} (hs : s ∈ ["]", "\x7d"]) : (w ++ post).head? ≠ some (.sym s) := by
  obtain ⟨x, ys, rfl⟩ := List.exists_cons_of_ne_nil hne
  have hcl : s ∈ Nested.closers := by
    simp only [List.mem_cons, List.not_mem_nil, or_false] at hs
    rcases hs with rfl | rfl <;> decide
  have hx := hw.head s hcl
  simp only [List.cons_append, List.head?_cons, ne_eq, Option.some.injEq]
  rintro rfl
  simp [Token.isSym] at hx

/-- The fold of an opening stops at a sealed part that is no single value: where the next
item, tail, key, value or remainder goes. -/
theorem Opening.folds_stall {pre : List Token} (hpre : Opening pre) {w : List Token}
    (hw : Sealed w) (hne : w ≠ []) (hsingle : ∀ v, w = [v] → v.isValue = false)
    (post : List Token) :
    attempt listFold.rule (pre ++ w ++ post) 0 = none ∧
      attempt mapFold.rule (pre ++ w ++ post) 0 = none := by
  cases hpre with
  | @item us hus =>
    refine ⟨?_, attempt_fold_eq_none mapFold_template (by simp)⟩
    rw [attempt_fold listFold_template rfl (by simp)]
    have hdrop : (.sym "[" :: listFrame us ++ w ++ post).drop (0 + 1) =
        listFrame us ++ (w ++ post) := by simp
    rw [listFold_apply_frame hdrop hus fun _ => hw.head?_ne hne post (by simp),
      foldList_stall_part (by rw [← length_listFrame]; exact drop_past hdrop) hw hne hsingle]
    rfl
  | @tail us u hus hu =>
    refine ⟨?_, attempt_fold_eq_none mapFold_template (by simp)⟩
    rw [attempt_fold listFold_template rfl (by simp)]
    have hdrop : (.sym "[" :: (listFrame us ++ [u, .sym "..."]) ++ w ++ post).drop (0 + 1) =
        listFrame us ++ u :: .sym "..." :: (w ++ post) := by simp
    rw [listFold_apply_frame hdrop hus fun _ => by simpa using value_ne_sym hu "]",
      foldList_stall_tail_part (by rw [← length_listFrame]; exact drop_past hdrop) hu hw hne
        hsingle]
    rfl
  | @key es hes =>
    refine ⟨attempt_fold_eq_none listFold_template (by simp), ?_⟩
    rw [attempt_fold mapFold_template rfl (by simp)]
    have hdrop : (.sym "\x7b" :: mapFrame es ++ w ++ post).drop (0 + 1) =
        mapFrame es ++ (w ++ post) := by simp
    rw [mapFold_apply_frame hdrop hes fun _ => hw.head?_ne hne post (by simp),
      foldMap_stall_key_part (by rw [← length_mapFrame]; exact drop_past hdrop) hw hne hsingle]
    rfl
  | @value es k hes hk =>
    refine ⟨attempt_fold_eq_none listFold_template (by simp), ?_⟩
    rw [attempt_fold mapFold_template rfl (by simp)]
    have hdrop : (.sym "\x7b" :: (mapFrame es ++ [k, .sym ":"]) ++ w ++ post).drop (0 + 1) =
        mapFrame es ++ k :: .sym ":" :: (w ++ post) := by simp
    rw [mapFold_apply_frame hdrop hes fun _ => by simpa using value_ne_sym hk "\x7d",
      foldMap_stall_value_part (by rw [← length_mapFrame]; exact drop_past hdrop) hw hne hsingle]
    rfl
  | @rest es k v hes hk hv =>
    refine ⟨attempt_fold_eq_none listFold_template (by simp), ?_⟩
    rw [attempt_fold mapFold_template rfl (by simp)]
    have hdrop : (.sym "\x7b" :: (mapFrame es ++ [k, .sym ":", v, .sym "..."]) ++ w ++
        post).drop (0 + 1) = mapFrame es ++ k :: .sym ":" :: v :: .sym "..." :: (w ++ post) := by
      simp
    rw [mapFold_apply_frame hdrop hes fun _ => by simpa using value_ne_sym hk "\x7d",
      foldMap_stall_rest_part (by rw [← length_mapFrame]; exact drop_past hdrop) hk hv hw hne
        hsingle]
    rfl

theorem Opening.crossing {pre : List Token} (hpre : Opening pre) :
    ∃ o F, pre = .sym o :: F ∧ (o = "[" ∨ o = "\x7b") ∧ Nested.Crossing F := by
  have hsep : ∀ s ∈ [",", ":", "..."], s ∈ Nested.closers := by decide
  cases hpre with
  | item h => exact ⟨_, _, rfl, .inl rfl, Nested.crossing_listFrame h⟩
  | tail h hw =>
    exact ⟨_, _, rfl, .inl rfl, (Nested.crossing_listFrame h).append
      (.value hw (hsep _ (by simp)) .nil)⟩
  | key h => exact ⟨_, _, rfl, .inr rfl, Nested.crossing_mapFrame h⟩
  | value h hk =>
    exact ⟨_, _, rfl, .inr rfl, (Nested.crossing_mapFrame h).append
      (.value hk (hsep _ (by simp)) .nil)⟩
  | rest h hk hv =>
    exact ⟨_, _, rfl, .inr rfl, (Nested.crossing_mapFrame h).append
      (.value hk (hsep _ (by simp)) (.value hv (hsep _ (by simp)) .nil))⟩

theorem Opening.getLast?_mem {pre : List Token} (hpre : Opening pre) :
    ∀ x ∈ pre.getLast?, x ∈ Builtin.leaders := by
  intro x hx
  cases hpre with
  | @item us _ =>
    rcases List.eq_nil_or_concat us with rfl | ⟨init, u, rfl⟩
    · simp only [listFrame_nil, List.getLast?_singleton, Option.mem_def,
        Option.some.injEq] at hx
      simp [← hx, Builtin.leaders]
    · rw [List.concat_eq_append, listFrame_append_singleton] at hx
      simp only [List.getLast?_cons, List.getLast?_append, Option.some_or, Option.getD_some,
        Option.mem_def, Option.some.injEq] at hx
      simp [← hx, Builtin.leaders]
  | @key es _ =>
    rcases List.eq_nil_or_concat es with rfl | ⟨init, e, rfl⟩
    · simp only [mapFrame_nil, List.getLast?_singleton, Option.mem_def, Option.some.injEq] at hx
      simp [← hx, Builtin.leaders]
    · rw [List.concat_eq_append, mapFrame_append_singleton] at hx
      simp only [List.getLast?_cons, List.getLast?_append, Option.some_or, Option.getD_some,
        Option.mem_def, Option.some.injEq] at hx
      simp [← hx, Builtin.leaders]
  | tail | value | rest =>
    simp only [List.getLast?_cons, List.getLast?_append, Option.some_or, Option.getD_some,
      Option.mem_def, Option.some.injEq] at hx
    simp [← hx, Builtin.leaders]

end Tokens

namespace Firing

/-- The firing as seen in the workspace with the tokens `pre` before it and `post` after it. -/
def within (pre post : List Token) : Firing → Firing
  | .rewritten r pos ws => .rewritten r (pre.length + pos) (pre ++ ws ++ post)
  | .entered r pos body => .entered r (pre.length + pos) body

@[simp] theorem within_nil : Firing.within [] [] = id :=
  funext fun f => by cases f <;> simp [within]

theorem shift_within (x : Token) (pre post : List Token) (f : Firing) :
    (f.within pre post).shift x = f.within (x :: pre) post := by
  cases f <;> simp [within, shift, Nat.add_right_comm]

theorem within_extend (pre post : List Token) (f : Firing) :
    (f.extend post).within pre [] = f.within pre post := by
  cases f <;> simp [within, extend]

end Firing

namespace Rule

/-- A rule that keeps apart from the separators and closers of lists and maps: its template is
not empty, holds none of them, and is a symbol when it is one token long. -/
structure Apart (r : Rule) : Prop where
  nonempty : 0 < r.template.length
  closers : ∀ p ∈ r.template, ∀ s ∈ Nested.closers, p.isSym s = false
  single : r.template.length = 1 → ∀ p ∈ r.template, p.kind = .symbol

theorem ListSafe.apart {r : Rule} (h : r.ListSafe) : r.Apart where
  nonempty := by have := h.long; omega
  closers p hp s hs := by
    have hst := h.noStructure p hp
    cases p with
    | sym x =>
      simp only [Nested.closers, List.mem_cons, List.not_mem_nil, or_false] at hs
      simp only [Token.isStructure, List.contains_eq_mem, decide_eq_false_iff_not] at hst
      simp only [Token.isSym, beq_eq_false_iff_ne]
      rintro rfl
      rcases hs with rfl | rfl | rfl | rfl | rfl <;> simp at hst
    | _ => rfl
  single hlen := by have := h.long; omega

end Rule

namespace Builtin

theorem apart_of_mem_rules : ∀ r ∈ rules, r.Apart := by
  have hne : ∀ r ∈ rules, 0 < r.template.length := by decide
  have hcl : ∀ r ∈ rules, ∀ p ∈ r.template, ∀ s ∈ Nested.closers, p.isSym s = false := by decide
  have hsg : ∀ r ∈ rules, r.template.length = 1 → ∀ p ∈ r.template, p.kind = .symbol := by decide
  exact fun r hr => ⟨hne r hr, hcl r hr, hsg r hr⟩

theorem blocks_closers (b : Builtin) :
    ∀ c ∈ Nested.closers, Library.blocks b.subordinateTo (some (.sym c)) = false := by
  cases b with
  | binary op => cases op <;> decide
  | negate => decide
  | _ => simp [subordinateTo]

theorem peers_closers (op : Operator) : ∀ c ∈ Nested.closers, c ∉ op.peers := by
  cases op <;> decide

end Builtin

namespace Library

theorem apart_of_mem {us : List Rule} (hus : ∀ u ∈ us, u.ListSafe) {r : Rule}
    (hr : r ∈ Builtin.rules ++ us) : r.Apart := by
  rcases List.mem_append.1 hr with hr | hr
  exacts [Builtin.apart_of_mem_rules r hr, (hus r hr).apart]

theorem eq_of_fitsToken_sym {p : Token} {s : String} (h : fitsToken p (.sym s) = true) :
    p = .sym s := by
  cases p with
  | sym x =>
    simp at h
    simp [h]
  | var n c =>
    simp only [fitsToken, Segment.ofSubject, Segment.ofTemplate] at h
    split at h <;> simp at h
  | _ => simp [fitsToken, Segment.ofSubject, Segment.ofTemplate] at h

theorem attempt_eq_none_of_fits {r : Rule} (hne : 0 < r.template.length) {ws : List Token}
    {q : Nat} (h : fits r.template ws q = false) : attempt r ws q = none := by
  have hempty : r.template.isEmpty = false := by
    cases ht : r.template with
    | nil => simp [ht] at hne
    | cons => rfl
  simp [attempt, hempty, h]

theorem sym_mem_of_fits_append {tmpl A R : List Token} {c : String}
    (h : fits tmpl (A ++ .sym c :: R) 0 = true) (hlen : A.length < tmpl.length) :
    ∃ p ∈ tmpl, p.isSym c = true := by
  induction A generalizing tmpl with
  | nil =>
    obtain ⟨p, tmpl, rfl⟩ := List.exists_cons_of_length_pos hlen
    rw [List.nil_append, fits_cons_cons, Bool.and_eq_true] at h
    exact ⟨p, List.mem_cons_self, by simp [eq_of_fitsToken_sym h.1]⟩
  | cons a A ih =>
    have htl : 0 < tmpl.length := by
      simp only [List.length_cons] at hlen
      omega
    obtain ⟨p, tmpl, rfl⟩ := List.exists_cons_of_length_pos htl
    rw [List.cons_append, fits_cons_cons, Bool.and_eq_true] at h
    obtain ⟨p', hp', hc⟩ := ih h.2 (by simpa using hlen)
    exact ⟨p', List.mem_cons_of_mem _ hp', hc⟩

theorem fits_append_sym {tmpl : List Token} {c : String} (hc : ∀ p ∈ tmpl, p.isSym c = false)
    {ws : List Token} {pos : Nat} (hpos : pos ≤ ws.length) (rest : List Token) :
    fits tmpl (ws ++ .sym c :: rest) pos = fits tmpl ws pos := by
  by_cases hlen : tmpl.length + pos ≤ ws.length
  · exact fits_append_right _ _ _ _ hlen
  · have hfalse : fits tmpl ws pos = false := by simp [fits]; omega
    rw [hfalse, Bool.eq_false_iff]
    intro h
    rw [fits_drop _ _ (by simp; omega), List.drop_append_of_le_length hpos] at h
    obtain ⟨p, hp, hpc⟩ := sym_mem_of_fits_append h (by simp; omega)
    exact absurd hpc (by simp [hc p hp])

end Library

namespace Rule

open Library

theorem Apart.attempt_closer {r : Rule} (hr : r.Apart) {ws rest : List Token} {q : Nat}
    {s : String} (hq : ws.drop q = .sym s :: rest) (hs : s ∈ Nested.closers) :
    attempt r ws q = none := by
  refine attempt_eq_none_of_fits hr.nonempty (Bool.eq_false_iff.2 fun h => ?_)
  obtain ⟨p, tmpl, ht⟩ := List.exists_cons_of_length_pos hr.nonempty
  have hq' : q ≤ ws.length := by
    have := congrArg List.length hq
    simp at this
    omega
  rw [fits_drop _ _ hq', hq, ht, fits_cons_cons, Bool.and_eq_true] at h
  have hc := hr.closers p (by simp [ht]) s hs
  rw [eq_of_fitsToken_sym h.1] at hc
  simp [Token.isSym] at hc

theorem Apart.attempt_value {r : Rule} (hr : r.Apart) {ws rest : List Token} {q : Nat}
    {v : Token} {s : String} (hq : ws.drop q = v :: .sym s :: rest) (hv : v.isValue = true)
    (hs : s ∈ Nested.closers) : attempt r ws q = none := by
  refine attempt_eq_none_of_fits hr.nonempty (Bool.eq_false_iff.2 fun h => ?_)
  obtain ⟨p, tmpl, ht⟩ := List.exists_cons_of_length_pos hr.nonempty
  have hq' : q ≤ ws.length := by
    have := congrArg List.length hq
    simp at this
    omega
  rw [fits_drop _ _ hq', hq, ht, fits_cons_cons, Bool.and_eq_true] at h
  cases tmpl with
  | nil =>
    -- a template of one token is a symbol, which no value has the shape of
    have hp := hr.single (by simp [ht]) p (by simp [ht])
    cases p with
    | sym x =>
      rw [fitsToken_sym, Token.isSym_eq_true] at h
      rw [h.1] at hv
      simp [Token.isValue, Token.kind] at hv
    | _ => simp [Token.kind] at hp
  | cons p' tmpl =>
    rw [fits_cons_cons, Bool.and_eq_true] at h
    have hc := hr.closers p' (by simp [ht]) s hs
    rw [eq_of_fitsToken_sym h.2.1] at hc
    simp [Token.isSym] at hc

theorem Apart.attempt_single {r : Rule} (hr : r.Apart) {v : Token} (hv : v.isValue = true) :
    attempt r [v] 0 = none := by
  refine attempt_eq_none_of_fits hr.nonempty (Bool.eq_false_iff.2 fun h => ?_)
  obtain ⟨p, tmpl, ht⟩ := List.exists_cons_of_length_pos hr.nonempty
  rw [ht, fits_cons_cons, Bool.and_eq_true] at h
  cases tmpl with
  | nil =>
    have hp := hr.single (by simp [ht]) p (by simp [ht])
    cases p with
    | sym x =>
      rw [fitsToken_sym, Token.isSym_eq_true] at h
      rw [h.1] at hv
      simp [Token.isValue, Token.kind] at hv
    | _ => simp [Token.kind] at hp
  | cons p' tmpl => simp at h

end Rule

namespace Nested

open Library

theorem Crossing.attempt_eq_none {F : List Token} (hF : Crossing F) {r : Rule} (hr : r.Apart) :
    ∀ (A B : List Token) (q : Nat), A.length ≤ q → q < A.length + F.length →
      attempt r (A ++ F ++ B) q = none := by
  induction hF with
  | nil => intro A B q h1 h2; simp at h2; omega
  | @sym s rest hs _ ih =>
    intro A B q h1 h2
    rcases Nat.lt_or_eq_of_le h1 with hlt | rfl
    · have h := ih (A ++ [.sym s]) B q (by simp; omega) (by simp at h2 ⊢; omega)
      simpa using h
    · have hd : (A ++ .sym s :: rest ++ B).drop A.length = .sym s :: (rest ++ B) := by simp
      exact hr.attempt_closer hd hs
  | @value v s rest hv hs _ ih =>
    intro A B q h1 h2
    rcases Nat.lt_or_eq_of_le h1 with hlt | rfl
    · rcases Nat.lt_or_eq_of_le (Nat.succ_le_of_lt hlt) with hlt' | heq
      · have h := ih (A ++ [v, .sym s]) B q (by simp; omega) (by simp at h2 ⊢; omega)
        simpa using h
      · subst heq
        have hd : (A ++ v :: .sym s :: rest ++ B).drop (A.length + 1) =
            .sym s :: (rest ++ B) := by simp [List.drop_append]
        exact hr.attempt_closer hd hs
    · have hd : (A ++ v :: .sym s :: rest ++ B).drop A.length = v :: .sym s :: (rest ++ B) := by
        simp
      exact hr.attempt_value hd hv hs

end Nested

namespace Library

/-! ### A part in place -/

/-- A rule of the library tried inside a sealed
part does what it does there with a separator or a closer and more tokens after the part. -/
theorem attempt_append_closer {us : List Rule} (hus : ∀ u ∈ us, u.ListSafe) {r : Rule}
    (hr : r ∈ Builtin.rules ++ us) {w : List Token} (hw : Tokens.Sealed w) {q : Nat}
    (hq : q < w.length) {c : String} (hc : c ∈ Nested.closers) (rest : List Token) :
    attempt r (w ++ .sym c :: rest) q = (attempt r w q).map (Firing.extend (.sym c :: rest)) := by
  have hapart := apart_of_mem hus hr
  have hne : r.template.isEmpty = false := by
    cases ht : r.template with
    | nil => simpa [ht] using hapart.nonempty
    | cons => rfl
  unfold attempt
  rw [fits_append_sym (fun p hp => hapart.closers p hp c hc) (Nat.le_of_lt hq), hne,
    Bool.false_or]
  split
  · rename_i hfits
    have hlen : r.template.length + q ≤ w.length := by
      simp only [fits, Bool.and_eq_true, decide_eq_true_eq] at hfits
      exact hfits.1
    rcases List.mem_append.1 hr with hb | hu
    · -- a built-in rule reads no operator after the part, and its conditional stops in it
      obtain ⟨b, rfl, -⟩ := Builtin.plain_of_mem_rules hb
      rw [eligible_append_after b.rule hlen _ fun t ht => by
        rw [show t = .sym c by simpa using ht.symm]; exact Builtin.blocks_closers b c hc]
      split
      · have happly := Builtin.apply_append_of hw.bracketed hfits (.sym c :: rest)
          (fun t ht op => by
            rw [show t = .sym c by simpa using ht.symm]
            simpa [Token.symName?] using Builtin.peers_closers op c hc)
          (fun hcond => by subst hcond; exact hw.scans hfits hc rest)
        simp only [Rule.fire, Builtin.rule, happly, Option.map_map]
        rfl
      · rfl
    · -- a user rule is subordinate to nothing and matches within the part
      have hsafe := hus r hu
      obtain ⟨body, hbody⟩ := hsafe.rewrite
      simp only [Rule.eligible, hsafe.free, List.isEmpty_nil, Bool.true_or, if_true, Rule.fire,
        hbody, Template.firstMatch_append_right _ _ _ _ (by omega : q + r.template.length ≤ w.length),
        Option.map_map]
      rfl
  · rfl

theorem attempt_cons_rewrite {r : Rule} (hsub : r.subordinateTo = [])
    (hrw : ∃ body, r.action = .rewrite body) (x : Token) (ws : List Token) (pos : Nat) :
    attempt r (x :: ws) (pos + 1) = (attempt r ws pos).map (Firing.shift x) := by
  obtain ⟨body, hbody⟩ := hrw
  unfold attempt
  rw [fits_cons]
  simp only [Rule.eligible, hsub, List.isEmpty_nil, Bool.true_or, if_true, Rule.fire, hbody,
    Nat.cast_add, Nat.cast_one, Template.firstMatch_cons]
  split <;> simp [Option.map_map, Function.comp_def, Firing.shift]

theorem attempt_cons_of_mem {us : List Rule} (hus : ∀ u ∈ us, u.ListSafe) {r : Rule}
    (hr : r ∈ Builtin.rules ++ us) (x : Token) (ws : List Token) (pos : Nat)
    (hx : 0 < pos ∨ x ∈ Builtin.leaders) :
    attempt r (x :: ws) (pos + 1) = (attempt r ws pos).map (Firing.shift x) := by
  rcases List.mem_append.1 hr with hmem | hu
  · obtain ⟨b, rfl, hb⟩ := Builtin.plain_of_mem_rules hmem
    exact attempt_cons hb x ws pos hx
  · exact attempt_cons_rewrite (hus r hu).free (hus r hu).rewrite x ws pos

/-- A rule of the library tried in a part after the tokens `pre` does
what it does in the part alone, when `pre` ends with a leader or the rule's span does not start
the part. -/
theorem attempt_prepend {us : List Rule} (hus : ∀ u ∈ us, u.ListSafe) {r : Rule}
    (hr : r ∈ Builtin.rules ++ us) (pre ws : List Token) (q : Nat)
    (hlead : 0 < q ∨ ∀ x ∈ pre.getLast?, x ∈ Builtin.leaders) :
    attempt r (pre ++ ws) (pre.length + q) = (attempt r ws q).map (Firing.within pre []) := by
  induction pre with
  | nil => simp
  | cons x pre ih =>
    -- the token in front is `x` only where the span starts right after it
    have hx : 0 < pre.length + q ∨ x ∈ Builtin.leaders := by
      rcases pre with _ | ⟨y, pre⟩
      · rcases hlead with hq | hlead
        · exact .inl (by simpa using hq)
        · exact .inr (hlead x rfl)
      · exact .inl (by simp only [List.length_cons]; omega)
    have hlead' : 0 < q ∨ ∀ y ∈ pre.getLast?, y ∈ Builtin.leaders := by
      rcases hlead with hq | hlead
      · exact .inl hq
      · refine .inr fun y hy => hlead y ?_
        rcases pre with _ | ⟨z, pre⟩
        · cases hy
        · rwa [List.getLast?_cons_cons]
    rw [List.cons_append, List.length_cons, Nat.add_right_comm,
      attempt_cons_of_mem hus hr x _ _ hx, ih hlead', Option.map_map]
    simp only [Function.comp_def, Firing.shift_within]

theorem attempt_between {us : List Rule} (hus : ∀ u ∈ us, u.ListSafe) {r : Rule}
    (hr : r ∈ Builtin.rules ++ us) {pre w : List Token}
    (hlead : ∀ x ∈ pre.getLast?, x ∈ Builtin.leaders) (hw : Tokens.Sealed w) {q : Nat}
    (hq : q < w.length) {c : String} (hc : c ∈ Nested.closers) (rest : List Token) :
    attempt r (pre ++ w ++ .sym c :: rest) (pre.length + q) =
      (attempt r w q).map (Firing.within pre (.sym c :: rest)) := by
  rw [List.append_assoc, attempt_prepend hus hr pre _ q (.inr hlead),
    attempt_append_closer hus hr hw hq hc rest, Option.map_map]
  simp only [Function.comp_def, Firing.within_extend]

theorem attempt_eq_none_of_head {r : Rule} {p : Token} {tmpl ws : List Token} {q : Nat}
    (ht : r.template = p :: tmpl) {t : Token} (hq : ws[q]? = some t) (hp : fitsToken p t = false) :
    attempt r ws q = none := by
  refine attempt_eq_none_of_fits (by simp [ht]) (Bool.eq_false_iff.2 fun h => ?_)
  obtain ⟨hlt, heq⟩ := List.getElem?_eq_some_iff.1 hq
  rw [fits_drop _ _ (Nat.le_of_lt hlt), List.drop_eq_getElem_cons hlt, heq, ht, fits_cons_cons,
    hp, Bool.false_and] at h
  cases h

theorem findSome?_attempt_opener {us : List Rule} (hus : ∀ u ∈ us, u.ListSafe)
    {ws : List Token} {o : String} (ho : o = "[" ∨ o = "\x7b") (h0 : ws[0]? = some (.sym o)) :
    (Builtin.rules ++ us).findSome? (attempt · ws 0) =
      (attempt Builtin.listFold.rule ws 0).or (attempt Builtin.mapFold.rule ws 0) := by
  have hrules : Builtin.rules = Builtin.parens.rule :: Builtin.listFold.rule ::
      Builtin.mapFold.rule :: Builtin.rules.drop 3 := rfl
  -- every other built-in rule starts with a token that has the shape of no opening bracket
  have hheads : ∀ r ∈ Builtin.parens.rule :: Builtin.rules.drop 3, ∀ p ∈ r.template.head?,
      fitsToken p (.sym "[") = false ∧ fitsToken p (.sym "\x7b") = false := by decide
  have hother : ∀ r : Rule, 0 < r.template.length →
      (∀ p ∈ r.template.head?, fitsToken p (.sym o) = false) → attempt r ws 0 = none := by
    intro r hne hp
    obtain ⟨p, tmpl, ht⟩ := List.exists_cons_of_length_pos hne
    exact attempt_eq_none_of_head ht h0 (hp p (by simp [ht]))
  have hparens : attempt Builtin.parens.rule ws 0 = none := by
    refine hother _ (by decide) fun p hp => ?_
    rcases ho with rfl | rfl
    exacts [(hheads _ List.mem_cons_self p hp).1, (hheads _ List.mem_cons_self p hp).2]
  have hrest : (Builtin.rules.drop 3 ++ us).findSome? (attempt · ws 0) = none := by
    rw [List.findSome?_eq_none_iff]
    intro r hr
    rcases List.mem_append.1 hr with hr | hr
    · refine hother r (Builtin.apart_of_mem_rules r (List.mem_of_mem_drop hr)).nonempty
        fun p hp => ?_
      rcases ho with rfl | rfl
      exacts [(hheads r (List.mem_cons_of_mem _ hr) p hp).1,
        (hheads r (List.mem_cons_of_mem _ hr) p hp).2]
    · -- a user rule holds no symbol of the bracket language
      refine hother r (hus r hr).apart.nonempty fun p hp => ?_
      rw [Bool.eq_false_iff]
      intro hfit
      have hst := (hus r hr).noStructure p (List.mem_of_mem_head? hp)
      rw [eq_of_fitsToken_sym hfit] at hst
      rcases ho with rfl | rfl <;> simp [Token.isStructure] at hst
  rw [hrules, List.cons_append, List.cons_append, List.cons_append]
  simp only [List.findSome?_cons, hparens, hrest]
  cases attempt Builtin.listFold.rule ws 0 <;> cases attempt Builtin.mapFold.rule ws 0 <;> rfl

theorem firing?_singleton {lib : Library} {us : List Rule} (hlib : lib.rules = Builtin.rules ++ us)
    (hus : ∀ u ∈ us, u.ListSafe) {v : Token} (hv : v.isValue = true) : lib.firing? [v] = none := by
  rw [firing?_eq, List.findSome?_eq_none_iff]
  intro q hq
  obtain rfl : q = 0 := by simpa using hq
  rw [hlib, List.findSome?_eq_none_iff]
  exact fun r hr => (apart_of_mem hus hr).attempt_single hv

/-- No rule fires in an opening in front of a sealed part that is no single value: the fold of
the opening bracket stops at the part, and no rule fires on the values and separators after
it. -/
theorem findSome?_attempt_opening {lib : Library} {us : List Rule}
    (hlib : lib.rules = Builtin.rules ++ us) (hus : ∀ u ∈ us, u.ListSafe) {pre w : List Token}
    (hpre : Tokens.Opening pre) (hw : Tokens.Sealed w) (hne : w ≠ [])
    (hsingle : ∀ v, w = [v] → v.isValue = false) (post : List Token) :
    ∀ q < pre.length, lib.rules.findSome? (attempt · (pre ++ w ++ post) q) = none := by
  obtain ⟨o, F, rfl, ho, hF⟩ := hpre.crossing
  intro q hq
  rw [hlib]
  rcases Nat.eq_zero_or_pos q with rfl | hpos
  · obtain ⟨hl, hm⟩ := hpre.folds_stall hw hne hsingle post
    rw [findSome?_attempt_opener hus ho (by simp), hl, hm]
    rfl
  · rw [List.findSome?_eq_none_iff]
    intro r hr
    simp only [List.length_cons] at hq
    have h := hF.attempt_eq_none (apart_of_mem hus hr) [.sym o] (w ++ post) q
      (by simp; omega) (by simp; omega)
    simpa using h

/-- With a bracket and values and separators before a
sealed part and a separator or a closer after it, a pass fires what it fires in the part alone,
moved into place. -/
theorem firing?_between {lib : Library} {us : List Rule} (hlib : lib.rules = Builtin.rules ++ us)
    (hus : ∀ u ∈ us, u.ListSafe) {pre w : List Token} (hpre : Tokens.Opening pre)
    (hw : Tokens.Sealed w) {c : String} (hc : c ∈ Nested.closers) (rest : List Token)
    {f : Firing} (hf : lib.firing? w = some f) :
    lib.firing? (pre ++ w ++ .sym c :: rest) = some (f.within pre (.sym c :: rest)) := by
  -- the part fires, so it is no single value
  have hne : w ≠ [] := by
    rintro rfl
    simp [firing?_eq] at hf
  have hsingle : ∀ v, w = [v] → v.isValue = false := by
    rintro v rfl
    cases hv : v.isValue
    · rfl
    · rw [firing?_singleton hlib hus hv] at hf
      cases hf
  have hopen : (List.range pre.length).findSome?
      (fun q => lib.rules.findSome? (attempt · (pre ++ w ++ .sym c :: rest) q)) = none :=
    List.findSome?_eq_none_iff.2 fun q hq =>
      findSome?_attempt_opening hlib hus hpre hw hne hsingle _ q (List.mem_range.1 hq)
  have hpart : (List.range w.length).findSome? (fun q =>
      lib.rules.findSome? (attempt · (pre ++ w ++ .sym c :: rest) (pre.length + q))) =
        some (f.within pre (.sym c :: rest)) := by
    rw [firing?_eq] at hf
    have hcongr : ∀ q ∈ List.range w.length,
        lib.rules.findSome? (attempt · (pre ++ w ++ .sym c :: rest) (pre.length + q)) =
          (lib.rules.findSome? (attempt · w q)).map (Firing.within pre (.sym c :: rest)) := by
      intro q hq
      rw [List.map_findSome?]
      exact findSome?_congr fun r hr => attempt_between hus (hlib ▸ hr) hpre.getLast?_mem hw
        (List.mem_range.1 hq) hc rest
    have hmap := List.map_findSome? (g := Firing.within pre (.sym c :: rest))
      (f := fun q => lib.rules.findSome? (attempt · w q)) (l := List.range w.length)
    simp only [Function.comp_def] at hmap
    rw [findSome?_congr hcongr, ← hmap, hf]
    rfl
  have hlen : (pre ++ w ++ .sym c :: rest).length = pre.length + (w.length + (rest.length + 1)) := by
    simp
  rw [firing?_eq, hlen, List.range_add, List.findSome?_append, hopen, Option.none_or,
    List.range_add, List.map_append, List.findSome?_append, List.findSome?_map]
  simp only [Function.comp_def]
  rw [hpart]
  rfl

end Library

end Reckon

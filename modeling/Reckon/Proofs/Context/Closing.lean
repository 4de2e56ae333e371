import Reckon.Proofs.Context.Shift

/-!
# A workspace with a closer after it

The second half of the picture of `( a ) r`: every built-in behaviour, and the attempt of a
built-in rule, at a position inside a well-bracketed workspace does what it does there when a
closing parenthesis and more tokens follow the workspace (`Library.attempt_append`).

A built-in rule reads past its span in three ways, and the closer stops each of them. A template
never reaches onto the closer, for the span would be the rest of the workspace and the closer,
which is not balanced (`Library.fits_append_close`). The folds read items up to their own
closing bracket, which stands in the workspace. The conditional scans for its `else` and the
end of its else-branch by counting brackets; in a well-bracketed workspace the count is back to
zero at the end (`Tokens.Settles`), where the closer stops both scans as the end did.
-/

namespace Reckon

namespace Tokens

theorem splice_append_right (ws post : List Token) (start stop : Nat) (repl : List Token)
    (hstart : start ≤ ws.length) (hstop : stop ≤ ws.length) :
    splice (ws ++ post) start stop repl = splice ws start stop repl ++ post := by
  simp [splice, List.take_append_of_le_length hstart, List.drop_append_of_le_length hstop]

theorem not_balanced_append_close {pre xs : List Token} (h : WellBracketed (pre ++ xs))
    (rest : List Token) : ¬ Balanced (xs ++ .sym ")" :: rest) := by
  intro hbal
  unfold Tokens.Balanced at hbal
  rw [depthAfter_append] at hbal
  obtain ⟨e, he, hrest⟩ := Option.bind_eq_some_iff.1 hbal
  rw [h.depthAfter_suffix he, depthAfter_cons] at hrest
  simp [depthStep, closes, opens, Token.isSym] at hrest

theorem depthAfter_drop_succ {ws : List Token} {i d d' : Nat} (hi : i < ws.length)
    (hstep : depthStep d ws[i] = some d') :
    depthAfter d (ws.drop i) = depthAfter d' (ws.drop (i + 1)) := by
  rw [List.drop_eq_getElem_cons hi, depthAfter_cons, hstep]
  rfl

/-- Read from `i` at depth `d`, the rest of the workspace brings the count back to zero unless it
goes below zero first: so it is in a well-bracketed workspace from depth zero. -/
def Settles (ws : List Token) (i d : Nat) : Prop :=
  ∀ e, depthAfter d (ws.drop i) = some e → e = 0

theorem Settles.next {ws : List Token} {i d d' : Nat} (h : Settles ws i d) (hi : i < ws.length)
    (hstep : depthStep d ws[i] = some d') : Settles ws (i + 1) d' :=
  fun e he => h e ((depthAfter_drop_succ hi hstep).trans he)

theorem Settles.at_end {ws : List Token} {d : Nat} (h : Settles ws ws.length d) : d = 0 :=
  h d (by simp)

theorem WellBracketed.settles {ws : List Token} (h : WellBracketed ws) (i : Nat) :
    Settles ws i 0 := fun _ he =>
  (show WellBracketed (ws.take i ++ ws.drop i) by rwa [List.take_append_drop]).depthAfter_suffix he

theorem Settles.bracketAhead {ws : List Token} {i d : Nat} (h : Settles ws i (d + 1)) :
    ∃ u ∈ ws.drop i, u.isBracket = true := by
  by_contra hnone
  have hnb : ∀ t ∈ ws.drop i, t.isBracket = false := fun t ht => by
    cases hb : t.isBracket
    · rfl
    · exact absurd ⟨t, ht, hb⟩ hnone
  exact absurd (h (d + 1) (depthAfter_of_not_bracket hnb _)) (by omega)

/-- A bracket still ahead of `i`. -/
def BracketAhead (ws : List Token) (i : Nat) : Prop := ∃ u ∈ ws.drop i, u.isBracket = true

theorem BracketAhead.skip {ws pre after : List Token} {i : Nat} (h : BracketAhead ws i)
    (hdrop : ws.drop i = pre ++ after) (hpre : ∀ u ∈ pre, u.isBracket = false) :
    BracketAhead ws (i + pre.length) := by
  obtain ⟨u, hu, hb⟩ := h
  rw [hdrop, List.mem_append] at hu
  rcases hu with hu | hu
  · simp [hpre u hu] at hb
  · refine ⟨u, ?_, hb⟩
    rw [← List.drop_drop, hdrop, List.drop_left]
    exact hu

end Tokens

namespace Template

theorem zip_append_of_length_le {α β : Type} {l : List α} {a : List β} (b : List β)
    (h : l.length ≤ a.length) : l.zip (a ++ b) = l.zip a := by
  induction l generalizing a with
  | nil => rfl
  | cons x l ih =>
    cases a with
    | nil => simp at h
    | cons y a => simp [ih (by simpa using h)]

theorem allMatches_append_right (tmpl ws post : List Token) (pos : Nat)
    (h : pos + tmpl.length ≤ ws.length) :
    allMatches tmpl (ws ++ post) pos = allMatches tmpl ws pos := by
  have hlen : ¬ (ws ++ post).length < pos + tmpl.length := by simp; omega
  have hlen' : ¬ ws.length < pos + tmpl.length := by omega
  simp only [allMatches, Int.toNat_natCast, hlen, hlen', decide_false, Bool.or_false,
    List.drop_append_of_le_length (show pos ≤ ws.length by omega),
    zip_append_of_length_le post (show tmpl.length ≤ (ws.drop pos).length by simp; omega)]

theorem firstMatch_append_right (tmpl ws post : List Token) (pos : Nat)
    (h : pos + tmpl.length ≤ ws.length) :
    firstMatch tmpl (ws ++ post) pos = firstMatch tmpl ws pos := by
  rw [firstMatch_eq_head, firstMatch_eq_head, allMatches_append_right _ _ _ _ h]

end Template

namespace Builtin

open Tokens

theorem isValue_of_isBracket {t : Token} (h : t.isBracket = true) : t.isValue = false := by
  cases hv : t.isValue
  · rfl
  · simp [Token.isBracket_of_isValue hv] at h

theorem foldList_append (ws post : List Token) {start i : Nat} (items : List Token)
    (hstart : start ≤ ws.length) (hbr : BracketAhead ws i) :
    foldList (ws ++ post) start i items = (foldList ws start i items).map (· ++ post) := by
  fun_induction foldList ws start i items with
  | case1 i items hlen t next after hdrop hval items' hcomma ih =>
    rw [foldList, if_pos (by simp; omega), List.drop_append_of_le_length (by omega), hdrop]
    simp only [List.cons_append, hval, if_true, hcomma]
    have hsplit : ws.drop i = [t, next] ++ after := hdrop
    refine ih (hbr.skip hsplit fun u hu => ?_)
    rcases List.mem_pair.1 hu with rfl | rfl
    · exact Token.isBracket_of_isValue hval
    · rw [Token.isSym_eq_true.1 hcomma]
      exact isBracket_sym_comma
  | case2 i items hlen t next after hdrop hval items' hcomma hclose =>
    rw [foldList, if_pos (by simp; omega), List.drop_append_of_le_length (by omega), hdrop]
    have hlen2 : i + 2 ≤ ws.length := by
      have := congrArg List.length hdrop
      simp at this
      omega
    simp [hval, hcomma, hclose, items', splice_append_right _ _ _ _ _ hstart hlen2]
  | case3 i items hlen t next hval items' hcomma hclose hdots tail close after hclose' hdrop =>
    rw [foldList, if_pos (by simp; omega), List.drop_append_of_le_length (by omega), hdrop]
    have hlen4 : i + 4 ≤ ws.length := by
      have := congrArg List.length hdrop
      simp at this
      omega
    simp [hval, hcomma, hclose, hdots, hclose', items', splice_append_right _ _ _ _ _ hstart hlen4]
  | case4 i items hlen t next hval hcomma hclose hdots tail close after hclose' hdrop =>
    rw [foldList, if_pos (by simp; omega), List.drop_append_of_le_length (by omega), hdrop]
    simp [hval, hcomma, hclose, hdots, hclose']
  | case5 i items hlen t next after hdrop hval hcomma hclose hdots hafter =>
    rw [foldList, if_pos (by simp; omega), List.drop_append_of_le_length (by omega), hdrop]
    -- the bracket ahead comes after the value and the dots, where the tail would stand: the
    -- tail is then no list
    have hahead : ∃ u ∈ after, u.isBracket = true := by
      obtain ⟨u, hu, hb⟩ := hbr
      rw [hdrop] at hu
      rcases List.mem_cons.1 hu with rfl | hu
      · simp [Token.isBracket_of_isValue hval] at hb
      rcases List.mem_cons.1 hu with rfl | hu
      · simp [Token.isSym_eq_true.1 hdots, Token.isBracket, opens, closes, Token.isSym] at hb
      exact ⟨u, hu, hb⟩
    rcases after with _ | ⟨a, after⟩
    · simp at hahead
    · cases a with
      | list tail =>
        rcases after with _ | ⟨b, after⟩
        · simp [Token.isBracket, opens, closes, Token.isSym] at hahead
        · exact absurd rfl (hafter tail b after)
      | _ => simp [hval, hcomma, hclose, hdots]
  | case6 i items hlen t next after hdrop hval hcomma hclose hdots =>
    rw [foldList, if_pos (by simp; omega), List.drop_append_of_le_length (by omega), hdrop]
    simp [hval, hcomma, hclose, hdots]
  | case7 i items hlen t next after hdrop hval =>
    rw [foldList, if_pos (by simp; omega), List.drop_append_of_le_length (by omega), hdrop]
    simp [hval]
  | case8 i items hlen hdrop =>
    have h2 := List.drop_eq_getElem_cons (show i < ws.length by omega)
    rw [List.drop_eq_getElem_cons hlen] at h2
    exact absurd h2 (hdrop _ _ _)
  | case9 i items hlen =>
    -- the bracket ahead is the last token, and it is no value
    obtain ⟨u, hu, hb⟩ := hbr
    have hi : i < ws.length := by
      have := List.length_pos_of_mem hu
      simp at this
      omega
    have hone : ws.drop i = [u] := by
      obtain ⟨a, ha⟩ := List.length_eq_one_iff.1 (show (ws.drop i).length = 1 by simp; omega)
      rw [ha, List.mem_singleton] at hu
      rw [ha, hu]
    rw [foldList]
    split
    · rw [List.drop_append_of_le_length (by omega), hone]
      cases post <;> simp [isValue_of_isBracket hb]
    · rfl

theorem isSym_of_isBracket {t : Token} (h : t.isBracket = true) {s : String}
    (hs : (Token.sym s).isBracket = false) : t.isSym s = false := by
  cases ht : t.isSym s
  · rfl
  · rw [Token.isSym_eq_true.1 ht] at h
    simp [hs] at h

theorem foldMap_append (ws post : List Token) {start i : Nat} (entries : List (Token × Token))
    (hstart : start ≤ ws.length) (hbr : BracketAhead ws i) :
    foldMap (ws ++ post) start i entries = (foldMap ws start i entries).map (· ++ post) := by
  fun_induction foldMap ws start i entries with
  | case1 i entries hlen k colon v next after hdrop hkv entries' hcomma ih =>
    rw [foldMap, if_pos (by simp; omega), List.drop_append_of_le_length (by omega), hdrop]
    simp only [List.cons_append, hkv, if_true, hcomma]
    have hsplit : ws.drop i = [k, colon, v, next] ++ after := hdrop
    simp only [Bool.and_eq_true] at hkv
    obtain ⟨⟨hk, hc⟩, hv⟩ := hkv
    refine ih (hbr.skip hsplit fun u hu => ?_)
    simp only [List.mem_cons, List.not_mem_nil, or_false] at hu
    rcases hu with rfl | rfl | rfl | rfl
    · exact Token.isBracket_of_isValue hk
    · rw [Token.isSym_eq_true.1 hc]
      exact isBracket_sym_colon
    · exact Token.isBracket_of_isValue hv
    · rw [Token.isSym_eq_true.1 hcomma]
      exact isBracket_sym_comma
  | case2 i entries hlen k colon v next after hdrop hkv entries' hcomma hclose =>
    rw [foldMap, if_pos (by simp; omega), List.drop_append_of_le_length (by omega), hdrop]
    have hlen4 : i + 4 ≤ ws.length := by
      have := congrArg List.length hdrop
      simp at this
      omega
    simp [hkv, hcomma, hclose, entries', splice_append_right _ _ _ _ _ hstart hlen4]
  | case3 i entries hlen k colon v next hkv entries' hcomma hclose hdots rest' close after hclose'
      hdrop =>
    rw [foldMap, if_pos (by simp; omega), List.drop_append_of_le_length (by omega), hdrop]
    have hlen6 : i + 6 ≤ ws.length := by
      have := congrArg List.length hdrop
      simp at this
      omega
    simp [hkv, hcomma, hclose, hdots, hclose', entries', splice_append_right _ _ _ _ _ hstart hlen6]
  | case4 i entries hlen k colon v next hkv hcomma hclose hdots rest' close after hclose' hdrop =>
    rw [foldMap, if_pos (by simp; omega), List.drop_append_of_le_length (by omega), hdrop]
    simp [hkv, hcomma, hclose, hdots, hclose']
  | case5 i entries hlen k colon v next after hdrop hkv hcomma hclose hdots hafter =>
    rw [foldMap, if_pos (by simp; omega), List.drop_append_of_le_length (by omega), hdrop]
    -- the bracket ahead comes after the entry and the dots, where the remainder would stand:
    -- the remainder is then no map
    have hahead : ∃ u ∈ after, u.isBracket = true := by
      obtain ⟨u, hu, hb⟩ := hbr
      simp only [Bool.and_eq_true] at hkv
      obtain ⟨⟨hk, hc⟩, hv⟩ := hkv
      rw [hdrop] at hu
      simp only [List.mem_cons] at hu
      rcases hu with rfl | rfl | rfl | rfl | hu
      · simp [Token.isBracket_of_isValue hk] at hb
      · simp [Token.isSym_eq_true.1 hc, Token.isBracket, opens, closes, Token.isSym] at hb
      · simp [Token.isBracket_of_isValue hv] at hb
      · simp [Token.isSym_eq_true.1 hdots, Token.isBracket, opens, closes, Token.isSym] at hb
      · exact ⟨u, hu, hb⟩
    rcases after with _ | ⟨a, after⟩
    · simp at hahead
    · cases a with
      | map es =>
        rcases after with _ | ⟨b, after⟩
        · simp [Token.isBracket, opens, closes, Token.isSym] at hahead
        · exact absurd rfl (hafter es b after)
      | _ => simp [hkv, hcomma, hclose, hdots]
  | case6 i entries hlen k colon v next after hdrop hkv hcomma hclose hdots =>
    rw [foldMap, if_pos (by simp; omega), List.drop_append_of_le_length (by omega), hdrop]
    simp [hkv, hcomma, hclose, hdots]
  | case7 i entries hlen k colon v next after hdrop hkv =>
    rw [foldMap, if_pos (by simp; omega), List.drop_append_of_le_length (by omega), hdrop]
    simp [hkv]
  | case8 i entries hlen hdrop =>
    have h4 := List.drop_eq_getElem_cons (show i < ws.length by omega)
    rw [List.drop_eq_getElem_cons (show i + 1 < ws.length by omega),
      List.drop_eq_getElem_cons (show i + 1 + 1 < ws.length by omega),
      List.drop_eq_getElem_cons (show i + 1 + 1 + 1 < ws.length by omega)] at h4
    exact absurd h4 (hdrop _ _ _ _ _)
  | case9 i entries hlen =>
    -- the bracket ahead is among the first three tokens read, none of which may be a bracket
    obtain ⟨u, hu, hb⟩ := hbr
    have hshort : (ws.drop i).length ≤ 3 := by simp; omega
    have hi : i ≤ ws.length := by
      have := List.length_pos_of_mem hu
      simp at this
      omega
    rw [foldMap]
    split
    · rw [List.drop_append_of_le_length hi]
      split
      · rename_i k colon v next after hd
        have hu3 : u ∈ [k, colon, v] := by
          have htake : (ws.drop i ++ post).take 3 = [k, colon, v] := by
            rw [hd]
            rfl
          rw [← htake, List.take_append, List.take_of_length_le hshort]
          exact List.mem_append_left _ hu
        simp only [List.mem_cons, List.not_mem_nil, or_false] at hu3
        rcases hu3 with rfl | rfl | rfl
        · simp [isValue_of_isBracket hb]
        · simp [isSym_of_isBracket hb isBracket_sym_colon]
        · simp [isValue_of_isBracket hb]
      · rfl
    · rfl

theorem findElse_append (ws rest : List Token) {i depth : Nat} (nested : Nat)
    (hi : i ≤ ws.length) (hend : Settles ws i depth) :
    findElse (ws ++ .sym ")" :: rest) i depth nested = findElse ws i depth nested := by
  fun_induction findElse ws i depth nested with
  | case1 i depth nested hlt t hop ih =>
    rw [findElse, dif_pos (by simp; omega)]
    simp only [List.getElem_append_left hlt]
    rw [if_pos hop]
    exact ih hlt (hend.next hlt (depthStep_of_opens hop _))
  | case2 i depth nested hlt t hop hcl hzero =>
    rw [findElse, dif_pos (by simp; omega)]
    simp only [List.getElem_append_left hlt]
    rw [if_neg hop, if_pos hcl, if_pos hzero]
  | case3 i depth nested hlt t hop hcl hzero ih =>
    obtain ⟨d, rfl⟩ : ∃ d, depth = d + 1 :=
      Nat.exists_eq_succ_of_ne_zero (by simpa using hzero)
    rw [findElse, dif_pos (by simp; omega)]
    simp only [List.getElem_append_left hlt]
    rw [if_neg hop, if_pos hcl, if_neg hzero]
    exact ih hlt (hend.next hlt (depthStep_of_closes (by simpa using hop) hcl d))
  | case4 i depth nested hlt t hop hcl hdepth ih =>
    rw [findElse, dif_pos (by simp; omega)]
    simp only [List.getElem_append_left hlt]
    rw [if_neg hop, if_neg hcl, if_pos hdepth]
    exact ih hlt (hend.next hlt (depthStep_of_neither (by simpa using hop) (by simpa using hcl) _))
  | case5 i depth nested hlt t hop hcl hdepth hif ih =>
    rw [findElse, dif_pos (by simp; omega)]
    simp only [List.getElem_append_left hlt]
    rw [if_neg hop, if_neg hcl, if_neg hdepth, if_pos hif]
    exact ih hlt (hend.next hlt (depthStep_of_neither (by simpa using hop) (by simpa using hcl) _))
  | case6 i depth nested hlt t hop hcl hdepth hif helse hnested =>
    rw [findElse, dif_pos (by simp; omega)]
    simp only [List.getElem_append_left hlt]
    rw [if_neg hop, if_neg hcl, if_neg hdepth, if_neg hif, if_pos helse, if_pos hnested]
  | case7 i depth nested hlt t hop hcl hdepth hif helse hnested ih =>
    rw [findElse, dif_pos (by simp; omega)]
    simp only [List.getElem_append_left hlt]
    rw [if_neg hop, if_neg hcl, if_neg hdepth, if_neg hif, if_pos helse, if_neg hnested]
    exact ih hlt (hend.next hlt (depthStep_of_neither (by simpa using hop) (by simpa using hcl) _))
  | case8 i depth nested hlt t hop hcl hdepth hif helse ih =>
    rw [findElse, dif_pos (by simp; omega)]
    simp only [List.getElem_append_left hlt]
    rw [if_neg hop, if_neg hcl, if_neg hdepth, if_neg hif, if_neg helse]
    exact ih hlt (hend.next hlt (depthStep_of_neither (by simpa using hop) (by simpa using hcl) _))
  | case9 i depth nested hge =>
    obtain rfl : i = ws.length := by omega
    rw [findElse, dif_pos (by simp), hend.at_end]
    simp [opens, closes, Token.isSym]

theorem branchEnd_append (ws rest : List Token) {i depth : Nat} (nested : Nat)
    (hi : i ≤ ws.length) (hend : Settles ws i depth) :
    branchEnd (ws ++ .sym ")" :: rest) i depth nested = branchEnd ws i depth nested := by
  fun_induction branchEnd ws i depth nested with
  | case1 i depth nested hlt t hop ih =>
    rw [branchEnd, dif_pos (by simp; omega)]
    simp only [List.getElem_append_left hlt]
    rw [if_pos hop]
    exact ih hlt (hend.next hlt (depthStep_of_opens hop _))
  | case2 i depth nested hlt t hop hcl hzero =>
    rw [branchEnd, dif_pos (by simp; omega)]
    simp only [List.getElem_append_left hlt]
    rw [if_neg hop, if_pos hcl, if_pos hzero]
  | case3 i depth nested hlt t hop hcl hzero ih =>
    obtain ⟨d, rfl⟩ : ∃ d, depth = d + 1 :=
      Nat.exists_eq_succ_of_ne_zero (by simpa using hzero)
    rw [branchEnd, dif_pos (by simp; omega)]
    simp only [List.getElem_append_left hlt]
    rw [if_neg hop, if_pos hcl, if_neg hzero]
    exact ih hlt (hend.next hlt (depthStep_of_closes (by simpa using hop) hcl d))
  | case4 i depth nested hlt t hop hcl hdepth ih =>
    rw [branchEnd, dif_pos (by simp; omega)]
    simp only [List.getElem_append_left hlt]
    rw [if_neg hop, if_neg hcl, if_pos hdepth]
    exact ih hlt (hend.next hlt (depthStep_of_neither (by simpa using hop) (by simpa using hcl) _))
  | case5 i depth nested hlt t hop hcl hdepth hif ih =>
    rw [branchEnd, dif_pos (by simp; omega)]
    simp only [List.getElem_append_left hlt]
    rw [if_neg hop, if_neg hcl, if_neg hdepth, if_pos hif]
    exact ih hlt (hend.next hlt (depthStep_of_neither (by simpa using hop) (by simpa using hcl) _))
  | case6 i depth nested hlt t hop hcl hdepth hif helse ih =>
    rw [branchEnd, dif_pos (by simp; omega)]
    simp only [List.getElem_append_left hlt]
    rw [if_neg hop, if_neg hcl, if_neg hdepth, if_neg hif, if_pos helse]
    exact ih hlt (hend.next hlt (depthStep_of_neither (by simpa using hop) (by simpa using hcl) _))
  | case7 i depth nested hlt t hop hcl hdepth hif helse hsep =>
    rw [branchEnd, dif_pos (by simp; omega)]
    simp only [List.getElem_append_left hlt]
    rw [if_neg hop, if_neg hcl, if_neg hdepth, if_neg hif, if_neg helse, if_pos hsep]
  | case8 i depth nested hlt t hop hcl hdepth hif helse hsep ih =>
    rw [branchEnd, dif_pos (by simp; omega)]
    simp only [List.getElem_append_left hlt]
    rw [if_neg hop, if_neg hcl, if_neg hdepth, if_neg hif, if_neg helse, if_neg hsep]
    exact ih hlt (hend.next hlt (depthStep_of_neither (by simpa using hop) (by simpa using hcl) _))
  | case9 i depth nested hge =>
    obtain rfl : i = ws.length := by omega
    rw [branchEnd, dif_pos (by simp), hend.at_end]
    simp [opens, closes, Token.isSym]

theorem slice_append_right (ws post : List Token) (start : Nat) {stop : Nat}
    (h : stop ≤ ws.length) : slice (ws ++ post) start stop = slice ws start stop := by
  simp only [slice, List.drop_append]
  rw [List.take_append_of_le_length (by simp; omega)]

theorem getD_after (ws post : List Token) (g : Token → Bool) {k : Nat}
    (hk : k ≤ ws.length) (hg : ∀ t ∈ post.head?, g t = false) :
    ((ws ++ post)[k]?.map g).getD false = (ws[k]?.map g).getD false := by
  rcases Nat.lt_or_eq_of_le hk with hlt | rfl
  · rw [List.getElem?_append_left hlt]
  · cases post with
    | nil => simp
    | cons t post => simp [hg t rfl]

theorem ElseAt.lt_length {ws : List Token} {i d k : Nat} (h : ElseAt ws i d k) : k < ws.length := by
  obtain ⟨span, rest, hdrop, -, rfl⟩ := h
  have := congrArg List.length hdrop
  simp at this
  omega

theorem BranchTo.le_length {ws : List Token} {i d stop : Nat} (h : BranchTo ws i d stop)
    (hi : i ≤ ws.length) : stop ≤ ws.length := by
  obtain ⟨span, rest, e, hdrop, -, -, rfl⟩ := h
  have := congrArg List.length hdrop
  simp at this
  omega

theorem peers_close (op : Operator) :
    ((Token.sym ")").symName?.map op.peers.contains).getD false = false := by
  cases op <;> decide

/-- A built-in behaviour whose template has the shape of a
well-bracketed workspace does there what it does with more tokens after it, when the first of
them is no operator and the conditional's two scans stop before them. -/
theorem apply_append_of {b : Builtin} {ws : List Token} (hwb : WellBracketed ws) {pos : Nat}
    (hfits : Library.fits b.template ws pos = true) (post : List Token)
    (hpeer : ∀ t ∈ post.head?, ∀ op : Operator,
      (t.symName?.map op.peers.contains).getD false = false)
    (hscan : b = .conditional →
      findElse (ws ++ post) (pos + 3) 0 0 = findElse ws (pos + 3) 0 0 ∧
        ∀ k, findElse ws (pos + 3) 0 0 = some k →
          branchEnd (ws ++ post) (k + 1) 0 0 = branchEnd ws (k + 1) 0 0) :
    b.apply (ws ++ post) pos = (b.apply ws pos).map (· ++ post) := by
  have hlen : pos + b.template.length ≤ ws.length := by
    simp only [Library.fits, Bool.and_eq_true, decide_eq_true_eq] at hfits
    omega
  have hmatch := Template.firstMatch_append_right b.template ws post pos hlen
  cases b with
  | parens =>
    simp only [template, List.length_cons, List.length_nil] at hlen
    simp only [apply, Option.bind_eq_bind, hmatch]
    simp [Option.map_bind,
      splice_append_right ws _ pos (pos + 3) _ (by omega) (by omega)]
  | listFold =>
    simp only [template, List.length_cons, List.length_nil] at hlen
    -- an opening bracket in a well-bracketed workspace has its closer ahead
    have hopen : ws[pos]? = some (.sym "[") := (Library.fits_sym_iff _ _ _).1 hfits
    rw [List.getElem?_eq_getElem (by omega), Option.some.injEq] at hopen
    have hset : Settles ws (pos + 1) 1 :=
      (hwb.settles pos).next (by omega) (by rw [hopen]; simp [depthStep, opens, Token.isSym])
    have hahead : BracketAhead ws (pos + 1) := hset.bracketAhead
    have hnext : pos + 1 < ws.length := by
      obtain ⟨u, hu, -⟩ := hahead
      have := List.length_pos_of_mem hu
      simp at this
      omega
    simp only [apply, List.getElem?_append_left hnext]
    split
    · simp [splice_append_right ws _ pos (pos + 2) _ (by omega) (by omega)]
    · exact foldList_append ws post [] (show pos ≤ ws.length by omega) hahead
  | mapFold =>
    simp only [template, List.length_cons, List.length_nil] at hlen
    have hopen : ws[pos]? = some (.sym "\x7b") := (Library.fits_sym_iff _ _ _).1 hfits
    rw [List.getElem?_eq_getElem (by omega), Option.some.injEq] at hopen
    have hset : Settles ws (pos + 1) 1 :=
      (hwb.settles pos).next (by omega) (by rw [hopen]; simp [depthStep, opens, Token.isSym])
    have hahead : BracketAhead ws (pos + 1) := hset.bracketAhead
    have hnext : pos + 1 < ws.length := by
      obtain ⟨u, hu, -⟩ := hahead
      have := List.length_pos_of_mem hu
      simp at this
      omega
    simp only [apply, List.getElem?_append_left hnext]
    split
    · simp [splice_append_right ws _ pos (pos + 2) _ (by omega) (by omega)]
    · exact foldMap_append ws post [] (show pos ≤ ws.length by omega) hahead
  | «alias» words target =>
    simp only [template, List.length_map] at hlen
    simp only [apply, Option.bind_eq_bind, hmatch]
    simp [Option.map_bind,
      splice_append_right ws _ pos (pos + words.length) _ (by omega) hlen]
  | negate | logicalNot =>
    simp only [template, List.length_cons, List.length_nil] at hlen
    have hbefore : (ws ++ post)[pos - 1]? = ws[pos - 1]? :=
      List.getElem?_append_left (by omega)
    simp only [apply, Option.bind_eq_bind, hmatch, hbefore]
    simp only [Option.map_bind, Function.comp_def, apply_ite (Option.map _), Option.map_none]
    congr 1
    funext bs
    split
    · rfl
    · congr 1
      funext y
      cases y <;> simp [splice_append_right ws _ pos (pos + 2) _ (by omega) (by omega)]
  | binary op =>
    simp only [template, List.length_cons, List.length_nil] at hlen
    have hbefore : (ws ++ post)[pos - 1]? = ws[pos - 1]? :=
      List.getElem?_append_left (by omega)
    simp only [apply, Option.bind_eq_bind, hmatch, hbefore,
      getD_after ws post (fun t => (t.symName?.map op.peers.contains).getD false)
        (show pos + 3 ≤ ws.length by omega) fun t ht => hpeer t ht op]
    simp only [Option.map_bind, Function.comp_def, apply_ite (Option.map _), Option.map_none]
    congr 1
    funext bs
    simp [splice_append_right ws _ pos (pos + 3) _ (by omega) (by omega)]
  | conditional =>
    simp only [template, List.length_cons, List.length_nil] at hlen
    obtain ⟨hfind, hend⟩ := hscan rfl
    simp only [apply, Option.bind_eq_bind, hmatch, hfind]
    simp only [Option.map_bind, Function.comp_def]
    congr 1
    funext bs
    cases helse : findElse ws (pos + 3) 0 0 with
    | none => rfl
    | some elseAt =>
      -- the branches lie in the workspace
      have hlt : elseAt < ws.length := (findElse_spec helse).lt_length
      have hstop : branchEnd ws (elseAt + 1) 0 0 ≤ ws.length :=
        (branchEnd_spec ws 0 0 (show elseAt + 1 ≤ ws.length by omega)).le_length (by omega)
      simp only [Option.bind_some, hend elseAt helse, slice_append_right _ _ _ hstop,
        slice_append_right _ _ _ (Nat.le_of_lt hlt)]
      have hsplice (repl : List Token) :
          splice (ws ++ post) pos (branchEnd ws (elseAt + 1) 0 0) repl =
            splice ws pos (branchEnd ws (elseAt + 1) 0 0) repl ++ post :=
        splice_append_right ws _ pos _ repl (by omega) hstop
      -- the chosen branch, by the value of the condition
      split
      · split <;> simp [hsplice]
      · split <;> simp [hsplice]
      · rfl
  | lookup =>
    simp only [template, List.length_cons, List.length_nil] at hlen
    simp only [apply, Option.bind_eq_bind, hmatch]
    simp only [Option.map_bind, Function.comp_def]
    congr 1
    funext bs
    split <;> simp [Option.map_bind,
      splice_append_right ws _ pos (pos + 4) _ (by omega) (by omega)]

/-- A built-in behaviour whose template has the shape of a
well-bracketed workspace does there what it does with a closer and more tokens after it. -/
theorem apply_append {b : Builtin} {ws : List Token} (hwb : WellBracketed ws) {pos : Nat}
    (hfits : Library.fits b.template ws pos = true) (rest : List Token) :
    b.apply (ws ++ .sym ")" :: rest) pos = (b.apply ws pos).map (· ++ .sym ")" :: rest) := by
  have hlen : pos + b.template.length ≤ ws.length := by
    simp only [Library.fits, Bool.and_eq_true, decide_eq_true_eq] at hfits
    omega
  refine apply_append_of hwb hfits _ (fun t ht op => ?_) fun hb => ?_
  · obtain rfl : t = .sym ")" := by simpa using ht.symm
    exact peers_close op
  · subst hb
    simp only [template, List.length_cons, List.length_nil] at hlen
    refine ⟨findElse_append ws rest 0 (by omega) (hwb.settles _), fun k hk => ?_⟩
    have hlt : k < ws.length := (findElse_spec hk).lt_length
    exact branchEnd_append ws rest 0 (by omega) (hwb.settles _)

theorem blocks_close (b : Builtin) : Library.blocks b.subordinateTo (some (.sym ")")) = false := by
  cases b with
  | binary op => cases op <;> decide
  | negate => decide
  | _ => simp [subordinateTo, Library.blocks]

end Builtin

namespace Firing

/-- The firing as seen in the workspace with the tokens `post` after it. -/
def extend (post : List Token) : Firing → Firing
  | .rewritten r pos ws => .rewritten r pos (ws ++ post)
  | .entered r pos body => .entered r pos body

end Firing

namespace Library

theorem fits_append_right (tmpl ws post : List Token) (pos : Nat)
    (h : tmpl.length + pos ≤ ws.length) : fits tmpl (ws ++ post) pos = fits tmpl ws pos := by
  have hlen : tmpl.length + pos ≤ (ws ++ post).length := by simp; omega
  simp only [fits, hlen, h, decide_true, Bool.true_and,
    List.drop_append_of_le_length (show pos ≤ ws.length by omega),
    Template.zip_append_of_length_le post
      (show tmpl.length ≤ (ws.drop pos).length by simp; omega)]

theorem fits_append_close {b : Builtin} (hb : b.Plain) {ws : List Token}
    (hwb : Tokens.WellBracketed ws) {pos : Nat} (hpos : pos < ws.length) (rest : List Token) :
    fits b.template (ws ++ .sym ")" :: rest) pos = fits b.template ws pos := by
  by_cases hlen : b.template.length + pos ≤ ws.length
  · exact fits_append_right _ _ _ _ hlen
  · have hfalse : fits b.template ws pos = false := by simp [fits]; omega
    rw [hfalse, Bool.eq_false_iff]
    intro hfits
    -- the templates of the folds are one token long; the others are balanced
    have hl : b ≠ .listFold := by
      rintro rfl
      simp [Builtin.template] at hlen
      omega
    have hm : b ≠ .mapFold := by
      rintro rfl
      simp [Builtin.template] at hlen
      omega
    obtain ⟨-, hbal⟩ := balanced_slice_of_fits (Builtin.template_no_symbol_var b)
      (Builtin.template_balanced hb hl hm) hfits
    obtain ⟨k, hk⟩ : ∃ k, b.template.length - (ws.drop pos).length = k + 1 :=
      ⟨b.template.length - (ws.drop pos).length - 1, by simp; omega⟩
    have hslice : Builtin.slice (ws ++ .sym ")" :: rest) pos (pos + b.template.length) =
        ws.drop pos ++ .sym ")" :: rest.take k := by
      simp only [Builtin.slice, Nat.add_sub_cancel_left,
        List.drop_append_of_le_length (show pos ≤ ws.length by omega), List.take_append,
        List.take_of_length_le (show (ws.drop pos).length ≤ b.template.length by simp; omega), hk,
        List.take_succ_cons]
    rw [hslice] at hbal
    exact Tokens.not_balanced_append_close
      (show Tokens.WellBracketed (ws.take pos ++ ws.drop pos) by rwa [List.take_append_drop]) _ hbal

theorem eligible_append_after (r : Rule) {ws : List Token} {pos : Nat}
    (hlen : r.template.length + pos ≤ ws.length) (post : List Token)
    (hpost : ∀ t ∈ post.head?, blocks r.subordinateTo (some t) = false) :
    r.eligible (ws ++ post) pos = r.eligible ws pos := by
  rw [eligible_eq r _ pos (by simp; omega), eligible_eq r ws pos hlen,
    List.take_append_of_le_length (by omega)]
  rcases Nat.lt_or_eq_of_le hlen with hlt | heq
  · rw [List.getElem?_append_left (by omega)]
  · rw [show pos + r.template.length = ws.length by omega, List.getElem?_eq_none (Nat.le_refl _)]
    cases post with
    | nil => simp
    | cons t post => simp [hpost t rfl]

/-- A built-in rule tried inside a well-bracketed workspace
does what it does there with a closer and more tokens after it. -/
theorem attempt_append {b : Builtin} (hb : b.Plain) {ws : List Token}
    (hwb : Tokens.WellBracketed ws) {pos : Nat} (hpos : pos < ws.length) (rest : List Token) :
    attempt b.rule (ws ++ .sym ")" :: rest) pos =
      (attempt b.rule ws pos).map (Firing.extend (.sym ")" :: rest)) := by
  have hne : b.rule.template.isEmpty = false := by
    simpa [Builtin.rule] using Builtin.template_ne_nil hb
  have hfit : fits b.rule.template (ws ++ .sym ")" :: rest) pos = fits b.rule.template ws pos :=
    fits_append_close hb hwb hpos rest
  unfold attempt
  rw [hfit, hne, Bool.false_or]
  split
  · rename_i hfits
    have hlen : b.rule.template.length + pos ≤ ws.length := by
      simp only [fits, Bool.and_eq_true, decide_eq_true_eq] at hfits
      exact hfits.1
    rw [eligible_append_after b.rule hlen _ fun t ht => by
      rw [show t = .sym ")" by simpa using ht.symm]; exact Builtin.blocks_close b]
    split
    · simp only [Rule.fire, Builtin.rule, Builtin.apply_append hwb hfits rest, Option.map_map]
      rfl
    · rfl
  · rfl

end Library

end Reckon

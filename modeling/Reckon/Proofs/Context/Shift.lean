import Reckon.Proofs.Brackets.Builtin

/-!
# A workspace one place further in

The reduction of `( a ) r` begins by reducing `a` inside its parentheses. This module takes the
first half of that picture: every scan of the built-in rules, every built-in behaviour, and the
attempt of a built-in rule at a position, moved one place further into a workspace that has an
opening parenthesis in front, do what they did without it, with their positions one larger.

The opening parenthesis matters in two places only: it is the token before a span that starts
the workspace, and no built-in rule is subordinate to it; and a unary rule looks at the token
before it, where `(` stands for the start of the workspace as the absence of a token does. The
same holds of every token of `Builtin.leaders`: the brackets that open and the separators of
lists and maps, none of which ends an operand or is an operator.
-/

namespace Reckon

namespace Tokens

theorem splice_cons (x : Token) (ws : List Token) (start stop : Nat) (repl : List Token) :
    splice (x :: ws) (start + 1) (stop + 1) repl = x :: splice ws start stop repl := rfl

end Tokens

namespace Template

theorem allMatches_cons (tmpl : List Token) (x : Token) (ws : List Token) (pos : Nat) :
    allMatches tmpl (x :: ws) ((pos + 1 : Nat) : Int) = allMatches tmpl ws (pos : Int) := by
  have hlen : (ws.length + 1 < pos + 1 + tmpl.length) = (ws.length < pos + tmpl.length) := by
    simp only [eq_iff_iff]
    omega
  have hpos : ¬ ((pos : Int) + 1 < 0) := by omega
  have hpos' : ¬ ((pos : Int) < 0) := by omega
  simp [allMatches, Int.toNat_natCast, List.length_cons, List.drop_succ_cons, hlen, hpos, hpos']

theorem firstMatch_cons (x : Token) (ws : List Token) (pos : Nat) (tmpl : List Token) :
    firstMatch tmpl (x :: ws) ((pos : Int) + 1) = firstMatch tmpl ws (pos : Int) := by
  rw [firstMatch_eq_head, firstMatch_eq_head, ← Int.natCast_succ, allMatches_cons]

end Template

namespace Builtin

theorem foldList_cons (x : Token) (ws : List Token) (start i : Nat) (items : List Token) :
    foldList (x :: ws) (start + 1) (i + 1) items = (foldList ws start i items).map (x :: ·) := by
  fun_induction foldList ws start i items with
  | case1 i items hlen t next after hdrop hval items' hcomma ih =>
    rw [foldList, if_pos (by simpa using hlen)]
    simp only [List.drop_succ_cons, hdrop, hval, if_true, hcomma]
    exact ih
  | case2 i items hlen t next after hdrop hval items' hcomma hclose =>
    rw [foldList, if_pos (by simpa using hlen)]
    simp [List.drop_succ_cons, hdrop, hval, hcomma, hclose, items', ← Tokens.splice_cons]
  | case3 i items hlen t next hval items' hcomma hclose hdots tail close after hclose' hdrop =>
    rw [foldList, if_pos (by simpa using hlen)]
    simp [List.drop_succ_cons, hdrop, hval, hcomma, hclose, hdots, hclose', items',
      ← Tokens.splice_cons]
  | case4 i items hlen t next hval hcomma hclose hdots tail close after hclose' hdrop =>
    rw [foldList, if_pos (by simpa using hlen)]
    simp [List.drop_succ_cons, hdrop, hval, hcomma, hclose, hdots, hclose']
  | case5 i items hlen t next after hdrop hval hcomma hclose hdots hafter =>
    rw [foldList, if_pos (by simpa using hlen)]
    simp [List.drop_succ_cons, hdrop, hval, hcomma, hclose, hdots]
  | case6 i items hlen t next after hdrop hval hcomma hclose hdots =>
    rw [foldList, if_pos (by simpa using hlen)]
    simp [List.drop_succ_cons, hdrop, hval, hcomma, hclose, hdots]
  | case7 i items hlen t next after hdrop hval =>
    rw [foldList, if_pos (by simpa using hlen)]
    simp [List.drop_succ_cons, hdrop, hval]
  | case8 i items hlen hdrop =>
    rw [foldList, if_pos (by simpa using hlen)]
    simp only [List.drop_succ_cons]
    rfl
  | case9 i items hlen =>
    rw [foldList, if_neg (by simpa using hlen)]
    rfl

theorem foldMap_cons (x : Token) (ws : List Token) (start i : Nat)
    (entries : List (Token × Token)) :
    foldMap (x :: ws) (start + 1) (i + 1) entries =
      (foldMap ws start i entries).map (x :: ·) := by
  fun_induction foldMap ws start i entries with
  | case1 i entries hlen k colon v next after hdrop hkv entries' hcomma ih =>
    rw [foldMap, if_pos (by simp only [List.length_cons]; omega)]
    simp only [List.drop_succ_cons, hdrop, hkv, if_true, hcomma]
    exact ih
  | case2 i entries hlen k colon v next after hdrop hkv entries' hcomma hclose =>
    rw [foldMap, if_pos (by simp only [List.length_cons]; omega)]
    simp [List.drop_succ_cons, hdrop, hkv, hcomma, hclose, entries', ← Tokens.splice_cons]
  | case3 i entries hlen k colon v next hkv entries' hcomma hclose hdots rest close after hclose'
      hdrop =>
    rw [foldMap, if_pos (by simp only [List.length_cons]; omega)]
    simp [List.drop_succ_cons, hdrop, hkv, hcomma, hclose, hdots, hclose', entries',
      ← Tokens.splice_cons]
  | case4 i entries hlen k colon v next hkv hcomma hclose hdots rest close after hclose' hdrop =>
    rw [foldMap, if_pos (by simp only [List.length_cons]; omega)]
    simp [List.drop_succ_cons, hdrop, hkv, hcomma, hclose, hdots, hclose']
  | case5 i entries hlen k colon v next after hdrop hkv hcomma hclose hdots hafter =>
    rw [foldMap, if_pos (by simp only [List.length_cons]; omega)]
    simp [List.drop_succ_cons, hdrop, hkv, hcomma, hclose, hdots]
  | case6 i entries hlen k colon v next after hdrop hkv hcomma hclose hdots =>
    rw [foldMap, if_pos (by simp only [List.length_cons]; omega)]
    simp [List.drop_succ_cons, hdrop, hkv, hcomma, hclose, hdots]
  | case7 i entries hlen k colon v next after hdrop hkv =>
    rw [foldMap, if_pos (by simp only [List.length_cons]; omega)]
    simp [List.drop_succ_cons, hdrop, hkv]
  | case8 i entries hlen hdrop =>
    rw [foldMap, if_pos (by simp only [List.length_cons]; omega)]
    simp only [List.drop_succ_cons]
    rfl
  | case9 i entries hlen =>
    rw [foldMap, if_neg (by simp only [List.length_cons]; omega)]
    rfl

theorem findElse_cons (x : Token) (ws : List Token) (i depth nested : Nat) :
    findElse (x :: ws) (i + 1) depth nested = (findElse ws i depth nested).map (· + 1) := by
  fun_induction findElse ws i depth nested with
  | case1 i depth nested hi t hop ih =>
    rw [findElse, dif_pos (by simpa using hi)]
    simp only [List.getElem_cons_succ]
    rw [if_pos hop]
    exact ih
  | case2 i depth nested hi t hop hcl hzero =>
    rw [findElse, dif_pos (by simpa using hi)]
    simp only [List.getElem_cons_succ]
    rw [if_neg hop, if_pos hcl, if_pos hzero]
    rfl
  | case3 i depth nested hi t hop hcl hzero ih =>
    rw [findElse, dif_pos (by simpa using hi)]
    simp only [List.getElem_cons_succ]
    rw [if_neg hop, if_pos hcl, if_neg hzero]
    exact ih
  | case4 i depth nested hi t hop hcl hdepth ih =>
    rw [findElse, dif_pos (by simpa using hi)]
    simp only [List.getElem_cons_succ]
    rw [if_neg hop, if_neg hcl, if_pos hdepth]
    exact ih
  | case5 i depth nested hi t hop hcl hdepth hif ih =>
    rw [findElse, dif_pos (by simpa using hi)]
    simp only [List.getElem_cons_succ]
    rw [if_neg hop, if_neg hcl, if_neg hdepth, if_pos hif]
    exact ih
  | case6 i depth nested hi t hop hcl hdepth hif helse hnested =>
    rw [findElse, dif_pos (by simpa using hi)]
    simp only [List.getElem_cons_succ]
    rw [if_neg hop, if_neg hcl, if_neg hdepth, if_neg hif, if_pos helse, if_pos hnested]
    rfl
  | case7 i depth nested hi t hop hcl hdepth hif helse hnested ih =>
    rw [findElse, dif_pos (by simpa using hi)]
    simp only [List.getElem_cons_succ]
    rw [if_neg hop, if_neg hcl, if_neg hdepth, if_neg hif, if_pos helse, if_neg hnested]
    exact ih
  | case8 i depth nested hi t hop hcl hdepth hif helse ih =>
    rw [findElse, dif_pos (by simpa using hi)]
    simp only [List.getElem_cons_succ]
    rw [if_neg hop, if_neg hcl, if_neg hdepth, if_neg hif, if_neg helse]
    exact ih
  | case9 i depth nested hi =>
    rw [findElse, dif_neg (by simpa using hi)]
    rfl

theorem branchEnd_cons (x : Token) (ws : List Token) (i depth nested : Nat) :
    branchEnd (x :: ws) (i + 1) depth nested = branchEnd ws i depth nested + 1 := by
  fun_induction branchEnd ws i depth nested with
  | case1 i depth nested hi t hop ih =>
    rw [branchEnd, dif_pos (by simpa using hi)]
    simp only [List.getElem_cons_succ]
    rw [if_pos hop]
    exact ih
  | case2 i depth nested hi t hop hcl hzero =>
    rw [branchEnd, dif_pos (by simpa using hi)]
    simp only [List.getElem_cons_succ]
    rw [if_neg hop, if_pos hcl, if_pos hzero]
  | case3 i depth nested hi t hop hcl hzero ih =>
    rw [branchEnd, dif_pos (by simpa using hi)]
    simp only [List.getElem_cons_succ]
    rw [if_neg hop, if_pos hcl, if_neg hzero]
    exact ih
  | case4 i depth nested hi t hop hcl hdepth ih =>
    rw [branchEnd, dif_pos (by simpa using hi)]
    simp only [List.getElem_cons_succ]
    rw [if_neg hop, if_neg hcl, if_pos hdepth]
    exact ih
  | case5 i depth nested hi t hop hcl hdepth hif ih =>
    rw [branchEnd, dif_pos (by simpa using hi)]
    simp only [List.getElem_cons_succ]
    rw [if_neg hop, if_neg hcl, if_neg hdepth, if_pos hif]
    exact ih
  | case6 i depth nested hi t hop hcl hdepth hif helse ih =>
    rw [branchEnd, dif_pos (by simpa using hi)]
    simp only [List.getElem_cons_succ]
    rw [if_neg hop, if_neg hcl, if_neg hdepth, if_neg hif, if_pos helse]
    exact ih
  | case7 i depth nested hi t hop hcl hdepth hif helse hsep =>
    rw [branchEnd, dif_pos (by simpa using hi)]
    simp only [List.getElem_cons_succ]
    rw [if_neg hop, if_neg hcl, if_neg hdepth, if_neg hif, if_neg helse, if_pos hsep]
  | case8 i depth nested hi t hop hcl hdepth hif helse hsep ih =>
    rw [branchEnd, dif_pos (by simpa using hi)]
    simp only [List.getElem_cons_succ]
    rw [if_neg hop, if_neg hcl, if_neg hdepth, if_neg hif, if_neg helse, if_neg hsep]
    exact ih
  | case9 i depth nested hi =>
    rw [branchEnd, dif_neg (by simpa using hi)]
    rfl

theorem slice_cons (x : Token) (ws : List Token) (start stop : Nat) :
    slice (x :: ws) (start + 1) (stop + 1) = slice ws start stop := by
  simp [slice]

/-- The tokens that may stand in front of a workspace without a rule noticing them: the brackets
that open and the separators of lists and maps. -/
def leaders : List Token :=
  [.sym "(", .sym "[", .sym "\x7b", .sym ",", .sym ":", .sym "..."]

theorem endsOperand_of_mem_leaders : ∀ x ∈ leaders, Tokens.endsOperand x = false := by
  decide

theorem peers_of_mem_leaders (op : Operator) :
    ∀ x ∈ leaders, (x.symName?.map op.peers.contains).getD false = false := by
  cases op <;> decide

theorem before_cons (g : Token → Bool) (x : Token) (ws : List Token) (pos : Nat)
    (hx : 0 < pos ∨ g x = false) :
    (decide (0 < pos + 1) && ((x :: ws)[pos + 1 - 1]?.map g).getD false) =
      (decide (0 < pos) && (ws[pos - 1]?.map g).getD false) := by
  cases pos with
  | zero => simpa using hx
  | succ p => simp

theorem apply_cons (b : Builtin) (x : Token) (ws : List Token) (pos : Nat)
    (hx : 0 < pos ∨ x ∈ leaders) :
    b.apply (x :: ws) (pos + 1) = (b.apply ws pos).map (x :: ·) := by
  cases b with
  | parens =>
    simp only [apply, Option.bind_eq_bind, Int.natCast_add, Int.cast_ofNat_Int,
      Template.firstMatch_cons]
    simp [Option.map_bind, Tokens.splice_cons]
  | listFold =>
    simp only [apply, List.getElem?_cons_succ, foldList_cons]
    split <;> simp [Tokens.splice_cons]
  | mapFold =>
    simp only [apply, List.getElem?_cons_succ, foldMap_cons]
    split <;> simp [Tokens.splice_cons]
  | «alias» words target =>
    simp only [apply, Option.bind_eq_bind, Int.natCast_add, Int.cast_ofNat_Int,
      Template.firstMatch_cons]
    simp [Option.map_bind, Nat.add_right_comm pos 1, Tokens.splice_cons]
  | negate | logicalNot =>
    simp only [apply, Option.bind_eq_bind, Int.natCast_add, Int.cast_ofNat_Int,
      Template.firstMatch_cons,
      before_cons Tokens.endsOperand x ws pos (hx.imp_right (endsOperand_of_mem_leaders x))]
    simp only [Option.map_bind, Function.comp_def, apply_ite (Option.map _), Option.map_none]
    congr 1
    funext bs
    split
    · rfl
    · congr 1
      funext y
      cases y <;> simp [Nat.add_right_comm pos 1, Tokens.splice_cons]
  | binary op =>
    have hpeer :
        (fun t : Token => (t.symName?.map op.peers.contains).getD false) x = false ∨ 0 < pos := by
      rcases hx with hpos | hx
      · exact .inr hpos
      · exact .inl (peers_of_mem_leaders op x hx)
    simp only [apply, Option.bind_eq_bind, Int.natCast_add, Int.cast_ofNat_Int,
      Template.firstMatch_cons,
      before_cons (fun t : Token => (t.symName?.map op.peers.contains).getD false) x ws pos
        hpeer.symm, List.getElem?_cons_succ]
    simp only [Option.map_bind, Function.comp_def, apply_ite (Option.map _), Option.map_none]
    rfl
  | conditional =>
    simp only [apply, Option.bind_eq_bind, Int.natCast_add, Int.cast_ofNat_Int,
      Template.firstMatch_cons, findElse_cons,
      Option.bind_map, Function.comp_def, branchEnd_cons, slice_cons, Tokens.splice_cons]
    simp only [Option.map_bind, Function.comp_def]
    congr 1
    funext bs
    congr 1
    funext elseAt
    split <;> simp only [Option.bind_some, Option.bind_none, Option.map_none] <;> split <;> rfl
  | lookup =>
    simp only [apply, Option.bind_eq_bind, Int.natCast_add, Int.cast_ofNat_Int,
      Template.firstMatch_cons]
    simp only [Option.map_bind, Function.comp_def]
    congr 1
    funext bs
    split <;>
      simp [Option.map_bind, Nat.add_right_comm pos 1, Tokens.splice_cons]

theorem blocks_leaders (b : Builtin) :
    ∀ x ∈ leaders, Library.blocks b.subordinateTo (some x) = false := by
  cases b with
  | binary op => cases op <;> decide
  | negate => decide
  | _ => simp [subordinateTo]

end Builtin

namespace Firing

/-- The firing as seen in the workspace with one more token `x` in front. -/
def shift (x : Token) : Firing → Firing
  | .rewritten r pos ws => .rewritten r (pos + 1) (x :: ws)
  | .entered r pos body => .entered r (pos + 1) body

end Firing

namespace Library

theorem fits_cons (tmpl : List Token) (x : Token) (ws : List Token) (pos : Nat) :
    fits tmpl (x :: ws) (pos + 1) = fits tmpl ws pos := by
  simp only [fits, List.length_cons, List.drop_succ_cons]
  congr 1
  simp only [decide_eq_decide]
  omega

theorem eligible_eq (r : Rule) (ws : List Token) (pos : Nat)
    (hlen : r.template.length + pos ≤ ws.length) :
    r.eligible ws pos = (!blocks r.subordinateTo (ws.take pos).getLast? &&
      !blocks r.subordinateTo ws[pos + r.template.length]?) := by
  have hpre : (ws.take pos).length = pos := List.length_take_of_le (by omega)
  have h := eligible_append r (ws.take pos) (ws.drop pos) (by simp; omega)
  rwa [List.take_append_drop, hpre, List.getElem?_drop] at h

theorem eligible_cons (r : Rule) (x : Token) (ws : List Token) (pos : Nat)
    (hlen : r.template.length + pos ≤ ws.length)
    (hx : 0 < pos ∨ blocks r.subordinateTo (some x) = false) :
    r.eligible (x :: ws) (pos + 1) = r.eligible ws pos := by
  rw [eligible_eq r (x :: ws) (pos + 1) (by simp; omega), eligible_eq r ws pos hlen,
    List.take_succ_cons, Nat.add_right_comm, List.getElem?_cons_succ]
  congr 2
  -- the token before the span is `x` only when the span starts the workspace
  rcases hx with hpos | hx
  · obtain ⟨y, ys, hys⟩ := List.exists_cons_of_ne_nil
      (show ws.take pos ≠ [] from List.ne_nil_of_length_pos (by simp; omega))
    rw [hys, List.getLast?_cons_cons]
  · rcases List.eq_nil_or_concat (ws.take pos) with hnil | ⟨init, last, hlast⟩
    · simp [hnil, hx]
    · simp [hlast, List.getLast?_cons]

/-- A built-in rule tried one place further into a workspace with a
leader in front, or with any token in front of a span that does not start the workspace, does
what it does without it. -/
theorem attempt_cons {b : Builtin} (hb : b.Plain) (x : Token) (ws : List Token) (pos : Nat)
    (hx : 0 < pos ∨ x ∈ Builtin.leaders) :
    attempt b.rule (x :: ws) (pos + 1) = (attempt b.rule ws pos).map (Firing.shift x) := by
  have hne : b.rule.template.isEmpty = false := by
    simpa [Builtin.rule] using Builtin.template_ne_nil hb
  unfold attempt
  rw [fits_cons, hne, Bool.false_or]
  split
  · rename_i hfits
    have hlen : b.rule.template.length + pos ≤ ws.length := by
      simp only [fits, Bool.and_eq_true, decide_eq_true_eq] at hfits
      exact hfits.1
    rw [eligible_cons b.rule _ ws pos hlen (hx.imp_right (Builtin.blocks_leaders b x))]
    split
    · simp only [Rule.fire, Builtin.rule, Builtin.apply_cons b _ ws pos hx, Option.map_map]
      rfl
    · rfl
  · rfl

end Library

end Reckon

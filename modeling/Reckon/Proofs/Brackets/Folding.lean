import Reckon.Proofs.Pattern.Written
import Reckon.Proofs.Context.Continuation

/-!
# Folding the text of a pattern

Where the words of a written pattern are values, its text is a workspace of values and symbols
of the bracket language, and the built-in rules fold it back bracket by bracket. Positions are
scanned from the left, so the first bracket whose items are all values folds first; a bracket
around it cannot fold yet, since the scan of its fold stops at the bracket that opens the item.
The folds of the text build `Written.fold?` of the pattern, one step per list and map pattern
(`Library.reduceWith_text`).

Only the two folding rules act on such a workspace in a library whose other rules each need a
symbol outside the bracket language (`Library.Folds`). An `Opening` is an open bracket with the
values and separators it holds up to the place of its next item; no rule fires within openings
while a bracket opens after them (`Library.Stuck`). `Library.Passes` is a stretch of a reduction:
so many passes, each one rewrite, from one workspace to another.
-/

namespace Reckon

namespace Token

@[simp] theorem isValue_list (ts : List Token) : (Token.list ts).isValue = true := rfl

@[simp] theorem isValue_map (es : List (Token × Token)) : (Token.map es).isValue = true := rfl

end Token

namespace Tokens

/-- A workspace of values and symbols of the bracket language. -/
def Structural (ws : List Token) : Prop := ∀ t ∈ ws, (t.isValue || t.isStructure) = true

@[simp] theorem structural_nil : Structural [] := fun _ h => absurd h List.not_mem_nil

theorem structural_append {xs ys : List Token} :
    Structural (xs ++ ys) ↔ Structural xs ∧ Structural ys :=
  List.forall_mem_append

theorem structural_cons {t : Token} {ws : List Token} :
    Structural (t :: ws) ↔ (t.isValue || t.isStructure) = true ∧ Structural ws :=
  List.forall_mem_cons

/-- The items an open list has folded so far, each followed by a comma. -/
def listFrame (us : List Token) : List Token := us.flatMap fun u => [u, .sym ","]

/-- The entries an open map has folded so far, each followed by a comma. -/
def mapFrame (es : List (Token × Token)) : List Token :=
  es.flatMap fun e => [e.1, .sym ":", e.2, .sym ","]

@[simp] theorem listFrame_nil : listFrame [] = [] := rfl

theorem listFrame_append_singleton (us : List Token) (u : Token) :
    listFrame (us ++ [u]) = listFrame us ++ [u, .sym ","] := by
  simp [listFrame]

@[simp] theorem mapFrame_nil : mapFrame [] = [] := rfl

theorem mapFrame_append_singleton (es : List (Token × Token)) (e : Token × Token) :
    mapFrame (es ++ [e]) = mapFrame es ++ [e.1, .sym ":", e.2, .sym ","] := by
  simp [mapFrame]

/-- An open bracket with what it holds up to the place of its next item: a list's item or tail,
or a map's key, value or remainder. -/
inductive Opening : List Token → Prop
  | item {us : List Token} (h : ∀ u ∈ us, u.isValue = true) : Opening (.sym "[" :: listFrame us)
  | tail {us : List Token} {w : Token} (h : ∀ u ∈ us, u.isValue = true) (hw : w.isValue = true) :
      Opening (.sym "[" :: (listFrame us ++ [w, .sym "..."]))
  | key {es : List (Token × Token)} (h : ∀ e ∈ es, e.1.isValue = true ∧ e.2.isValue = true) :
      Opening (.sym "\x7b" :: mapFrame es)
  | value {es : List (Token × Token)} {k : Token}
      (h : ∀ e ∈ es, e.1.isValue = true ∧ e.2.isValue = true) (hk : k.isValue = true) :
      Opening (.sym "\x7b" :: (mapFrame es ++ [k, .sym ":"]))
  | rest {es : List (Token × Token)} {k v : Token}
      (h : ∀ e ∈ es, e.1.isValue = true ∧ e.2.isValue = true) (hk : k.isValue = true)
      (hv : v.isValue = true) :
      Opening (.sym "\x7b" :: (mapFrame es ++ [k, .sym ":", v, .sym "..."]))

end Tokens

namespace Library

/-- The rules of the library that act on a structural workspace are the folding rules: it has
both, and every other rule's template holds a symbol outside the bracket language. -/
structure Folds (lib : Library) : Prop where
  listFold : Builtin.listFold.rule ∈ lib.rules
  mapFold : Builtin.mapFold.rule ∈ lib.rules
  others : ∀ r ∈ lib.rules, r = Builtin.listFold.rule ∨ r = Builtin.mapFold.rule ∨
    ∃ s, Token.sym s ∈ r.template ∧ (Token.sym s).isStructure = false

/-! ### Which rule acts where -/

theorem fits_eq_false_of_sym {tmpl ws : List Token} {s : String} (hs : Token.sym s ∈ tmpl)
    (hst : (Token.sym s).isStructure = false) (hws : Tokens.Structural ws) (q : Nat) :
    fits tmpl ws q = false := by
  cases h : fits tmpl ws q
  · rfl
  · have hq : q ≤ ws.length := by
      simp only [fits, Bool.and_eq_true, decide_eq_true_eq] at h
      omega
    rw [fits_drop tmpl ws hq] at h
    have ht := hws _ (List.mem_of_mem_drop (sym_mem_of_fits h hs))
    simp [Token.isValue, Token.kind, hst] at ht

theorem attempt_fold {b : Builtin} {s : String} (htmpl : b.template = [.sym s])
    (hsub : b.subordinateTo = []) {ws : List Token} {q : Nat} (hq : ws[q]? = some (.sym s)) :
    attempt b.rule ws q = (b.apply ws q).map (.rewritten b.rule q) := by
  have hfit : fits b.rule.template ws q = true := by
    rw [show b.rule.template = [.sym s] from htmpl]
    exact (fits_sym_iff s ws q).2 hq
  have heli : b.rule.eligible ws q = true := by
    simp [Rule.eligible, Builtin.rule, hsub]
  simp only [attempt, hfit, Bool.or_true, if_true, heli]
  rfl

theorem attempt_fold_eq_none {b : Builtin} {s : String} (htmpl : b.template = [.sym s])
    {ws : List Token} {q : Nat} (hq : ws[q]? ≠ some (.sym s)) : attempt b.rule ws q = none := by
  have hfit : fits b.rule.template ws q = false := by
    rw [show b.rule.template = [.sym s] from htmpl]
    cases h : fits [.sym s] ws q
    · rfl
    · exact absurd ((fits_sym_iff s ws q).1 h) hq
  simp only [attempt, hfit, Bool.or_false]
  rw [if_neg (by simp [Builtin.rule, htmpl])]

theorem attempt_eq_none_of_folds {lib : Library} (hlib : lib.Folds) {ws : List Token}
    (hws : Tokens.Structural ws) (q : Nat) {r : Rule} (hr : r ∈ lib.rules)
    (hl : r ≠ Builtin.listFold.rule) (hm : r ≠ Builtin.mapFold.rule) : attempt r ws q = none := by
  rcases hlib.others r hr with rfl | rfl | ⟨s, hs, hst⟩
  · exact absurd rfl hl
  · exact absurd rfl hm
  · have hne : r.template.isEmpty = false := by
      cases h : r.template with
      | nil => rw [h] at hs; cases hs
      | cons => rfl
    simp [attempt, fits_eq_false_of_sym hs hst hws q, hne]

theorem listFold_template : Builtin.listFold.template = [.sym "["] := rfl

theorem mapFold_template : Builtin.mapFold.template = [.sym "\x7b"] := rfl

/-- At an opening bracket of a structural workspace the rules do what the list fold does. -/
theorem findSome?_attempt_list {lib : Library} (hlib : lib.Folds) {ws : List Token}
    (hws : Tokens.Structural ws) {q : Nat} (hq : ws[q]? = some (.sym "[")) :
    lib.rules.findSome? (attempt · ws q) =
      (Builtin.listFold.apply ws q).map (Firing.rewritten Builtin.listFold.rule q) := by
  rw [findSome?_eq_of_forall_ne hlib.listFold fun r hr hne => ?_,
    attempt_fold listFold_template rfl hq]
  by_cases hrm : r = Builtin.mapFold.rule
  · rw [hrm]
    exact attempt_fold_eq_none mapFold_template (by rw [hq]; simp)
  · exact attempt_eq_none_of_folds hlib hws q hr hne hrm

theorem findSome?_attempt_map {lib : Library} (hlib : lib.Folds) {ws : List Token}
    (hws : Tokens.Structural ws) {q : Nat} (hq : ws[q]? = some (.sym "\x7b")) :
    lib.rules.findSome? (attempt · ws q) =
      (Builtin.mapFold.apply ws q).map (Firing.rewritten Builtin.mapFold.rule q) := by
  rw [findSome?_eq_of_forall_ne hlib.mapFold fun r hr hne => ?_,
    attempt_fold mapFold_template rfl hq]
  by_cases hrl : r = Builtin.listFold.rule
  · rw [hrl]
    exact attempt_fold_eq_none listFold_template (by rw [hq]; simp)
  · exact attempt_eq_none_of_folds hlib hws q hr hrl hne

theorem findSome?_attempt_eq_none_of_folds {lib : Library} (hlib : lib.Folds) {ws : List Token}
    (hws : Tokens.Structural ws) {q : Nat} (hl : ws[q]? ≠ some (.sym "["))
    (hm : ws[q]? ≠ some (.sym "\x7b")) : lib.rules.findSome? (attempt · ws q) = none := by
  rw [List.findSome?_eq_none_iff]
  intro r hr
  by_cases hrl : r = Builtin.listFold.rule
  · rw [hrl]
    exact attempt_fold_eq_none listFold_template hl
  · by_cases hrm : r = Builtin.mapFold.rule
    · rw [hrm]
      exact attempt_fold_eq_none mapFold_template hm
    · exact attempt_eq_none_of_folds hlib hws q hr hrl hrm

end Library

/-! ### The scans of the folds

The list fold reads a value and a comma at a time, and the map fold a key, a colon, a value and
a comma; what follows the items folded so far decides whether the fold succeeds. -/

namespace Builtin

theorem drop_two {ws rest : List Token} {i : Nat} {a b : Token} (h : ws.drop i = a :: b :: rest) :
    ws.drop (i + 2) = rest := by
  rw [← List.drop_drop, h]
  rfl

theorem drop_four {ws rest : List Token} {i : Nat} {a b c d : Token}
    (h : ws.drop i = a :: b :: c :: d :: rest) : ws.drop (i + 4) = rest := by
  rw [← List.drop_drop, h]
  rfl

theorem le_length_of_drop {ws rest : List Token} {i : Nat} (pre : List Token) (hne : pre ≠ [])
    (h : ws.drop i = pre ++ rest) : i + pre.length ≤ ws.length := by
  have hlen := congrArg List.length h
  have hpos : 0 < pre.length := List.length_pos_iff.2 hne
  simp only [List.length_drop, List.length_append] at hlen
  omega

theorem foldList_frame {ws : List Token} {start i : Nat} {items us rest : List Token}
    (hdrop : ws.drop i = Tokens.listFrame us ++ rest) (hus : ∀ u ∈ us, u.isValue = true) :
    foldList ws start i items = foldList ws start (i + 2 * us.length) (items ++ us) := by
  induction us generalizing i items with
  | nil => simp
  | cons u us ih =>
    have hd : ws.drop i = u :: .sym "," :: (Tokens.listFrame us ++ rest) := by
      simpa [Tokens.listFrame] using hdrop
    have hlen : i + 1 < ws.length := by
      have := le_length_of_drop [u, .sym ","] (by simp) hd
      simp at this
      omega
    rw [foldList, if_pos hlen, hd]
    simp only [hus u List.mem_cons_self, if_true, Token.isSym, beq_self_eq_true]
    rw [ih (drop_two hd) fun v hv => hus v (List.mem_cons_of_mem _ hv)]
    congr 1
    · simp only [List.length_cons]
      omega
    · simp

theorem foldList_stall_item {ws : List Token} {start i : Nat} {items rest : List Token} {o : Token}
    (hdrop : ws.drop i = o :: rest) (ho : o.isValue = false) : foldList ws start i items = none := by
  rw [foldList]
  split
  · rw [hdrop]
    cases rest with
    | nil => rfl
    | cons next after => simp [ho]
  · rfl

theorem foldList_stall_tail {ws : List Token} {start i : Nat} {items rest : List Token}
    {w o : Token} (hdrop : ws.drop i = w :: .sym "..." :: o :: rest) (hw : w.isValue = true)
    (ho : ∀ ts, o ≠ .list ts) : foldList ws start i items = none := by
  have hlen : i + 1 < ws.length := by
    have := le_length_of_drop [w, .sym "..."] (by simp) hdrop
    simp at this
    omega
  rw [foldList, if_pos hlen, hdrop]
  simp only [hw, if_true, Token.isSym]
  cases o with
  | list ts => exact absurd rfl (ho ts)
  | _ => simp

theorem foldList_close {ws : List Token} {start i : Nat} {items rest : List Token} {w : Token}
    (hdrop : ws.drop i = w :: .sym "]" :: rest) (hw : w.isValue = true) :
    foldList ws start i items = some (Tokens.splice ws start (i + 2) [.list (items ++ [w])]) := by
  have hlen : i + 1 < ws.length := by
    have := le_length_of_drop [w, .sym "]"] (by simp) hdrop
    simp at this
    omega
  rw [foldList, if_pos hlen, hdrop]
  simp [hw, Token.isSym]

theorem foldList_close_tail {ws : List Token} {start i : Nat} {items rest ts : List Token}
    {w : Token} (hdrop : ws.drop i = w :: .sym "..." :: .list ts :: .sym "]" :: rest)
    (hw : w.isValue = true) :
    foldList ws start i items =
      some (Tokens.splice ws start (i + 4) [.list (items ++ [w] ++ ts)]) := by
  have hlen : i + 1 < ws.length := by
    have := le_length_of_drop [w, .sym "...", .list ts, .sym "]"] (by simp) hdrop
    simp at this
    omega
  rw [foldList, if_pos hlen, hdrop]
  simp [hw, Token.isSym]

theorem foldMap_frame {ws : List Token} {start i : Nat} {entries es : List (Token × Token)}
    {rest : List Token} (hdrop : ws.drop i = Tokens.mapFrame es ++ rest)
    (hes : ∀ e ∈ es, e.1.isValue = true ∧ e.2.isValue = true) :
    foldMap ws start i entries = foldMap ws start (i + 4 * es.length) (entries ++ es) := by
  induction es generalizing i entries with
  | nil => simp
  | cons e es ih =>
    obtain ⟨k, v⟩ := e
    have hd : ws.drop i = k :: .sym ":" :: v :: .sym "," :: (Tokens.mapFrame es ++ rest) := by
      simpa [Tokens.mapFrame] using hdrop
    have hlen : i + 3 < ws.length := by
      have := le_length_of_drop [k, .sym ":", v, .sym ","] (by simp) hd
      simp at this
      omega
    obtain ⟨hk, hv⟩ := hes (k, v) List.mem_cons_self
    rw [foldMap, if_pos hlen, hd]
    simp only [hk, hv, Bool.and_true, if_true, Token.isSym, beq_self_eq_true]
    rw [ih (drop_four hd) fun f hf => hes f (List.mem_cons_of_mem _ hf)]
    congr 1
    · simp only [List.length_cons]
      omega
    · simp

theorem foldMap_stall_key {ws : List Token} {start i : Nat} {entries : List (Token × Token)}
    {rest : List Token} {o : Token} (hdrop : ws.drop i = o :: rest) (ho : o.isValue = false) :
    foldMap ws start i entries = none := by
  rw [foldMap]
  split
  · rw [hdrop]
    rcases rest with _ | ⟨_, _ | ⟨_, _ | ⟨_, _⟩⟩⟩
    · rfl
    · rfl
    · rfl
    · simp [ho]
  · rfl

theorem foldMap_stall_value {ws : List Token} {start i : Nat} {entries : List (Token × Token)}
    {rest : List Token} {k o : Token} (hdrop : ws.drop i = k :: .sym ":" :: o :: rest)
    (ho : o.isValue = false) : foldMap ws start i entries = none := by
  rw [foldMap]
  split
  · rw [hdrop]
    cases rest with
    | nil => rfl
    | cons next after => simp [ho]
  · rfl

theorem foldMap_stall_rest {ws : List Token} {start i : Nat} {entries : List (Token × Token)}
    {rest : List Token} {k v o : Token} (hdrop : ws.drop i = k :: .sym ":" :: v :: .sym "..." :: o :: rest)
    (hk : k.isValue = true) (hv : v.isValue = true) (ho : ∀ es, o ≠ .map es) :
    foldMap ws start i entries = none := by
  have hlen : i + 3 < ws.length := by
    have := le_length_of_drop [k, .sym ":", v, .sym "..."] (by simp) hdrop
    simp at this
    omega
  rw [foldMap, if_pos hlen, hdrop]
  simp only [hk, hv, Bool.and_true, Bool.true_and, Token.isSym]
  cases o with
  | map es => exact absurd rfl (ho es)
  | _ => simp

theorem foldMap_close {ws : List Token} {start i : Nat} {entries : List (Token × Token)}
    {rest : List Token} {k v : Token} (hdrop : ws.drop i = k :: .sym ":" :: v :: .sym "\x7d" :: rest)
    (hk : k.isValue = true) (hv : v.isValue = true) :
    foldMap ws start i entries =
      some (Tokens.splice ws start (i + 4) [.map (Entries.build (entries ++ [(k, v)]))]) := by
  have hlen : i + 3 < ws.length := by
    have := le_length_of_drop [k, .sym ":", v, .sym "\x7d"] (by simp) hdrop
    simp at this
    omega
  rw [foldMap, if_pos hlen, hdrop]
  simp [hk, hv, Token.isSym]

theorem foldMap_close_rest {ws : List Token} {start i : Nat} {entries rs : List (Token × Token)}
    {rest : List Token} {k v : Token}
    (hdrop : ws.drop i = k :: .sym ":" :: v :: .sym "..." :: .map rs :: .sym "\x7d" :: rest)
    (hk : k.isValue = true) (hv : v.isValue = true) :
    foldMap ws start i entries = some (Tokens.splice ws start (i + 6)
      [.map (Entries.merge rs (Entries.build (entries ++ [(k, v)])))]) := by
  have hlen : i + 3 < ws.length := by
    have := le_length_of_drop [k, .sym ":", v, .sym "..."] (by simp) hdrop
    simp at this
    omega
  rw [foldMap, if_pos hlen, hdrop]
  simp [hk, hv, Token.isSym]

theorem getElem?_of_drop {ws rest : List Token} {i : Nat} {t : Token} (h : ws.drop i = t :: rest) :
    ws[i]? = some t := by
  have := congrArg (·[0]?) h
  simpa using this

theorem listFold_apply_of_ne {ws : List Token} {q : Nat} (h : ws[q + 1]? ≠ some (.sym "]")) :
    listFold.apply ws q = foldList ws q (q + 1) [] := by
  simp only [apply]
  rw [if_neg]
  cases ht : ws[q + 1]? with
  | none => simp
  | some t =>
    simp only [Option.map_some, Option.getD_some, Bool.not_eq_true]
    cases hs : t.isSym "]"
    · rfl
    · exact absurd (by rw [ht, Token.isSym_eq_true.1 hs]) h

theorem mapFold_apply_of_ne {ws : List Token} {q : Nat} (h : ws[q + 1]? ≠ some (.sym "\x7d")) :
    mapFold.apply ws q = foldMap ws q (q + 1) [] := by
  simp only [apply]
  rw [if_neg]
  cases ht : ws[q + 1]? with
  | none => simp
  | some t =>
    simp only [Option.map_some, Option.getD_some, Bool.not_eq_true]
    cases hs : t.isSym "\x7d"
    · rfl
    · exact absurd (by rw [ht, Token.isSym_eq_true.1 hs]) h

end Builtin

namespace Tokens

theorem length_listFrame (us : List Token) : (listFrame us).length = 2 * us.length := by
  induction us with
  | nil => rfl
  | cons u us ih => simp [listFrame] at ih ⊢; omega

theorem length_mapFrame (es : List (Token × Token)) : (mapFrame es).length = 4 * es.length := by
  induction es with
  | nil => rfl
  | cons e es ih => simp [mapFrame] at ih ⊢; omega

theorem mem_listFrame {t : Token} {us : List Token} (h : t ∈ listFrame us) :
    t ∈ us ∨ t = .sym "," := by
  simp only [listFrame, List.mem_flatMap, List.mem_cons, List.not_mem_nil, or_false] at h
  obtain ⟨u, hu, rfl | rfl⟩ := h
  exacts [.inl hu, .inr rfl]

theorem mem_mapFrame {t : Token} {es : List (Token × Token)} (h : t ∈ mapFrame es) :
    (∃ e ∈ es, t = e.1 ∨ t = e.2) ∨ t = .sym ":" ∨ t = .sym "," := by
  simp only [mapFrame, List.mem_flatMap, List.mem_cons, List.not_mem_nil, or_false] at h
  obtain ⟨e, he, rfl | rfl | rfl | rfl⟩ := h
  exacts [.inl ⟨e, he, .inl rfl⟩, .inr (.inl rfl), .inl ⟨e, he, .inr rfl⟩, .inr (.inr rfl)]

theorem Opening.cons {F : List Token} (hF : Opening F) :
    ∃ f F', F = f :: F' ∧ (f = .sym "[" ∨ f = .sym "\x7b") ∧
      ∀ t ∈ F', t ≠ .sym "[" ∧ t ≠ .sym "\x7b" := by
  -- a value is no symbol, and the separators are other symbols
  have hval : ∀ {t : Token}, t.isValue = true → t ≠ .sym "[" ∧ t ≠ .sym "\x7b" := by
    rintro t ht
    constructor <;> rintro rfl <;> simp [Token.isValue, Token.kind] at ht
  cases hF with
  | item h =>
    refine ⟨_, _, rfl, .inl rfl, fun t ht => ?_⟩
    rcases mem_listFrame ht with ht | rfl
    exacts [hval (h t ht), by simp]
  | tail h hw =>
    refine ⟨_, _, rfl, .inl rfl, fun t ht => ?_⟩
    simp only [List.mem_append, List.mem_cons, List.not_mem_nil, or_false] at ht
    rcases ht with ht | rfl | rfl
    · rcases mem_listFrame ht with ht | rfl
      exacts [hval (h t ht), by simp]
    · exact hval hw
    · simp
  | key h =>
    refine ⟨_, _, rfl, .inr rfl, fun t ht => ?_⟩
    rcases mem_mapFrame ht with ⟨e, he, rfl | rfl⟩ | rfl | rfl
    exacts [hval (h e he).1, hval (h e he).2, by simp, by simp]
  | value h hk =>
    refine ⟨_, _, rfl, .inr rfl, fun t ht => ?_⟩
    simp only [List.mem_append, List.mem_cons, List.not_mem_nil, or_false] at ht
    rcases ht with ht | rfl | rfl
    · rcases mem_mapFrame ht with ⟨e, he, rfl | rfl⟩ | rfl | rfl
      exacts [hval (h e he).1, hval (h e he).2, by simp, by simp]
    · exact hval hk
    · simp
  | rest h hk hv =>
    refine ⟨_, _, rfl, .inr rfl, fun t ht => ?_⟩
    simp only [List.mem_append, List.mem_cons, List.not_mem_nil, or_false] at ht
    rcases ht with ht | rfl | rfl | rfl | rfl
    · rcases mem_mapFrame ht with ⟨e, he, rfl | rfl⟩ | rfl | rfl
      exacts [hval (h e he).1, hval (h e he).2, by simp, by simp]
    · exact hval hk
    · simp
    · exact hval hv
    · simp

theorem structural_listFrame {us : List Token} (hus : ∀ u ∈ us, u.isValue = true) :
    Structural (listFrame us) := by
  intro t ht
  rcases mem_listFrame ht with ht | rfl
  · simp [hus t ht]
  · simp [Token.isStructure]

theorem structural_mapFrame {es : List (Token × Token)}
    (hes : ∀ e ∈ es, e.1.isValue = true ∧ e.2.isValue = true) : Structural (mapFrame es) := by
  intro t ht
  rcases mem_mapFrame ht with ⟨e, he, rfl | rfl⟩ | rfl | rfl
  · simp [(hes e he).1]
  · simp [(hes e he).2]
  all_goals simp [Token.isStructure]

theorem Opening.structural {F : List Token} (hF : Opening F) : Structural F := by
  cases hF with
  | item h => simp [structural_cons, structural_listFrame h, Token.isStructure]
  | tail h hw => simp [structural_cons, structural_append, structural_listFrame h, hw,
      Token.isStructure]
  | key h => simp [structural_cons, structural_mapFrame h, Token.isStructure]
  | value h hk => simp [structural_cons, structural_append, structural_mapFrame h, hk,
      Token.isStructure]
  | rest h hk hv => simp [structural_cons, structural_append, structural_mapFrame h, hk, hv,
      Token.isStructure]

end Tokens

namespace Builtin

theorem drop_past {ws F B : List Token} {i : Nat} (h : ws.drop i = F ++ B) :
    ws.drop (i + F.length) = B := by
  rw [← List.drop_drop, h, List.drop_left]

theorem getElem?_succ_ne {ws F B : List Token} {q : Nat} (h : ws.drop (q + 1) = F ++ B)
    {c : Token} (hF : ∀ t ∈ F.head?, t ≠ c) (hB : F = [] → B.head? ≠ some c) :
    ws[q + 1]? ≠ some c := by
  rw [← List.head?_drop, h]
  rcases F with _ | ⟨t, F⟩
  · exact hB rfl
  · simpa using hF t rfl

theorem value_ne_sym {t : Token} (ht : t.isValue = true) (s : String) : t ≠ .sym s := by
  rintro rfl
  simp [Token.isValue, Token.kind] at ht

theorem listFold_apply_frame {ws B : List Token} {q : Nat} {us : List Token}
    (hdrop : ws.drop (q + 1) = Tokens.listFrame us ++ B) (hus : ∀ u ∈ us, u.isValue = true)
    (hB : us = [] → B.head? ≠ some (.sym "]")) :
    listFold.apply ws q = foldList ws q (q + 1 + 2 * us.length) us := by
  have hne : ws[q + 1]? ≠ some (.sym "]") := by
    refine getElem?_succ_ne hdrop (fun t ht => ?_) fun hnil => hB ?_
    · rcases us with _ | ⟨u, us⟩
      · cases ht
      · obtain rfl : u = t := by simpa [Tokens.listFrame] using ht
        exact value_ne_sym (hus u List.mem_cons_self) _
    · rcases us with _ | ⟨u, us⟩
      · rfl
      · simp [Tokens.listFrame] at hnil
  rw [listFold_apply_of_ne hne, foldList_frame hdrop hus, List.nil_append]

theorem mapFold_apply_frame {ws B : List Token} {q : Nat} {es : List (Token × Token)}
    (hdrop : ws.drop (q + 1) = Tokens.mapFrame es ++ B)
    (hes : ∀ e ∈ es, e.1.isValue = true ∧ e.2.isValue = true)
    (hB : es = [] → B.head? ≠ some (.sym "\x7d")) :
    mapFold.apply ws q = foldMap ws q (q + 1 + 4 * es.length) es := by
  have hne : ws[q + 1]? ≠ some (.sym "\x7d") := by
    refine getElem?_succ_ne hdrop (fun t ht => ?_) fun hnil => hB ?_
    · rcases es with _ | ⟨⟨k, v⟩, es⟩
      · cases ht
      · obtain rfl : k = t := by simpa [Tokens.mapFrame] using ht
        exact value_ne_sym (hes (k, v) List.mem_cons_self).1 _
    · rcases es with _ | ⟨e, es⟩
      · rfl
      · simp [Tokens.mapFrame] at hnil
  rw [mapFold_apply_of_ne hne, foldMap_frame hdrop hes, List.nil_append]

theorem listFold_apply_item {ws B : List Token} {q : Nat} {us : List Token} {o : Token}
    (hdrop : ws.drop (q + 1) = Tokens.listFrame us ++ o :: B) (hus : ∀ u ∈ us, u.isValue = true)
    (ho : o = .sym "[" ∨ o = .sym "\x7b") : listFold.apply ws q = none := by
  rw [listFold_apply_frame hdrop hus fun _ => by rcases ho with rfl | rfl <;> simp]
  refine foldList_stall_item (by rw [← Tokens.length_listFrame]; exact drop_past hdrop) ?_
  rcases ho with rfl | rfl <;> rfl

theorem listFold_apply_tail {ws B : List Token} {q : Nat} {us : List Token} {w o : Token}
    (hdrop : ws.drop (q + 1) = Tokens.listFrame us ++ w :: .sym "..." :: o :: B)
    (hus : ∀ u ∈ us, u.isValue = true) (hw : w.isValue = true)
    (ho : o = .sym "[" ∨ o = .sym "\x7b") : listFold.apply ws q = none := by
  rw [listFold_apply_frame hdrop hus fun _ => by simpa using value_ne_sym hw "]"]
  refine foldList_stall_tail (by rw [← Tokens.length_listFrame]; exact drop_past hdrop) hw ?_
  rcases ho with rfl | rfl <;> simp

theorem mapFold_apply_entry {ws B : List Token} {q : Nat} {es : List (Token × Token)}
    {o : Token} {mid : List Token} (hdrop : ws.drop (q + 1) = Tokens.mapFrame es ++ mid ++ o :: B)
    (hes : ∀ e ∈ es, e.1.isValue = true ∧ e.2.isValue = true)
    (hmid : mid = [] ∨ (∃ k, k.isValue = true ∧ mid = [k, .sym ":"]) ∨
      ∃ k v, k.isValue = true ∧ v.isValue = true ∧ mid = [k, .sym ":", v, .sym "..."])
    (ho : o = .sym "[" ∨ o = .sym "\x7b") : mapFold.apply ws q = none := by
  have hnot : o.isValue = false := by rcases ho with rfl | rfl <;> rfl
  have hB : es = [] → (mid ++ o :: B).head? ≠ some (.sym "\x7d") := fun _ => by
    rcases hmid with rfl | ⟨k, hk, rfl⟩ | ⟨k, v, hk, -, -, rfl⟩
    · rcases ho with rfl | rfl <;> simp
    all_goals simpa using value_ne_sym hk _
  rw [mapFold_apply_frame (List.append_assoc _ _ _ ▸ hdrop) hes hB]
  have hpast := drop_past (List.append_assoc _ _ _ ▸ hdrop)
  rw [Tokens.length_mapFrame] at hpast
  rcases hmid with rfl | ⟨k, hk, rfl⟩ | ⟨k, v, hk, hv, -, rfl⟩
  · exact foldMap_stall_key hpast hnot
  · exact foldMap_stall_value hpast hnot
  · exact foldMap_stall_rest hpast hk hv (by rcases ho with rfl | rfl <;> simp)

theorem listFold_apply_empty {ws : List Token} {q : Nat} (h : ws[q + 1]? = some (.sym "]")) :
    listFold.apply ws q = some (Tokens.splice ws q (q + 2) [.list []]) := by
  simp [apply, h, Token.isSym]

theorem mapFold_apply_empty {ws : List Token} {q : Nat} (h : ws[q + 1]? = some (.sym "\x7d")) :
    mapFold.apply ws q = some (Tokens.splice ws q (q + 2) [.map []]) := by
  simp [apply, h, Token.isSym]

end Builtin

namespace Library

/-! ### Passes that fire nothing before a bracket -/

/-- No rule fires at a position of `pre` in a structural workspace where a bracket opens right
after `pre`. -/
def Stuck (lib : Library) (pre : List Token) : Prop :=
  ∀ o rest, (o = .sym "[" ∨ o = .sym "\x7b") → Tokens.Structural (pre ++ o :: rest) →
    ∀ q < pre.length, lib.rules.findSome? (attempt · (pre ++ o :: rest) q) = none

theorem stuck_nil (lib : Library) : lib.Stuck [] :=
  fun _ _ _ _ q hq => absurd hq (Nat.not_lt_zero q)

/-- Where a bracket opens after an opening, the fold of
the opening's bracket stops there, and no rule acts on its values and separators. -/
theorem Stuck.push {lib : Library} (hlib : lib.Folds) {pre F : List Token} (hpre : lib.Stuck pre)
    (hF : Tokens.Opening F) : lib.Stuck (pre ++ F) := by
  intro o rest ho hws q hq
  obtain ⟨f, F', rfl, hf, hF'⟩ := hF.cons
  simp only [List.append_assoc, List.cons_append] at hws ⊢
  rcases Nat.lt_or_ge q pre.length with hlt | hge
  · exact hpre f (F' ++ o :: rest) hf hws q hlt
  rcases Nat.lt_or_eq_of_le hge with hgt | rfl
  · -- past the opening bracket: a value or a separator of the opening
    obtain ⟨j, rfl⟩ : ∃ j, q = pre.length + 1 + j := ⟨q - pre.length - 1, by omega⟩
    have hi : j < F'.length := by
      simp only [List.length_append, List.length_cons] at hq
      omega
    have hat : (pre ++ f :: (F' ++ o :: rest))[pre.length + 1 + j]? = some F'[j] := by
      rw [List.getElem?_append_right (by omega), show pre.length + 1 + j - pre.length = j + 1 by
        omega, List.getElem?_cons_succ, List.getElem?_append_left hi, List.getElem?_eq_getElem hi]
    obtain ⟨hl, hm⟩ := hF' _ (List.getElem_mem hi)
    exact findSome?_attempt_eq_none_of_folds hlib hws (by rw [hat]; simpa using hl)
      (by rw [hat]; simpa using hm)
  · -- the opening bracket: its fold stops at the bracket after the opening
    have hdrop : (pre ++ f :: (F' ++ o :: rest)).drop (pre.length + 1) = F' ++ o :: rest := by
      simp
    cases hF with
    | item h =>
      rw [findSome?_attempt_list hlib hws (by simp), Builtin.listFold_apply_item hdrop h ho]
      rfl
    | tail h hw =>
      rw [findSome?_attempt_list hlib hws (by simp),
        Builtin.listFold_apply_tail (by rw [hdrop, List.append_assoc]; rfl) h hw ho]
      rfl
    | key h =>
      rw [findSome?_attempt_map hlib hws (by simp),
        Builtin.mapFold_apply_entry (by rw [hdrop, List.append_nil]) h (.inl rfl) ho]
      rfl
    | value h hk =>
      rw [findSome?_attempt_map hlib hws (by simp),
        Builtin.mapFold_apply_entry hdrop h (.inr (.inl ⟨_, hk, rfl⟩)) ho]
      rfl
    | rest h hk hv =>
      rw [findSome?_attempt_map hlib hws (by simp),
        Builtin.mapFold_apply_entry hdrop h (.inr (.inr ⟨_, _, hk, hv, rfl⟩)) ho]
      rfl

theorem firing?_of_stuck {lib : Library} {pre rest : List Token} {o : Token} (hpre : lib.Stuck pre)
    (ho : o = .sym "[" ∨ o = .sym "\x7b") (hws : Tokens.Structural (pre ++ o :: rest)) {f : Firing}
    (hat : lib.rules.findSome? (attempt · (pre ++ o :: rest) pre.length) = some f) :
    lib.firing? (pre ++ o :: rest) = some f :=
  firing?_eq_of_first pre.length (by simp) (List.range pre.length)
    (fun q hq => hpre o rest ho hws q (List.mem_range.1 hq))
    (fun q hq hqS => absurd (List.mem_range.2 hq) hqS) hat

/-! ### Stretches of a reduction -/

/-- A stretch of a reduction: from `ws`, `n` passes, each one rewrite, lead to `ws'`, within any
budget and fuel that allow them. -/
def Passes (lib : Library) (ws ws' : List Token) (n : Nat) : Prop :=
  ∀ limit fuel depth (p : Progress), n ≤ fuel → p.steps + n ≤ limit + 1 →
    ∃ t, lib.reduceWith limit fuel depth ws p =
      lib.reduceWith limit (fuel - n) depth ws' ⟨p.steps + n, t⟩

namespace Passes

variable {lib : Library} {ws ws₁ ws₂ ws₃ : List Token} {n m : Nat}

theorem refl (ws : List Token) : lib.Passes ws ws 0 := by
  intro limit fuel depth p _ _
  exact ⟨p.trace, by simp⟩

theorem trans (h₁ : lib.Passes ws₁ ws₂ n) (h₂ : lib.Passes ws₂ ws₃ m) :
    lib.Passes ws₁ ws₃ (n + m) := by
  intro limit fuel depth p hfuel hbudget
  obtain ⟨t₁, e₁⟩ := h₁ limit fuel depth p (by omega) (by omega)
  obtain ⟨t₂, e₂⟩ := h₂ limit (fuel - n) depth ⟨p.steps + n, t₁⟩ (by omega) (by dsimp only; omega)
  refine ⟨t₂, ?_⟩
  rw [e₁, e₂, Nat.sub_sub, Nat.add_assoc]

theorem single {r : Rule} {pos : Nat} (h : lib.firing? ws₁ = some (.rewritten r pos ws₂)) :
    lib.Passes ws₁ ws₂ 1 := by
  intro limit fuel depth p hfuel hbudget
  exact ⟨_, reduceWith_rewritten (by omega) (by omega) h⟩

theorem cast (h : lib.Passes ws₁ ws₂ n) {ws₁' ws₂' : List Token} {n' : Nat} (h₁ : ws₁ = ws₁')
    (h₂ : ws₂ = ws₂') (hn : n = n') : lib.Passes ws₁' ws₂' n' := by
  subst h₁ h₂ hn
  exact h

end Passes

/-- A fold after a stuck prefix is the next pass. -/
theorem passes_fold {lib : Library} (hlib : lib.Folds) {pre post X : List Token} {o v : Token}
    {b : Builtin} {stop : Nat} (hpre : lib.Stuck pre)
    (hws : Tokens.Structural (pre ++ (o :: X) ++ post))
    (hb : (o = .sym "[" ∧ b = .listFold) ∨ (o = .sym "\x7b" ∧ b = .mapFold))
    (happly : b.apply (pre ++ (o :: X) ++ post) pre.length =
      some (Tokens.splice (pre ++ (o :: X) ++ post) pre.length stop [v]))
    (hstop : stop = pre.length + (X.length + 1)) :
    lib.Passes (pre ++ (o :: X) ++ post) (pre ++ v :: post) 1 := by
  have hsplice : Tokens.splice (pre ++ (o :: X) ++ post) pre.length stop [v] = pre ++ v :: post := by
    rw [hstop, List.append_assoc, Tokens.splice_append, show X.length + 1 = (o :: X).length from rfl,
      List.drop_left]
    simp
  rw [hsplice] at happly
  have hws' : Tokens.Structural (pre ++ o :: (X ++ post)) := by simpa using hws
  have hat : (pre ++ o :: (X ++ post))[pre.length]? = some o := by simp
  suffices hfire : lib.firing? (pre ++ (o :: X) ++ post) =
      some (.rewritten b.rule pre.length (pre ++ v :: post)) from Passes.single hfire
  rw [show pre ++ (o :: X) ++ post = pre ++ o :: (X ++ post) by simp]
  refine firing?_of_stuck hpre (hb.imp And.left And.left) hws' ?_
  rcases hb with ⟨rfl, rfl⟩ | ⟨rfl, rfl⟩
  · rw [findSome?_attempt_list hlib hws' hat, show pre ++ Token.sym "[" :: (X ++ post) =
      pre ++ (Token.sym "[" :: X) ++ post by simp, happly]
    rfl
  · rw [findSome?_attempt_map hlib hws' hat, show pre ++ Token.sym "\x7b" :: (X ++ post) =
      pre ++ (Token.sym "\x7b" :: X) ++ post by simp, happly]
    rfl

section Close

/-! Each closing bracket after a stuck prefix and a full frame folds in one pass. -/

variable {lib : Library} (hlib : lib.Folds) {pre post : List Token} (hpre : lib.Stuck pre)
include hlib hpre

theorem passes_close_empty_list (hws : Tokens.Structural (pre ++ [.sym "[", .sym "]"] ++ post)) :
    lib.Passes (pre ++ [.sym "[", .sym "]"] ++ post) (pre ++ .list [] :: post) 1 :=
  passes_fold hlib hpre hws (.inl ⟨rfl, rfl⟩) (Builtin.listFold_apply_empty (by simp)) rfl

theorem passes_close_empty_map (hws : Tokens.Structural (pre ++ [.sym "\x7b", .sym "\x7d"] ++ post)) :
    lib.Passes (pre ++ [.sym "\x7b", .sym "\x7d"] ++ post) (pre ++ .map [] :: post) 1 :=
  passes_fold hlib hpre hws (.inr ⟨rfl, rfl⟩) (Builtin.mapFold_apply_empty (by simp)) rfl

theorem passes_close_list {us : List Token} {w : Token} (hus : ∀ u ∈ us, u.isValue = true)
    (hw : w.isValue = true)
    (hws : Tokens.Structural (pre ++ (.sym "[" :: (Tokens.listFrame us ++ [w, .sym "]"])) ++ post)) :
    lib.Passes (pre ++ (.sym "[" :: (Tokens.listFrame us ++ [w, .sym "]"])) ++ post)
      (pre ++ .list (us ++ [w]) :: post) 1 := by
  have hdrop : (pre ++ (.sym "[" :: (Tokens.listFrame us ++ [w, .sym "]"])) ++ post).drop
      (pre.length + 1) = Tokens.listFrame us ++ w :: .sym "]" :: post := by simp
  have happly :=
    Builtin.listFold_apply_frame hdrop hus fun _ => by simpa using Builtin.value_ne_sym hw "]"
  rw [Builtin.foldList_close (Tokens.length_listFrame us ▸ Builtin.drop_past hdrop) hw] at happly
  exact passes_fold hlib hpre hws (.inl ⟨rfl, rfl⟩) happly (by simp [Tokens.length_listFrame]; omega)

theorem passes_close_tail {us ts : List Token} {w : Token} (hus : ∀ u ∈ us, u.isValue = true)
    (hw : w.isValue = true)
    (hws : Tokens.Structural (pre ++ (.sym "[" :: (Tokens.listFrame us ++
      [w, .sym "...", .list ts, .sym "]"])) ++ post)) :
    lib.Passes (pre ++ (.sym "[" :: (Tokens.listFrame us ++ [w, .sym "...", .list ts, .sym "]"]))
      ++ post) (pre ++ .list (us ++ [w] ++ ts) :: post) 1 := by
  have hdrop : (pre ++ (.sym "[" :: (Tokens.listFrame us ++ [w, .sym "...", .list ts, .sym "]"]))
      ++ post).drop (pre.length + 1) =
      Tokens.listFrame us ++ w :: .sym "..." :: .list ts :: .sym "]" :: post := by simp
  have happly :=
    Builtin.listFold_apply_frame hdrop hus fun _ => by simpa using Builtin.value_ne_sym hw "]"
  rw [Builtin.foldList_close_tail (Tokens.length_listFrame us ▸ Builtin.drop_past hdrop) hw] at happly
  exact passes_fold hlib hpre hws (.inl ⟨rfl, rfl⟩) happly (by simp [Tokens.length_listFrame]; omega)

theorem passes_close_map {es : List (Token × Token)} {k v : Token}
    (hes : ∀ e ∈ es, e.1.isValue = true ∧ e.2.isValue = true) (hk : k.isValue = true)
    (hv : v.isValue = true)
    (hws : Tokens.Structural (pre ++ (.sym "\x7b" :: (Tokens.mapFrame es ++
      [k, .sym ":", v, .sym "\x7d"])) ++ post)) :
    lib.Passes (pre ++ (.sym "\x7b" :: (Tokens.mapFrame es ++ [k, .sym ":", v, .sym "\x7d"])) ++ post)
      (pre ++ .map (Entries.build (es ++ [(k, v)])) :: post) 1 := by
  have hdrop : (pre ++ (.sym "\x7b" :: (Tokens.mapFrame es ++ [k, .sym ":", v, .sym "\x7d"]))
      ++ post).drop (pre.length + 1) =
      Tokens.mapFrame es ++ k :: .sym ":" :: v :: .sym "\x7d" :: post := by simp
  have happly :=
    Builtin.mapFold_apply_frame hdrop hes fun _ => by simpa using Builtin.value_ne_sym hk "\x7d"
  rw [Builtin.foldMap_close (Tokens.length_mapFrame es ▸ Builtin.drop_past hdrop) hk hv] at happly
  exact passes_fold hlib hpre hws (.inr ⟨rfl, rfl⟩) happly (by simp [Tokens.length_mapFrame]; omega)

theorem passes_close_rest {es rs : List (Token × Token)} {k v : Token}
    (hes : ∀ e ∈ es, e.1.isValue = true ∧ e.2.isValue = true) (hk : k.isValue = true)
    (hv : v.isValue = true)
    (hws : Tokens.Structural (pre ++ (.sym "\x7b" :: (Tokens.mapFrame es ++
      [k, .sym ":", v, .sym "...", .map rs, .sym "\x7d"])) ++ post)) :
    lib.Passes (pre ++ (.sym "\x7b" :: (Tokens.mapFrame es ++
      [k, .sym ":", v, .sym "...", .map rs, .sym "\x7d"])) ++ post)
      (pre ++ .map (Entries.merge rs (Entries.build (es ++ [(k, v)]))) :: post) 1 := by
  have hdrop : (pre ++ (.sym "\x7b" :: (Tokens.mapFrame es ++
      [k, .sym ":", v, .sym "...", .map rs, .sym "\x7d"])) ++ post).drop (pre.length + 1) =
      Tokens.mapFrame es ++ k :: .sym ":" :: v :: .sym "..." :: .map rs :: .sym "\x7d" :: post := by
    simp
  have happly :=
    Builtin.mapFold_apply_frame hdrop hes fun _ => by simpa using Builtin.value_ne_sym hk "\x7d"
  rw [Builtin.foldMap_close_rest (Tokens.length_mapFrame es ▸ Builtin.drop_past hdrop) hk hv] at happly
  exact passes_fold hlib hpre hws (.inr ⟨rfl, rfl⟩) happly (by simp [Tokens.length_mapFrame]; omega)

end Close

end Library

/-! ### What a written pattern folds to -/

namespace Written

section Fold

attribute [local simp] fold? foldItems? foldEntries?

theorem fold?_word {t W : Token} (h : (word t).fold? = some W) : t.isValue = true ∧ W = t := by
  by_cases ht : t.isValue = true <;> simp_all

theorem fold?_list {xs : List Written} {W : Token} (h : (list xs).fold? = some W) :
    ∃ vs, foldItems? xs = some vs ∧ W = .list vs := by
  simp only [fold?, Option.map_eq_some_iff] at h
  obtain ⟨vs, hvs, rfl⟩ := h
  exact ⟨vs, hvs, rfl⟩

theorem fold?_listTail {xs : List Written} {t : Written} {W : Token}
    (h : (listTail xs t).fold? = some W) :
    xs ≠ [] ∧ ∃ vs ts, foldItems? xs = some vs ∧ t.fold? = some (.list ts) ∧ W = .list (vs ++ ts) := by
  rcases xs with _ | ⟨x, xs⟩
  · simp at h
  · simp only [fold?] at h
    split at h
    · next vs ts hvs hts => exact ⟨List.cons_ne_nil x xs, vs, ts, hvs, hts, (Option.some.inj h).symm⟩
    · cases h

theorem fold?_map {es : List (Written × Written)} {W : Token} (h : (map es).fold? = some W) :
    ∃ es', foldEntries? es = some es' ∧ W = .map (Entries.build es') := by
  simp only [fold?, Option.map_eq_some_iff] at h
  obtain ⟨es', hes, rfl⟩ := h
  exact ⟨es', hes, rfl⟩

theorem fold?_mapRest {es : List (Written × Written)} {r : Written} {W : Token}
    (h : (mapRest es r).fold? = some W) :
    es ≠ [] ∧ ∃ es' rs, foldEntries? es = some es' ∧ r.fold? = some (.map rs) ∧
      W = .map (Entries.merge rs (Entries.build es')) := by
  rcases es with _ | ⟨e, es⟩
  · simp at h
  · simp only [fold?] at h
    split at h
    · next es' rs hes hrs =>
      exact ⟨List.cons_ne_nil e es, es', rs, hes, hrs, (Option.some.inj h).symm⟩
    · cases h

theorem foldItems?_cons {x : Written} {xs : List Written} {vs : List Token}
    (h : foldItems? (x :: xs) = some vs) :
    ∃ v vs', x.fold? = some v ∧ foldItems? xs = some vs' ∧ vs = v :: vs' := by
  simp only [foldItems?] at h
  split at h
  · next v vs' hv hvs => exact ⟨v, vs', hv, hvs, (Option.some.inj h).symm⟩
  · cases h

theorem foldEntries?_cons {k v : Written} {es : List (Written × Written)}
    {es' : List (Token × Token)} (h : foldEntries? ((k, v) :: es) = some es') :
    ∃ k' v' es'', k.fold? = some k' ∧ v.fold? = some v' ∧ foldEntries? es = some es'' ∧
      es' = (k', v') :: es'' := by
  simp only [foldEntries?] at h
  split at h
  · next k' v' es'' hk hv hes => exact ⟨k', v', es'', hk, hv, hes, (Option.some.inj h).symm⟩
  · cases h

end Fold

theorem fold?_isValue {T : Written} {W : Token} (h : T.fold? = some W) : W.isValue = true := by
  cases T with
  | word t => obtain ⟨ht, rfl⟩ := fold?_word h; exact ht
  | list xs => obtain ⟨vs, -, rfl⟩ := fold?_list h; rfl
  | listTail xs t => obtain ⟨-, vs, ts, -, -, rfl⟩ := fold?_listTail h; rfl
  | map es => obtain ⟨es', -, rfl⟩ := fold?_map h; rfl
  | mapRest es r => obtain ⟨-, es', rs, -, -, rfl⟩ := fold?_mapRest h; rfl

theorem foldItems?_folds {xs : List Written} {vs : List Token} (h : foldItems? xs = some vs) :
    ∀ x ∈ xs, ∃ v, x.fold? = some v := by
  induction xs generalizing vs with
  | nil => simp
  | cons x xs ih =>
    obtain ⟨v, vs', hv, hvs, -⟩ := foldItems?_cons h
    intro y hy
    rcases List.mem_cons.1 hy with rfl | hy
    exacts [⟨v, hv⟩, ih hvs y hy]

theorem foldItems?_values {xs : List Written} {vs : List Token} (h : foldItems? xs = some vs) :
    ∀ v ∈ vs, v.isValue = true := by
  induction xs generalizing vs with
  | nil => simp_all [foldItems?]
  | cons x xs ih =>
    obtain ⟨v, vs', hv, hvs, rfl⟩ := foldItems?_cons h
    intro u hu
    rcases List.mem_cons.1 hu with rfl | hu
    exacts [fold?_isValue hv, ih hvs u hu]

theorem foldEntries?_folds {es : List (Written × Written)} {es' : List (Token × Token)}
    (h : foldEntries? es = some es') :
    ∀ e ∈ es, (∃ k', e.1.fold? = some k') ∧ ∃ v', e.2.fold? = some v' := by
  induction es generalizing es' with
  | nil => simp
  | cons e es ih =>
    obtain ⟨k, v⟩ := e
    obtain ⟨k', v', es'', hk, hv, hes, -⟩ := foldEntries?_cons h
    intro f hf
    rcases List.mem_cons.1 hf with rfl | hf
    exacts [⟨⟨k', hk⟩, ⟨v', hv⟩⟩, ih hes f hf]

theorem foldEntries?_values {es : List (Written × Written)} {es' : List (Token × Token)}
    (h : foldEntries? es = some es') :
    ∀ e ∈ es', e.1.isValue = true ∧ e.2.isValue = true := by
  induction es generalizing es' with
  | nil => simp_all [foldEntries?]
  | cons e es ih =>
    obtain ⟨k, v⟩ := e
    obtain ⟨k', v', es'', hk, hv, hes, rfl⟩ := foldEntries?_cons h
    intro f hf
    rcases List.mem_cons.1 hf with rfl | hf
    exacts [⟨fold?_isValue hk, fold?_isValue hv⟩, ih hes f hf]

theorem structural_text {T : Written} {W : Token} (h : T.fold? = some W) :
    Tokens.Structural T.text := by
  induction T using Written.induction generalizing W with
  | word t =>
    obtain ⟨ht, rfl⟩ := fold?_word h
    simp [Tokens.Structural, text, ht]
  | list xs ih =>
    obtain ⟨vs, hvs, -⟩ := fold?_list h
    intro t ht
    rcases mem_text_list ht with hs | ⟨x, hx, ht⟩
    · simp [hs]
    · obtain ⟨v, hv⟩ := foldItems?_folds hvs x hx
      exact ih x hx hv t ht
  | listTail xs r ih ihr =>
    obtain ⟨-, vs, ts, hvs, hts, -⟩ := fold?_listTail h
    intro t ht
    rcases mem_text_listTail ht with hs | ⟨x, hx, ht⟩ | ht
    · simp [hs]
    · obtain ⟨v, hv⟩ := foldItems?_folds hvs x hx
      exact ih x hx hv t ht
    · exact ihr hts t ht
  | map es ih =>
    obtain ⟨es', hes, -⟩ := fold?_map h
    intro t ht
    rcases mem_text_map ht with hs | ⟨e, he, ht | ht⟩
    · simp [hs]
    · obtain ⟨⟨k', hk⟩, -⟩ := foldEntries?_folds hes e he
      exact (ih e he).1 hk t ht
    · obtain ⟨-, ⟨v', hv⟩⟩ := foldEntries?_folds hes e he
      exact (ih e he).2 hv t ht
  | mapRest es r ih ihr =>
    obtain ⟨-, es', rs, hes, hrs, -⟩ := fold?_mapRest h
    intro t ht
    rcases mem_text_mapRest ht with hs | ⟨e, he, ht | ht⟩ | ht
    · simp [hs]
    · obtain ⟨⟨k', hk⟩, -⟩ := foldEntries?_folds hes e he
      exact (ih e he).1 hk t ht
    · obtain ⟨-, ⟨v', hv⟩⟩ := foldEntries?_folds hes e he
      exact (ih e he).2 hv t ht
    · exact ihr hrs t ht

theorem structural_textItems {xs : List Written} {vs : List Token} (h : foldItems? xs = some vs) :
    Tokens.Structural (textItems xs) := by
  intro t ht
  rcases mem_textItems ht with hs | ⟨x, hx, ht⟩
  · simp [hs]
  · obtain ⟨v, hv⟩ := foldItems?_folds h x hx
    exact structural_text hv t ht

theorem structural_textEntries {es : List (Written × Written)} {es' : List (Token × Token)}
    (h : foldEntries? es = some es') : Tokens.Structural (textEntries es) := by
  intro t ht
  rcases mem_textEntries ht with hs | ⟨e, he, ht | ht⟩
  · simp [hs]
  · obtain ⟨⟨k', hk⟩, -⟩ := foldEntries?_folds h e he
    exact structural_text hk t ht
  · obtain ⟨-, ⟨v', hv⟩⟩ := foldEntries?_folds h e he
    exact structural_text hv t ht

end Written

namespace Library

/-! ### The fold of a whole text -/

/-- A prefix the text of a pattern can fold after: values and symbols of the bracket language,
in which no rule fires whatever bracket opens after it. -/
def Ready (lib : Library) (pre : List Token) : Prop := Tokens.Structural pre ∧ lib.Stuck pre

theorem ready_nil (lib : Library) : lib.Ready [] :=
  ⟨Tokens.structural_nil, stuck_nil lib⟩

theorem Ready.push {lib : Library} (hlib : lib.Folds) {pre F : List Token} (h : lib.Ready pre)
    (hF : Tokens.Opening F) : lib.Ready (pre ++ F) :=
  ⟨Tokens.structural_append.2 ⟨h.1, hF.structural⟩, h.2.push hlib hF⟩

/-- The text of `T` folds: after a ready prefix and before structural tokens, the rules turn it
into the value `T` folds to, one pass per bracket. -/
def Refolds (lib : Library) (T : Written) : Prop :=
  ∀ W, T.fold? = some W → ∀ pre post, lib.Ready pre → Tokens.Structural post →
    lib.Passes (pre ++ T.text ++ post) (pre ++ W :: post) T.brackets

theorem refolds_word (lib : Library) (t : Token) : lib.Refolds (.word t) := by
  intro W h pre post _ _
  obtain ⟨-, rfl⟩ := Written.fold?_word h
  exact (Passes.refl _).cast (by simp [Written.text]) rfl rfl

section Refolds

variable {lib : Library} (hlib : lib.Folds)
include hlib

theorem passes_items {x : Written} {xs : List Written} (hx : lib.Refolds x)
    (hxs : ∀ y ∈ xs, lib.Refolds y) {v : Token} {vs : List Token} (hv : x.fold? = some v)
    (hvs : Written.foldItems? xs = some vs) {pre us rest : List Token} (hpre : lib.Ready pre)
    (hus : ∀ u ∈ us, u.isValue = true) (hrest : Tokens.Structural rest) :
    ∃ us' w, us' ++ [w] = us ++ v :: vs ∧
      lib.Passes (pre ++ (.sym "[" :: Tokens.listFrame us) ++ x.text ++
          (Written.textItems xs ++ rest))
        (pre ++ (.sym "[" :: Tokens.listFrame us') ++ w :: rest)
        (x.brackets + Written.bracketsItems xs) := by
  induction xs generalizing x v vs us with
  | nil =>
    obtain rfl : vs = [] := by simpa [Written.foldItems?] using hvs.symm
    refine ⟨us, v, rfl, ?_⟩
    exact (hx v hv _ rest (hpre.push hlib (.item hus)) hrest).cast rfl (by simp)
      (by simp [Written.bracketsItems])
  | cons y ys ih =>
    obtain ⟨v', vs', hv', hvs', rfl⟩ := Written.foldItems?_cons hvs
    have hpost : Tokens.Structural (Written.textItems (y :: ys) ++ rest) :=
      Tokens.structural_append.2 ⟨Written.structural_textItems hvs, hrest⟩
    have h₁ := hx v hv _ _ (hpre.push hlib (.item hus)) hpost
    have hus' : ∀ u ∈ us ++ [v], u.isValue = true := by
      intro u hu
      rcases List.mem_append.1 hu with hu | hu
      · exact hus u hu
      · rw [List.mem_singleton.1 hu]
        exact Written.fold?_isValue hv
    obtain ⟨us', w, heq, h₂⟩ := ih (hxs y List.mem_cons_self)
      (fun z hz => hxs z (List.mem_cons_of_mem _ hz)) hv' hvs' hus'
    refine ⟨us', w, by simp [heq], ?_⟩
    refine (h₁.trans (h₂.cast ?_ rfl rfl)).cast rfl rfl ?_
    · simp [Tokens.listFrame_append_singleton, Written.textItems_cons]
    · simp only [Written.bracketsItems]

theorem passes_entry {k v : Written} (hk : lib.Refolds k) (hv : lib.Refolds v) {k' v' : Token}
    (hk' : k.fold? = some k') (hv' : v.fold? = some v') {pre post : List Token}
    {es₀ : List (Token × Token)} (hpre : lib.Ready pre)
    (hes₀ : ∀ e ∈ es₀, e.1.isValue = true ∧ e.2.isValue = true) (hpost : Tokens.Structural post) :
    lib.Passes (pre ++ (.sym "\x7b" :: Tokens.mapFrame es₀) ++ k.text ++
        (.sym ":" :: (v.text ++ post)))
      (pre ++ (.sym "\x7b" :: Tokens.mapFrame es₀) ++ k' :: .sym ":" :: v' :: post)
      (k.brackets + v.brackets) := by
  have h₁ := hk k' hk' _ (.sym ":" :: (v.text ++ post)) (hpre.push hlib (.key hes₀))
    (by simp [Tokens.structural_cons, Tokens.structural_append, Written.structural_text hv',
      hpost, Token.isStructure])
  have h₂ := hv v' hv' _ post (hpre.push hlib (.value hes₀ (Written.fold?_isValue hk'))) hpost
  exact h₁.trans (h₂.cast (by simp) (by simp) rfl)

theorem passes_entries {k v : Written} {es : List (Written × Written)} (hk : lib.Refolds k)
    (hv : lib.Refolds v) (hes : ∀ e ∈ es, lib.Refolds e.1 ∧ lib.Refolds e.2) {k' v' : Token}
    {fes : List (Token × Token)} (hk' : k.fold? = some k') (hv' : v.fold? = some v')
    (hfes : Written.foldEntries? es = some fes) {pre rest : List Token}
    {es₀ : List (Token × Token)} (hpre : lib.Ready pre)
    (hes₀ : ∀ e ∈ es₀, e.1.isValue = true ∧ e.2.isValue = true) (hrest : Tokens.Structural rest) :
    ∃ es₁ k₁ v₁, es₁ ++ [(k₁, v₁)] = es₀ ++ (k', v') :: fes ∧
      lib.Passes (pre ++ (.sym "\x7b" :: Tokens.mapFrame es₀) ++ k.text ++
          (.sym ":" :: (v.text ++ (Written.textEntries es ++ rest))))
        (pre ++ (.sym "\x7b" :: Tokens.mapFrame es₁) ++ k₁ :: .sym ":" :: v₁ :: rest)
        (k.brackets + v.brackets + Written.bracketsEntries es) := by
  induction es generalizing k v k' v' fes es₀ with
  | nil =>
    obtain rfl : fes = [] := by simpa [Written.foldEntries?] using hfes.symm
    exact ⟨es₀, k', v', rfl, (passes_entry hlib hk hv hk' hv' hpre hes₀ hrest).cast
      (by simp [Written.textEntries]) rfl (by simp [Written.bracketsEntries])⟩
  | cons e es ih =>
    obtain ⟨k₂, v₂⟩ := e
    obtain ⟨k₂', v₂', fes', hk₂, hv₂, hfes', rfl⟩ := Written.foldEntries?_cons hfes
    have hpost : Tokens.Structural (Written.textEntries ((k₂, v₂) :: es) ++ rest) :=
      Tokens.structural_append.2 ⟨Written.structural_textEntries hfes, hrest⟩
    have hes₀' : ∀ e ∈ es₀ ++ [(k', v')], e.1.isValue = true ∧ e.2.isValue = true := by
      intro e he
      rcases List.mem_append.1 he with he | he
      · exact hes₀ e he
      · rw [List.mem_singleton.1 he]
        exact ⟨Written.fold?_isValue hk', Written.fold?_isValue hv'⟩
    obtain ⟨es₁, k₁, v₁, heq, h₃⟩ := ih (hes _ List.mem_cons_self).1
      (hes _ List.mem_cons_self).2 (fun f hf => hes f (List.mem_cons_of_mem _ hf)) hk₂ hv₂ hfes'
      hes₀'
    refine ⟨es₁, k₁, v₁, by simp [heq], ?_⟩
    refine ((passes_entry hlib hk hv hk' hv' hpre hes₀ hpost).trans (h₃.cast ?_ rfl rfl)).cast
      rfl rfl ?_
    · simp [Tokens.mapFrame_append_singleton, Written.textEntries_cons]
    · simp only [Written.bracketsEntries]

theorem refolds_list {xs : List Written} (ih : ∀ x ∈ xs, lib.Refolds x) :
    lib.Refolds (.list xs) := by
  intro W h pre post hpre hpost
  obtain ⟨vs, hvs, rfl⟩ := Written.fold?_list h
  rcases xs with _ | ⟨x, xs⟩
  · obtain rfl : vs = [] := by simpa [Written.foldItems?] using hvs.symm
    exact (passes_close_empty_list hlib hpre.2 (by simp [Tokens.structural_append,
      Tokens.structural_cons, hpre.1, hpost, Token.isStructure])).cast
      (by simp [Written.text, Written.textItems]) rfl rfl
  · obtain ⟨v, vs', hv, hvs', rfl⟩ := Written.foldItems?_cons hvs
    obtain ⟨us', w, heq, h₁⟩ := passes_items hlib (ih x List.mem_cons_self)
      (fun y hy => ih y (List.mem_cons_of_mem _ hy)) hv hvs' hpre
      (by simp : ∀ u ∈ ([] : List Token), u.isValue = true)
      (by simp [Tokens.structural_cons, hpost, Token.isStructure] :
        Tokens.Structural (.sym "]" :: post))
    -- the items folded are the values of the items, the last one not yet followed by a comma
    have hall : ∀ u ∈ us' ++ [w], u.isValue = true := by
      rw [heq, List.nil_append]
      exact Written.foldItems?_values hvs
    have hus' : ∀ u ∈ us', u.isValue = true := fun u hu => hall u (List.mem_append_left _ hu)
    have hw : w.isValue = true := hall w (List.mem_append_right _ (List.mem_singleton_self w))
    have hws : Tokens.Structural (pre ++ (.sym "[" :: (Tokens.listFrame us' ++ [w, .sym "]"])) ++
        post) := by
      simp [Tokens.structural_append, Tokens.structural_cons, hpre.1,
        Tokens.structural_listFrame hus', hw, hpost, Token.isStructure]
    have h₂ := passes_close_list hlib hpre.2 hus' hw hws
    exact (h₁.trans (h₂.cast (by simp) (by rw [heq, List.nil_append]) rfl)).cast
      (by simp [Written.text_list_cons]) rfl rfl

theorem refolds_listTail {xs : List Written} {t : Written} (ih : ∀ x ∈ xs, lib.Refolds x)
    (iht : lib.Refolds t) : lib.Refolds (.listTail xs t) := by
  intro W h pre post hpre hpost
  obtain ⟨hne, vs, ts, hvs, hts, rfl⟩ := Written.fold?_listTail h
  obtain ⟨x, xs, rfl⟩ := List.exists_cons_of_ne_nil hne
  obtain ⟨v, vs', hv, hvs', rfl⟩ := Written.foldItems?_cons hvs
  obtain ⟨us', w, heq, h₁⟩ := passes_items hlib (ih x List.mem_cons_self)
    (fun y hy => ih y (List.mem_cons_of_mem _ hy)) hv hvs' hpre
    (by simp : ∀ u ∈ ([] : List Token), u.isValue = true)
    (by simp [Tokens.structural_cons, Tokens.structural_append, Written.structural_text hts,
      hpost, Token.isStructure] : Tokens.Structural (.sym "..." :: (t.text ++ .sym "]" :: post)))
  have hall : ∀ u ∈ us' ++ [w], u.isValue = true := by
    rw [heq, List.nil_append]
    exact Written.foldItems?_values hvs
  have hus' : ∀ u ∈ us', u.isValue = true := fun u hu => hall u (List.mem_append_left _ hu)
  have hw : w.isValue = true := hall w (List.mem_append_right _ (List.mem_singleton_self w))
  -- the tail folds after the items and the dots, to a list
  have h₂ := iht (.list ts) hts _ (.sym "]" :: post) (hpre.push hlib (.tail hus' hw))
    (by simp [Tokens.structural_cons, hpost, Token.isStructure])
  have hws : Tokens.Structural (pre ++ (.sym "[" :: (Tokens.listFrame us' ++
      [w, .sym "...", .list ts, .sym "]"])) ++ post) := by
    simp [Tokens.structural_append, Tokens.structural_cons, hpre.1,
      Tokens.structural_listFrame hus', hw, hpost, Token.isStructure]
  have h₃ := passes_close_tail hlib hpre.2 hus' hw hws
  exact ((h₁.trans (h₂.cast (by simp) rfl rfl)).trans
    (h₃.cast (by simp) (by rw [heq, List.nil_append]) rfl)).cast
    (by simp [Written.text_listTail_cons]) rfl rfl

theorem refolds_map {es : List (Written × Written)}
    (ih : ∀ e ∈ es, lib.Refolds e.1 ∧ lib.Refolds e.2) : lib.Refolds (.map es) := by
  intro W h pre post hpre hpost
  obtain ⟨fes, hfes, rfl⟩ := Written.fold?_map h
  rcases es with _ | ⟨⟨k, v⟩, es⟩
  · obtain rfl : fes = [] := by simpa [Written.foldEntries?] using hfes.symm
    exact (passes_close_empty_map hlib hpre.2 (by simp [Tokens.structural_append,
      Tokens.structural_cons, hpre.1, hpost, Token.isStructure])).cast
      (by simp [Written.text, Written.textEntries]) rfl rfl
  · obtain ⟨k', v', fes', hk, hv, hfes', rfl⟩ := Written.foldEntries?_cons hfes
    obtain ⟨es₁, k₁, v₁, heq, h₁⟩ := passes_entries hlib (ih _ List.mem_cons_self).1
      (ih _ List.mem_cons_self).2 (fun f hf => ih f (List.mem_cons_of_mem _ hf)) hk hv hfes'
      hpre (by simp : ∀ e ∈ ([] : List (Token × Token)), e.1.isValue = true ∧ e.2.isValue = true)
      (by simp [Tokens.structural_cons, hpost, Token.isStructure] :
        Tokens.Structural (.sym "\x7d" :: post))
    -- the entries folded are the entries' values, the last one not yet followed by a comma
    have hall : ∀ e ∈ es₁ ++ [(k₁, v₁)], e.1.isValue = true ∧ e.2.isValue = true := by
      rw [heq, List.nil_append]
      exact Written.foldEntries?_values hfes
    have hes₁ := fun e he => hall e (List.mem_append_left _ he)
    obtain ⟨hk₁, hv₁⟩ := hall (k₁, v₁) (List.mem_append_right _ (List.mem_singleton_self _))
    have hws : Tokens.Structural (pre ++ (.sym "\x7b" :: (Tokens.mapFrame es₁ ++
        [k₁, .sym ":", v₁, .sym "\x7d"])) ++ post) := by
      simp [Tokens.structural_append, Tokens.structural_cons, hpre.1,
        Tokens.structural_mapFrame hes₁, hk₁, hv₁, hpost, Token.isStructure]
    have h₂ := passes_close_map hlib hpre.2 hes₁ hk₁ hv₁ hws
    exact (h₁.trans (h₂.cast (by simp) (by rw [heq, List.nil_append]) rfl)).cast
      (by simp [Written.text_map_cons]) rfl rfl

theorem refolds_mapRest {es : List (Written × Written)} {r : Written}
    (ih : ∀ e ∈ es, lib.Refolds e.1 ∧ lib.Refolds e.2) (ihr : lib.Refolds r) :
    lib.Refolds (.mapRest es r) := by
  intro W h pre post hpre hpost
  obtain ⟨hne, fes, rs, hfes, hrs, rfl⟩ := Written.fold?_mapRest h
  obtain ⟨⟨k, v⟩, es, rfl⟩ := List.exists_cons_of_ne_nil hne
  obtain ⟨k', v', fes', hk, hv, hfes', rfl⟩ := Written.foldEntries?_cons hfes
  obtain ⟨es₁, k₁, v₁, heq, h₁⟩ := passes_entries hlib (ih _ List.mem_cons_self).1
    (ih _ List.mem_cons_self).2 (fun f hf => ih f (List.mem_cons_of_mem _ hf)) hk hv hfes'
    hpre (by simp : ∀ e ∈ ([] : List (Token × Token)), e.1.isValue = true ∧ e.2.isValue = true)
    (by simp [Tokens.structural_cons, Tokens.structural_append, Written.structural_text hrs,
      hpost, Token.isStructure] :
      Tokens.Structural (.sym "..." :: (r.text ++ .sym "\x7d" :: post)))
  have hall : ∀ e ∈ es₁ ++ [(k₁, v₁)], e.1.isValue = true ∧ e.2.isValue = true := by
    rw [heq, List.nil_append]
    exact Written.foldEntries?_values hfes
  have hes₁ := fun e he => hall e (List.mem_append_left _ he)
  obtain ⟨hk₁, hv₁⟩ := hall (k₁, v₁) (List.mem_append_right _ (List.mem_singleton_self _))
  -- the remainder folds after the entries and the dots, to a map
  have h₂ := ihr (.map rs) hrs _ (.sym "\x7d" :: post) (hpre.push hlib (.rest hes₁ hk₁ hv₁))
    (by simp [Tokens.structural_cons, hpost, Token.isStructure])
  have hws : Tokens.Structural (pre ++ (.sym "\x7b" :: (Tokens.mapFrame es₁ ++
      [k₁, .sym ":", v₁, .sym "...", .map rs, .sym "\x7d"])) ++ post) := by
    simp [Tokens.structural_append, Tokens.structural_cons, hpre.1,
      Tokens.structural_mapFrame hes₁, hk₁, hv₁, hpost, Token.isStructure]
  have h₃ := passes_close_rest hlib hpre.2 hes₁ hk₁ hv₁ hws
  exact ((h₁.trans (h₂.cast (by simp) rfl rfl)).trans
    (h₃.cast (by simp) (by rw [heq, List.nil_append]) rfl)).cast
    (by simp [Written.text_mapRest_cons]) rfl rfl

theorem refolds (T : Written) : lib.Refolds T := by
  induction T using Written.induction with
  | word t => exact refolds_word lib t
  | list xs ih => exact refolds_list hlib ih
  | listTail xs t ih iht => exact refolds_listTail hlib ih iht
  | map es ih => exact refolds_map hlib ih
  | mapRest es r ih ihr => exact refolds_mapRest hlib ih ihr

theorem firing?_eq_none_of_values {ws : List Token} (hws : ∀ t ∈ ws, t.isValue = true) :
    lib.firing? ws = none := by
  rw [firing?_eq, List.findSome?_eq_none_iff]
  intro q _
  have hstr : Tokens.Structural ws := fun t ht => by simp [hws t ht]
  refine findSome?_attempt_eq_none_of_folds hlib hstr ?_ ?_ <;>
  · intro hq
    simpa [Token.isValue, Token.kind] using hws _ (List.mem_of_getElem? hq)

/-- Reduced by a library whose rules on values and
the symbols of the bracket language are the folding rules, the text of a pattern whose words are
values becomes the value it folds to, in one pass per bracket. -/
theorem reduceWith_text {T : Written} {W : Token} (h : T.fold? = some W) {limit fuel depth : Nat}
    {p : Progress} (hfuel : T.brackets < fuel) (hlim : p.steps + T.brackets ≤ limit) :
    ∃ t, lib.reduceWith limit fuel depth T.text p = (⟨[W], true⟩, ⟨p.steps + T.brackets, t⟩) := by
  obtain ⟨t, ht⟩ := refolds hlib T W h [] [] (ready_nil lib) Tokens.structural_nil limit fuel
    depth p (by omega) (by omega)
  simp only [List.nil_append, List.append_nil] at ht
  refine ⟨t, ?_⟩
  rw [ht]
  exact reduceWith_normal (by omega) (by dsimp only; omega)
    (firing?_eq_none_of_values hlib (by simpa using Written.fold?_isValue h))

end Refolds

end Library

end Reckon

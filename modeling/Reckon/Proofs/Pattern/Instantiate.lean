import Reckon.Proofs.Pattern.Enumeration
import Reckon.Proofs.Token.Maps
import Reckon.Proofs.Brackets.Values
import Reckon.Pattern.Substitute

/-!
# Substituting a match gives back what was matched

Matching a template and substituting the bindings into it are two recursions over the same
pattern syntax. Main statement (`Template.next_instantiate`): for a template whose maps are
well keyed, matched against tokens whose lists and maps hold values only, are well keyed and
free of NaN, every match that an enumeration of the matches answers binds exactly the
placeholder names of the template, once each, binds each variable to a value its category
accepts, and substituting it into the template gives tokens equal, one by one, to the tokens
matched.

The argument is one invariant of matching (`Pattern.Matched`), kept by each case of the
matcher and by matching pairs one after the other. A list capture takes a list apart into its
first item and the others, and substituting puts the item back in front, since an item of a
list is a value. A map capture takes out one entry, and substituting merges it back into the
rest: its key equals no key of the rest, whose keys are those of the map without the entry
(`Entries.equal_merge_single`). A map of the template holding a placeholder is compared by
equality, and a token that equals a token without placeholders has none either, so such a
map matches nothing.
-/

namespace Reckon

namespace Token

/-- The variables of a token, at any depth, with their categories, in order. -/
def vars : Token → List (String × Kind)
  | .var n c => [(n, c)]
  | .listCap h t => vars h ++ vars t
  | .mapCap k v r => vars k ++ vars v ++ vars r
  | .list xs => items xs
  | .map es => entries es
  | _ => []
where
  /-- The variables of the items. -/
  items : List Token → List (String × Kind)
    | [] => []
    | x :: xs => vars x ++ items xs
  /-- The variables of the keys and values. -/
  entries : List (Token × Token) → List (String × Kind)
    | [] => []
    | (k, v) :: es => vars k ++ vars v ++ entries es

theorem varNames_eq_map_fst (t : Token) : Compiler.varNames t = t.vars.map Prod.fst := by
  apply Compiler.varNames.induct (fun t => Compiler.varNames t = t.vars.map Prod.fst)
    (fun es => Compiler.varNamesEntries es = (vars.entries es).map Prod.fst)
    (fun xs => Compiler.varNamesItems xs = (vars.items xs).map Prod.fst)
  case case6 =>
    intro t hvar hlc hmc hlist hmap
    cases t <;> first
      | rfl
      | exact absurd rfl (hvar _ _)
      | exact absurd rfl (hlc _ _)
      | exact absurd rfl (hmc _ _ _)
      | exact absurd rfl (hlist _)
      | exact absurd rfl (hmap _)
  all_goals
    intros
    simp_all [Compiler.varNames, Compiler.varNamesItems, Compiler.varNamesEntries, vars,
      vars.items, vars.entries]

/-- Whether every list and map in the token, at any depth, holds values only. -/
def holdsValues : Token → Bool
  | .list xs => items xs
  | .map es => entries es
  | .listCap h t => holdsValues h && holdsValues t
  | .mapCap k v r => holdsValues k && holdsValues v && holdsValues r
  | _ => true
where
  /-- Whether every item is a value that holds values only. -/
  items : List Token → Bool
    | [] => true
    | x :: xs => x.isValue && holdsValues x && items xs
  /-- Whether every key and value is a value that holds values only. -/
  entries : List (Token × Token) → Bool
    | [] => true
    | (k, v) :: es => k.isValue && v.isValue && holdsValues k && holdsValues v && entries es

theorem holdsValues_list (xs : List Token) :
    (list xs).holdsValues = true ↔ ∀ x ∈ xs, x.isValue = true ∧ x.holdsValues = true := by
  simp only [holdsValues]
  induction xs with
  | nil => simp [holdsValues.items]
  | cons x xs ih => simp [holdsValues.items, ih, and_assoc]

theorem holdsValues_map (es : List (Token × Token)) :
    (map es).holdsValues = true ↔ ∀ e ∈ es, (e.1.isValue = true ∧ e.2.isValue = true) ∧
      e.1.holdsValues = true ∧ e.2.holdsValues = true := by
  simp only [holdsValues]
  induction es with
  | nil => simp [holdsValues.entries]
  | cons e es ih =>
    obtain ⟨k, v⟩ := e
    simp [holdsValues.entries, ih, and_assoc]

/-- A token a template is matched against: equality treats it as an equivalence, and its lists
and maps hold values only. -/
def Matchable (t : Token) : Prop := t.Keyable ∧ t.holdsValues = true

theorem Matchable.of_list {xs : List Token} (h : (list xs).Matchable) :
    ∀ x ∈ xs, x.isValue = true ∧ x.Matchable := by
  intro x hx
  obtain ⟨⟨hkeyed, hnan⟩, hvals⟩ := h
  exact ⟨((holdsValues_list xs).1 hvals x hx).1,
    ⟨(wellKeyed_list xs).1 hkeyed x hx, (hasNaN_list xs).1 hnan x hx⟩,
    ((holdsValues_list xs).1 hvals x hx).2⟩

theorem Matchable.list {xs : List Token} (h : ∀ x ∈ xs, x.isValue = true ∧ x.Matchable) :
    (list xs).Matchable :=
  ⟨⟨(wellKeyed_list xs).2 fun x hx => (h x hx).2.1.1,
      (hasNaN_list xs).2 fun x hx => (h x hx).2.1.2⟩,
    (holdsValues_list xs).2 fun x hx => ⟨(h x hx).1, (h x hx).2.2⟩⟩

theorem Matchable.of_map {es : List (Token × Token)} (h : (map es).Matchable) :
    ∀ e ∈ es, (e.1.isValue = true ∧ e.2.isValue = true) ∧ e.1.Matchable ∧ e.2.Matchable := by
  intro e he
  obtain ⟨⟨hkeyed, hnan⟩, hvals⟩ := h
  have hk := ((wellKeyed_map es).1 hkeyed).1 e he
  have hn := (hasNaN_map es).1 hnan e he
  have hv := (holdsValues_map es).1 hvals e he
  exact ⟨hv.1, ⟨⟨hk.1, hn.1⟩, hv.2.1⟩, ⟨⟨hk.2, hn.2⟩, hv.2.2⟩⟩

theorem Matchable.eraseIdx {es : List (Token × Token)} (h : (map es).Matchable) (i : Nat) :
    (map (es.eraseIdx i)).Matchable := by
  have hsub : ∀ e ∈ es.eraseIdx i, e ∈ es := fun e he => List.mem_of_mem_eraseIdx he
  have hes := h.of_map
  obtain ⟨⟨hkeyed, -⟩, -⟩ := h
  refine ⟨⟨(wellKeyed_map _).2 ⟨fun e he => ?_, ?_⟩, (hasNaN_map _).2 fun e he => ?_⟩,
    (holdsValues_map _).2 fun e he => ?_⟩
  · exact ⟨(hes e (hsub e he)).2.1.1.1, (hes e (hsub e he)).2.2.1.1⟩
  · exact Entries.keysApart_iff.2
      ((Entries.keysApart_iff.1 ((wellKeyed_map es).1 hkeyed).2).sublist (List.eraseIdx_sublist es i))
  · exact ⟨(hes e (hsub e he)).2.1.1.2, (hes e (hsub e he)).2.2.1.2⟩
  · exact ⟨(hes e (hsub e he)).1, (hes e (hsub e he)).2.1.2, (hes e (hsub e he)).2.2.2⟩

/-! Equal tokens have one kind, and a token equal to a list or a map is one. -/

theorem accepts_eq_of_equal {x y : Token} (h : x.equal y = true) (c : Kind) :
    accepts c x = accepts c y := by
  simp [accepts, isValue, Library.kind_eq_of_equal h]

theorem isValue_eq_of_equal {x y : Token} (h : x.equal y = true) : x.isValue = y.isValue := by
  simp [isValue, Library.kind_eq_of_equal h]

theorem eq_list_of_equal {y : Token} {xs : List Token} (h : y.equal (list xs) = true) :
    ∃ ys, y = list ys ∧ Tokens.equal ys xs = true := by
  cases y with
  | list ys => exact ⟨ys, rfl, by rwa [equal_list_list] at h⟩
  | _ => simp [equal] at h

theorem eq_map_of_equal {y : Token} {es : List (Token × Token)} (h : y.equal (map es) = true) :
    ∃ fs, y = map fs ∧ fs.length = es.length ∧ Entries.found fs es = true := by
  cases y with
  | map fs =>
    rw [equal_map_map, Bool.and_eq_true, beq_iff_eq] at h
    exact ⟨fs, rfl, h⟩
  | _ => simp [equal] at h

/-! Placeholders. -/

section Placeholders

attribute [local simp] hasPlaceholder

theorem hasPlaceholder_list (xs : List Token) :
    (list xs).hasPlaceholder = false ↔ ∀ x ∈ xs, x.hasPlaceholder = false := by
  simp only [hasPlaceholder]
  induction xs with
  | nil => simp [hasPlaceholder.anyItem]
  | cons x xs ih => simp [hasPlaceholder.anyItem, ih]

theorem hasPlaceholder_map (es : List (Token × Token)) :
    (map es).hasPlaceholder = false ↔
      ∀ e ∈ es, e.1.hasPlaceholder = false ∧ e.2.hasPlaceholder = false := by
  simp only [hasPlaceholder]
  induction es with
  | nil => simp [hasPlaceholder.anyEntry]
  | cons e es ih =>
    obtain ⟨k, v⟩ := e
    simp [hasPlaceholder.anyEntry, ih, and_assoc]

theorem vars_eq_nil {t : Token} (h : t.hasPlaceholder = false) : t.vars = [] := by
  revert h
  apply Compiler.varNames.induct (fun t => t.hasPlaceholder = false → t.vars = [])
    (fun es => (map es).hasPlaceholder = false → vars.entries es = [])
    (fun xs => (list xs).hasPlaceholder = false → vars.items xs = [])
  case case6 =>
    intro t hvar hlc hmc hlist hmap _
    cases t <;> first
      | rfl
      | exact absurd rfl (hvar _ _)
      | exact absurd rfl (hlc _ _)
      | exact absurd rfl (hmc _ _ _)
      | exact absurd rfl (hlist _)
      | exact absurd rfl (hmap _)
  all_goals
    intros
    simp_all [vars, vars.items, vars.entries, hasPlaceholder.anyItem, hasPlaceholder.anyEntry]

/-- The induction is on the
size: a map's key is compared with a key of the other map, so symmetry of equality is used
there. -/
theorem hasPlaceholder_eq_false_of_equal : ∀ n (x y : Token), Below n x → y.wellKeyed = true →
    x.equal y = true → y.hasPlaceholder = false → x.hasPlaceholder = false
  | 0 => fun _ _ hx => absurd hx.1 (Nat.not_lt_zero _)
  | n + 1 => by
    intro x y hx hy h hph
    have ih := hasPlaceholder_eq_false_of_equal n
    cases x with
    | num _ | text _ | bool _ | sym _ => rfl
    | var m c => obtain rfl := equal_var_iff.1 h; simp at hph
    | listCap a b =>
      obtain ⟨a', b', rfl, -, -⟩ := equal_listCap_iff.1 h
      simp at hph
    | mapCap a b c =>
      obtain ⟨a', b', c', rfl, -, -, -⟩ := equal_mapCap_iff.1 h
      simp at hph
    | list xs =>
      obtain ⟨ys, rfl, hxy⟩ := equal_list_iff.1 h
      rw [Tokens.equal_eq] at hxy
      simp only [Bool.and_eq_true, beq_iff_eq, List.all_eq_true] at hxy
      refine (hasPlaceholder_list xs).2 fun x hx' => ?_
      -- the item of `ys` at the place of `x`
      obtain ⟨i, hi, rfl⟩ := List.getElem_of_mem hx'
      have hi' : i < ys.length := hxy.1 ▸ hi
      have hmem : (xs[i], ys[i]) ∈ xs.zip ys := by
        rw [List.mem_iff_getElem]
        exact ⟨i, by simp [hi, ← hxy.1], by simp⟩
      exact ih _ _ (below_items hx _ hx') ((wellKeyed_list ys).1 hy _ (List.getElem_mem _))
        (hxy.2 _ hmem) ((hasPlaceholder_list ys).1 hph _ (List.getElem_mem _))
    | map es =>
      obtain ⟨fs, rfl, -, hfound⟩ := equal_map_iff.1 h
      obtain ⟨hes, -⟩ := below_entries hx
      have hfs := ((wellKeyed_map fs).1 hy).1
      refine (hasPlaceholder_map es).2 fun e he => ?_
      obtain ⟨f, hf, hk, hv⟩ := Entries.covers_of_found hfound e he
      have hfph := (hasPlaceholder_map fs).1 hph f hf
      exact ⟨ih _ _ (hes e he).1 (hfs f hf).1
          (equivOn_wellKeyed.symm (hfs f hf).1 (hes e he).1.2 hk) hfph.1,
        ih _ _ (hes e he).2 (hfs f hf).2
          (equivOn_wellKeyed.symm (hfs f hf).2 (hes e he).2.2 hv) hfph.2⟩

theorem mem_varNamesItems {x : String} {ps : List Token} :
    x ∈ Compiler.varNamesItems ps ↔ ∃ p ∈ ps, x ∈ Compiler.varNames p := by
  induction ps with
  | nil => simp [Compiler.varNamesItems]
  | cons p ps ih => simp [Compiler.varNamesItems, ih]

theorem mem_vars_items {q : String × Kind} {ps : List Token} :
    q ∈ vars.items ps ↔ ∃ p ∈ ps, q ∈ p.vars := by
  induction ps with
  | nil => simp [vars.items]
  | cons p ps ih => simp [vars.items, ih]

theorem hasPlaceholder_eq_false_of_holdsValues {t : Token} (hv : t.isValue = true)
    (hh : t.holdsValues = true) : t.hasPlaceholder = false := by
  revert hv hh
  apply Compiler.varNames.induct
    (fun t => t.isValue = true → t.holdsValues = true → t.hasPlaceholder = false)
    (fun es => (∀ e ∈ es, (e.1.isValue = true ∧ e.2.isValue = true) ∧
        e.1.holdsValues = true ∧ e.2.holdsValues = true) →
      ∀ e ∈ es, e.1.hasPlaceholder = false ∧ e.2.hasPlaceholder = false)
    (fun xs => (∀ x ∈ xs, x.isValue = true ∧ x.holdsValues = true) →
      ∀ x ∈ xs, x.hasPlaceholder = false)
  case case4 =>
    intro xs ih _ hh
    exact (hasPlaceholder_list xs).2 (ih ((holdsValues_list xs).1 hh))
  case case5 =>
    intro es ih _ hh
    exact (hasPlaceholder_map es).2 (ih ((holdsValues_map es).1 hh))
  case case6 =>
    intro t hvar hlc hmc hlist hmap _ _
    cases t with
    | var => exact absurd rfl (hvar _ _)
    | listCap => exact absurd rfl (hlc _ _)
    | mapCap => exact absurd rfl (hmc _ _ _)
    | list => exact absurd rfl (hlist _)
    | map => exact absurd rfl (hmap _)
    | num | text | bool | sym => rfl
  case case8 =>
    intro x xs ihx ihxs h y hy
    rcases List.mem_cons.1 hy with rfl | hy
    · exact ihx (h y List.mem_cons_self).1 (h y List.mem_cons_self).2
    · exact ihxs (fun z hz => h z (List.mem_cons_of_mem _ hz)) y hy
  case case10 =>
    intro k v es ihk ihv ihes h e he
    rcases List.mem_cons.1 he with rfl | he
    · have hkv := h _ List.mem_cons_self
      exact ⟨ihk hkv.1.1 hkv.2.1, ihv hkv.1.2 hkv.2.2⟩
    · exact ihes (fun f hf => h f (List.mem_cons_of_mem _ hf)) e he
  all_goals simp [isValue, kind]

end Placeholders

end Token

namespace Bindings

variable {b c : Bindings}

attribute [local simp] substitute substituteItems substituteEntries

theorem substituteItems_eq_map (b : Bindings) (xs : List Token) :
    substituteItems b xs = xs.map (substitute b) := by
  induction xs with
  | nil => simp
  | cons x xs ih => simp [ih]

theorem substitute_of_hasPlaceholder {t : Token} (h : t.hasPlaceholder = false) :
    substitute b t = t := by
  cases t with
  | var | listCap | mapCap => simp [Token.hasPlaceholder] at h
  | list xs => simp [h]
  | map es => simp [h]
  | num | text | bool | sym => simp

theorem substitute_append (d : Bindings) {t : Token}
    (h : ∀ x ∈ Compiler.varNames t, (b.lookup x).isSome) : substitute (b ++ d) t = substitute b t := by
  revert h
  apply Compiler.varNames.induct
    (fun t => (∀ x ∈ Compiler.varNames t, (b.lookup x).isSome) →
      substitute (b ++ d) t = substitute b t)
    (fun es => (∀ x ∈ Compiler.varNamesEntries es, (b.lookup x).isSome) →
      substituteEntries (b ++ d) es = substituteEntries b es)
    (fun xs => (∀ x ∈ Compiler.varNamesItems xs, (b.lookup x).isSome) →
      substituteItems (b ++ d) xs = substituteItems b xs)
  case case1 =>
    intro n c h
    obtain ⟨v, hv⟩ := Option.isSome_iff_exists.1 (h n (by simp [Compiler.varNames]))
    simp [List.lookup_append, hv]
  case case6 =>
    intro t hvar hlc hmc hlist hmap _
    cases t with
    | var => exact absurd rfl (hvar _ _)
    | listCap => exact absurd rfl (hlc _ _)
    | mapCap => exact absurd rfl (hmc _ _ _)
    | list => exact absurd rfl (hlist _)
    | map => exact absurd rfl (hmap _)
    | num | text | bool | sym => simp
  -- elsewhere every name of the token is a name of one of its parts
  case case2 =>
    intro h t ihh iht hn
    rw [substitute, substitute, ihh fun x hx => hn x (by simp [Compiler.varNames, hx]),
      iht fun x hx => hn x (by simp [Compiler.varNames, hx])]
  case case3 =>
    intro k v r ihk ihv ihr hn
    rw [substitute, substitute, ihk fun x hx => hn x (by simp [Compiler.varNames, hx]),
      ihv fun x hx => hn x (by simp [Compiler.varNames, hx]),
      ihr fun x hx => hn x (by simp [Compiler.varNames, hx])]
  case case4 =>
    intro xs ih hn
    rw [substitute, substitute, ih fun x hx => hn x (by simpa [Compiler.varNames] using hx)]
  case case5 =>
    intro es ih hn
    rw [substitute, substitute, ih fun x hx => hn x (by simpa [Compiler.varNames] using hx)]
  case case7 | case9 => intro _; rfl
  case case8 =>
    intro x xs ihx ihxs hn
    rw [substituteItems, substituteItems,
      ihx fun y hy => hn y (by simp [Compiler.varNamesItems, hy]),
      ihxs fun y hy => hn y (by simp [Compiler.varNamesItems, hy])]
  case case10 =>
    intro k v es ihk ihv ihes hn
    rw [substituteEntries, substituteEntries,
      ihk fun y hy => hn y (by simp [Compiler.varNamesEntries, hy]),
      ihv fun y hy => hn y (by simp [Compiler.varNamesEntries, hy]),
      ihes fun y hy => hn y (by simp [Compiler.varNamesEntries, hy])]

theorem substitute_listCap (h t : Token) :
    substitute b (.listCap h t) = .listCap (substitute b h) (substitute b t) ∨
      ∃ xs, substitute b t = .list xs ∧ (substitute b h).isValue = true ∧
        substitute b (.listCap h t) = .list (substitute b h :: xs) := by
  cases ht : substitute b t with
  | list xs =>
    cases hh : (substitute b h).isValue
    · exact .inl (by simp [ht, hh])
    · exact .inr ⟨xs, rfl, rfl, by simp [ht, hh]⟩
  | _ => exact .inl (by simp [ht])

theorem substitute_mapCap (k v r : Token) :
    substitute b (.mapCap k v r) = .mapCap (substitute b k) (substitute b v) (substitute b r) ∨
      ∃ es, substitute b r = .map es ∧ (substitute b k).isValue = true ∧
        (substitute b v).isValue = true ∧
        substitute b (.mapCap k v r) = .map (Entries.merge es [(substitute b k, substitute b v)]) := by
  cases hr : substitute b r with
  | map es =>
    by_cases hkv : (substitute b k).isValue = true ∧ (substitute b v).isValue = true
    · exact .inr ⟨es, rfl, hkv.1, hkv.2, by simp [hr, hkv]⟩
    · exact .inl (by simp_all)
  | _ => exact .inl (by simp [hr])

theorem substitute_wellKeyed (hb : ∀ q ∈ b, q.2.wellKeyed = true) {t : Token}
    (ht : t.wellKeyed = true) : (substitute b t).wellKeyed = true := by
  let wk : Token → Prop := fun t => t.wellKeyed = true
  revert ht
  apply Compiler.varNames.induct (fun t => t.wellKeyed = true → (substitute b t).wellKeyed = true)
    (fun es => (∀ e ∈ es, e.1.wellKeyed = true ∧ e.2.wellKeyed = true) →
      ∀ e ∈ substituteEntries b es, e.1.wellKeyed = true ∧ e.2.wellKeyed = true)
    (fun xs => (∀ x ∈ xs, x.wellKeyed = true) → ∀ x ∈ substituteItems b xs, x.wellKeyed = true)
  case case1 =>
    intro name cat _
    cases hlook : b.lookup name with
    | none => simp [hlook, Token.wellKeyed]
    | some t =>
      obtain ⟨l₁, l₂, hb', -⟩ := List.lookup_eq_some_iff.1 hlook
      simpa [hlook] using hb (name, t) (by simp [hb'])
  case case2 =>
    intro h t ihh iht hw
    simp only [Token.wellKeyed, Bool.and_eq_true] at hw
    rcases substitute_listCap h t with hs | ⟨xs, hxs, -, hs⟩ <;> rw [hs]
    · simp [Token.wellKeyed, ihh hw.1, iht hw.2]
    · have hitems := (Token.wellKeyed_list xs).1 (hxs ▸ iht hw.2)
      simp only [Token.wellKeyed_list, List.mem_cons, forall_eq_or_imp]
      exact ⟨ihh hw.1, hitems⟩
  case case3 =>
    intro k v r ihk ihv ihr hw
    simp only [Token.wellKeyed, Bool.and_eq_true] at hw
    rcases substitute_mapCap k v r with hs | ⟨es, hes, -, -, hs⟩ <;> rw [hs]
    · simp [Token.wellKeyed, ihk hw.1.1, ihv hw.1.2, ihr hw.2]
    · have hentries := ((Token.wellKeyed_map es).1 (hes ▸ ihr hw.2)).1
      refine (Token.wellKeyed_map _).2
        ⟨Entries.All.merge (P := wk) (Q := wk) hentries ?_, Entries.build_keysApart _⟩
      intro e he
      rw [List.mem_singleton.1 he]
      exact ⟨ihk hw.1.1, ihv hw.1.2⟩
  case case4 =>
    intro xs ih hw
    by_cases hph : (Token.list xs).hasPlaceholder = true
    · simp only [substitute, hph, if_true, Token.wellKeyed_list]
      exact ih ((Token.wellKeyed_list xs).1 hw)
    · simpa [hph] using hw
  case case5 =>
    intro es ih hw
    by_cases hph : (Token.map es).hasPlaceholder = true
    · simp only [substitute, hph, if_true, Token.wellKeyed_map]
      exact ⟨Entries.All.build (P := wk) (Q := wk) (ih ((Token.wellKeyed_map es).1 hw).1),
        Entries.build_keysApart _⟩
    · simpa [hph] using hw
  case case6 =>
    intro t hvar hlc hmc hlist hmap hw
    cases t with
    | var => exact absurd rfl (hvar _ _)
    | listCap => exact absurd rfl (hlc _ _)
    | mapCap => exact absurd rfl (hmc _ _ _)
    | list => exact absurd rfl (hlist _)
    | map => exact absurd rfl (hmap _)
    | num | text | bool | sym => simp [Token.wellKeyed]
  case case8 =>
    intro x xs ihx ihxs hall y hy
    rw [substituteItems, List.mem_cons] at hy
    rcases hy with rfl | hy
    · exact ihx (hall x List.mem_cons_self)
    · exact ihxs (fun z hz => hall z (List.mem_cons_of_mem _ hz)) y hy
  case case10 =>
    intro k v es ihk ihv ihes hall e he
    rw [substituteEntries, List.mem_cons] at he
    rcases he with rfl | he
    · exact ⟨ihk (hall _ List.mem_cons_self).1, ihv (hall _ List.mem_cons_self).2⟩
    · exact ihes (fun f hf => hall f (List.mem_cons_of_mem _ hf)) e he
  all_goals simp

end Bindings

namespace Entries

section Rebuild

variable {es fs : List (Token × Token)}

/-- The entries whose keys and values are well keyed. -/
abbrev WellKeyed (es : List (Token × Token)) : Prop := Within (fun t => t.wellKeyed = true) es

theorem find?_of_mem (hes : WellKeyed es) (hapart : keysApart es = true) {g : Token × Token}
    (hg : g ∈ es) {k : Token} (hk : k.wellKeyed = true) (hgk : g.1.equal k = true) :
    es.find? (fun f => f.1.equal k) = some g := by
  obtain ⟨f, hf⟩ : ∃ f, es.find? (fun f => f.1.equal k) = some f :=
    Option.isSome_iff_exists.1 (List.find?_isSome.2 ⟨g, hg, hgk⟩)
  rw [hf, eq_of_equal_key Token.equivOn_wellKeyed hes hapart (find?_key hf).1 hg hk
    (find?_key hf).2 hgk]

theorem equal_false_of_mem_eraseIdx (hes : WellKeyed es) (hapart : keysApart es = true) {i : Nat}
    (hi : i < es.length) {g : Token × Token} (hg : g ∈ es.eraseIdx i) :
    g.1.equal es[i].1 = false := by
  obtain ⟨j, hj, hji, rfl⟩ := List.mem_eraseIdx_iff_getElem.1 hg
  have hpw := List.pairwise_iff_getElem.1 (keysApart_iff.1 hapart)
  rcases Nat.lt_or_gt_of_ne hji with hlt | hgt
  · exact hpw j i hj hi hlt
  · -- a later key: apart from the entry's key the other way round, so by symmetry
    by_contra h
    have := Token.equivOn_wellKeyed.symm (hes _ (List.getElem_mem hj)).1
      (hes _ (List.getElem_mem hi)).1 (by simpa using h)
    simp [hpw i j hi hj hgt] at this

/-- A map equal to the map `es` without its
`i`-th entry, merged with an entry equal to that one, equals `es`: the entry's key equals no
key of the rest, so the merge puts it last, and every key then finds an equal value in `es`. -/
theorem equal_merge_single (hes : WellKeyed es) (hapart : keysApart es = true) {i : Nat}
    (hi : i < es.length) (hfs : WellKeyed fs) (hfsApart : keysApart fs = true) {k v : Token}
    (hk : k.wellKeyed = true) (hv : v.wellKeyed = true)
    (hlen : fs.length = (es.eraseIdx i).length) (hfound : found fs (es.eraseIdx i) = true)
    (hke : k.equal es[i].1 = true) (hve : v.equal es[i].2 = true) :
    (Token.map (merge fs [(k, v)])).equal (Token.map es) = true := by
  have hP := Token.equivOn_wellKeyed
  have hei : es[i] ∈ es := List.getElem_mem hi
  -- the entry's key equals no key of `fs`: that key would equal a key of the rest of `es`
  have hnew : ∀ f ∈ fs, f.1.equal k = false := by
    intro f hf
    by_contra hfk
    obtain ⟨g, hg, hgf, -⟩ := covers_of_found hfound f hf
    have hgk := hP.trans (hes g (List.mem_of_mem_eraseIdx hg)).1 (hfs f hf).1
      (hes _ hei).1 hgf (hP.trans (hfs f hf).1 hk (hes _ hei).1 (by simpa using hfk) hke)
    simp [equal_false_of_mem_eraseIdx hes hapart hi hg] at hgk
  have hmerge : merge fs [(k, v)] = fs ++ [(k, v)] :=
    build_eq_self (keysApart_iff.2 (List.pairwise_append.2 ⟨keysApart_iff.1 hfsApart,
      by simp, fun a ha b hb => by rw [List.mem_singleton.1 hb]; exact hnew a ha⟩))
  rw [hmerge, Token.equal_map_map, Bool.and_eq_true, beq_iff_eq]
  refine ⟨by simp [hlen, List.length_eraseIdx, hi]; omega, found_iff.2 fun x hx => ?_⟩
  rcases List.mem_append.1 hx with hx | hx
  · obtain ⟨g, hg, hgv⟩ := found_iff.1 hfound x hx
    obtain ⟨hgmem, hgx⟩ := find?_key hg
    exact ⟨g, find?_of_mem hes hapart (List.mem_of_mem_eraseIdx hgmem) (hfs x hx).1 hgx, hgv⟩
  · rw [List.mem_singleton.1 hx]
    exact ⟨es[i], find?_of_mem hes hapart hei hk (hP.symm hk (hes _ hei).1 hke),
      hP.symm hv (hes _ hei).2 hve⟩

end Rebuild

end Entries

theorem Tokens.equal_map_of_zip (f : Token → Token) {xs ys : List Token}
    (hlen : xs.length = ys.length) (h : ∀ p ∈ xs.zip ys, (f p.1).equal p.2 = true) :
    Tokens.equal (xs.map f) ys = true := by
  induction xs generalizing ys with
  | nil => cases ys <;> simp_all [Tokens.equal]
  | cons x xs ih =>
    cases ys with
    | nil => simp at hlen
    | cons y ys =>
      simp only [List.map_cons, Tokens.equal, Bool.and_eq_true]
      exact ⟨h (x, y) (by simp), ih (by simpa using hlen) fun p hp => h p (by simp [hp])⟩

namespace Pattern

/-- What matching the pairs `pairs` from the bindings `binds` promises of the bindings `b` it
answers: `b` extends `binds` by well-keyed bindings; besides the names of `binds` it binds the
placeholder names of the patterns and no other, each once; it binds every variable of the
patterns to a token its category accepts; and substituting it into each pattern gives a token
equal to the pattern's value. -/
structure Matched (binds b : Bindings) (pairs : List (Token × Token)) : Prop where
  added : ∃ more, b = binds ++ more ∧ ∀ q ∈ more, q.2.wellKeyed = true
  names : ∀ x, x ∈ b.map Prod.fst ↔
    x ∈ binds.map Prod.fst ∨ ∃ p ∈ pairs, x ∈ Compiler.varNames p.1
  nodup : (binds.map Prod.fst).Nodup → (b.map Prod.fst).Nodup
  accepts : ∀ p ∈ pairs, ∀ q ∈ p.1.vars, ∃ t, b.lookup q.1 = some t ∧ Token.accepts q.2 t = true
  equal : ∀ p ∈ pairs, (b.substitute p.1).equal p.2 = true

namespace Matched

variable {binds b b₁ : Bindings} {pairs qs : List (Token × Token)}

theorem keyed (h : Matched binds b pairs) (hbinds : ∀ q ∈ binds, q.2.wellKeyed = true) :
    ∀ q ∈ b, q.2.wellKeyed = true := by
  obtain ⟨more, rfl, hmore⟩ := h.added
  intro q hq
  rcases List.mem_append.1 hq with hq | hq
  exacts [hbinds q hq, hmore q hq]

theorem isSome_lookup (h : Matched binds b pairs) {p : Token × Token} (hp : p ∈ pairs) :
    ∀ x ∈ Compiler.varNames p.1, (b.lookup x).isSome := by
  intro x hx
  rw [Token.varNames_eq_map_fst] at hx
  obtain ⟨q, hq, rfl⟩ := List.mem_map.1 hx
  obtain ⟨t, ht, -⟩ := h.accepts p hp q hq
  simp [ht]

theorem nil : Matched binds binds [] where
  added := ⟨[], by simp, by simp⟩
  names x := by simp
  nodup h := h
  accepts := by simp
  equal := by simp

/-- Later bindings leave the lookups, and so the
substitutions, of the earlier patterns as they were. -/
theorem append (h₁ : Matched binds b₁ pairs) (h₂ : Matched b₁ b qs) :
    Matched binds b (pairs ++ qs) := by
  obtain ⟨m₁, rfl, hm₁⟩ := h₁.added
  obtain ⟨m₂, rfl, hm₂⟩ := h₂.added
  refine ⟨⟨m₁ ++ m₂, by simp, fun q hq => (List.mem_append.1 hq).elim (hm₁ q) (hm₂ q)⟩,
    fun x => ?_, fun h => h₂.nodup (h₁.nodup h), fun p hp q hq => ?_, fun p hp => ?_⟩
  · rw [h₂.names, h₁.names]
    simp only [List.mem_append, or_and_right, exists_or, or_assoc]
  · rcases List.mem_append.1 hp with hp | hp
    · obtain ⟨t, ht, hacc⟩ := h₁.accepts p hp q hq
      exact ⟨t, by rw [List.lookup_append, ht]; rfl, hacc⟩
    · exact h₂.accepts p hp q hq
  · rcases List.mem_append.1 hp with hp | hp
    · rw [Bindings.substitute_append m₂ (h₁.isSome_lookup hp)]
      exact h₁.equal p hp
    · exact h₂.equal p hp

theorem var_new {name : String} {cat : Kind} {val : Token} (hacc : Token.accepts cat val = true)
    (hnone : binds.lookup name = none) (hval : val.Matchable) :
    Matched binds (binds ++ [(name, val)]) [(.var name cat, val)] where
  added := ⟨_, rfl, by simpa using hval.1.1⟩
  names x := by simp [Compiler.varNames]
  nodup h := by
    -- the new name is not among the old ones, since it looks nothing up
    have hname : name ∉ binds.map Prod.fst := by
      intro hmem
      obtain ⟨p, hp, hpn⟩ := List.mem_map.1 hmem
      have := List.lookup_eq_none_iff.1 hnone p hp
      simp [hpn] at this
    rw [List.map_append, List.map_singleton, List.nodup_append]
    exact ⟨h, List.nodup_singleton _, fun a ha c hc => by
      rw [List.mem_singleton.1 hc]
      rintro rfl
      exact hname ha⟩
  accepts := by
    intro p hp q hq
    rw [List.mem_singleton.1 hp] at hq
    rw [List.mem_singleton.1 hq]
    exact ⟨val, by rw [List.lookup_append, hnone]; simp, hacc⟩
  equal := by simp [Bindings.substitute, List.lookup_append, hnone, hval.1.equal_self]

theorem var_bound {name : String} {cat : Kind} {val prev : Token}
    (hacc : Token.accepts cat val = true) (hprev : binds.lookup name = some prev)
    (heq : prev.equal val = true) : Matched binds binds [(.var name cat, val)] where
  added := ⟨[], by simp, by simp⟩
  names x := by
    obtain ⟨l₁, l₂, hb, -⟩ := List.lookup_eq_some_iff.1 hprev
    have hname : name ∈ binds.map Prod.fst := by simp [hb]
    simp only [List.mem_singleton, exists_eq_left, Compiler.varNames]
    exact ⟨Or.inl, fun h => h.elim id fun hx => hx ▸ hname⟩
  nodup h := h
  accepts := by simp [Token.vars, hprev, Token.accepts_eq_of_equal heq, hacc]
  equal := by simp [Bindings.substitute, hprev, heq]

theorem literal {pat val : Token} (hph : pat.hasPlaceholder = false) (h : pat.equal val = true) :
    Matched binds binds [(pat, val)] where
  added := ⟨[], by simp, by simp⟩
  names x := by simp [Token.varNames_eq_map_fst, Token.vars_eq_nil hph]
  nodup h := h
  accepts := by simp [Token.vars_eq_nil hph]
  equal := by simp [Bindings.substitute_of_hasPlaceholder hph, h]

theorem listCap {h t x : Token} {xs : List Token} (hm : Matched binds b [(h, x), (t, .list xs)])
    (hx : x.isValue = true) : Matched binds b [(.listCap h t, .list (x :: xs))] where
  added := hm.added
  names y := by
    rw [hm.names]
    simp [Compiler.varNames]
  nodup := hm.nodup
  accepts := by
    intro p hp q hq
    rw [List.mem_singleton.1 hp, Token.vars, List.mem_append] at hq
    rcases hq with hq | hq
    exacts [hm.accepts (h, x) (by simp) q hq, hm.accepts (t, .list xs) (by simp) q hq]
  equal := by
    intro p hp
    rw [List.mem_singleton.1 hp]
    have hh := hm.equal (h, x) (by simp)
    obtain ⟨ys, hys, hyx⟩ := Token.eq_list_of_equal (hm.equal (t, .list xs) (by simp))
    have hval : (b.substitute h).isValue = true := (Token.isValue_eq_of_equal hh).trans hx
    have hs : b.substitute (.listCap h t) = .list (b.substitute h :: ys) := by
      simp [Bindings.substitute, hys, hval]
    simp only at hh ⊢
    rw [hs, Token.equal_list_list]
    simp [Tokens.equal, hh, hyx]

theorem mapCap {k v r : Token} {es : List (Token × Token)} {i : Nat} {e : Token × Token}
    (hm : Matched binds b [(k, e.1), (v, e.2), (r, .map (Entries.eraseAt es i))])
    (hbinds : ∀ q ∈ binds, q.2.wellKeyed = true) (hk : k.wellKeyed = true)
    (hv : v.wellKeyed = true) (hr : r.wellKeyed = true) (hes : (Token.map es).Matchable)
    (hi : es[i]? = some e) : Matched binds b [(.mapCap k v r, .map es)] where
  added := hm.added
  names y := by
    rw [hm.names]
    simp [Compiler.varNames]
  nodup := hm.nodup
  accepts := by
    intro p hp q hq
    rw [List.mem_singleton.1 hp, Token.vars, List.mem_append, List.mem_append] at hq
    rcases hq with (hq | hq) | hq
    exacts [hm.accepts (k, e.1) (by simp) q hq, hm.accepts (v, e.2) (by simp) q hq,
      hm.accepts (r, .map (Entries.eraseAt es i)) (by simp) q hq]
  equal := by
    intro p hp
    rw [List.mem_singleton.1 hp]
    obtain ⟨hi', rfl⟩ := List.getElem?_eq_some_iff.1 hi
    obtain ⟨hwk, hapart⟩ := (Token.wellKeyed_map es).1 hes.1.1
    have hbk := hm.keyed hbinds
    have hke := hm.equal (k, es[i].1) (by simp)
    have hve := hm.equal (v, es[i].2) (by simp)
    have hre := hm.equal (r, .map (Entries.eraseAt es i)) (by simp)
    simp only at hke hve hre ⊢
    rw [Entries.eraseAt_eq_eraseIdx hapart] at hre
    obtain ⟨fs, hfs, hlen, hfound⟩ := Token.eq_map_of_equal hre
    -- the entry's key and value are values, and so are their substitutes
    have hentry := (hes.of_map _ (List.getElem_mem hi')).1
    have hkval : (b.substitute k).isValue = true := (Token.isValue_eq_of_equal hke).trans hentry.1
    have hvval : (b.substitute v).isValue = true := (Token.isValue_eq_of_equal hve).trans hentry.2
    obtain ⟨hfsw, hfsApart⟩ :=
      (Token.wellKeyed_map fs).1 (hfs ▸ Bindings.substitute_wellKeyed hbk hr)
    have hs : b.substitute (.mapCap k v r) =
        .map (Entries.merge fs [(b.substitute k, b.substitute v)]) := by
      simp [Bindings.substitute, hfs, hkval, hvval]
    rw [hs]
    exact Entries.equal_merge_single hwk hapart hi' hfsw hfsApart
      (Bindings.substitute_wellKeyed hbk hk) (Bindings.substitute_wellKeyed hbk hv) hlen hfound
      hke hve

theorem list {ps xs : List Token} (hm : Matched binds b (ps.zip xs)) (hlen : xs.length = ps.length)
    (hph : (Token.list ps).hasPlaceholder = true) : Matched binds b [(.list ps, .list xs)] where
  added := hm.added
  names y := by
    have hfst : (ps.zip xs).map Prod.fst = ps := List.map_fst_zip (by omega)
    rw [hm.names]
    simp only [List.mem_singleton, exists_eq_left, Compiler.varNames, Token.mem_varNamesItems]
    conv_rhs => rw [← hfst]
    simp
  nodup := hm.nodup
  accepts := by
    intro p hp q hq
    rw [List.mem_singleton.1 hp, Token.vars, Token.mem_vars_items] at hq
    obtain ⟨pat, hpat, hq⟩ := hq
    have hfst : (ps.zip xs).map Prod.fst = ps := List.map_fst_zip (by omega)
    rw [← hfst] at hpat
    obtain ⟨pair, hpair, rfl⟩ := List.mem_map.1 hpat
    exact hm.accepts pair hpair q hq
  equal := by
    intro p hp
    rw [List.mem_singleton.1 hp]
    simp only [Bindings.substitute, hph, if_true, Bindings.substituteItems_eq_map,
      Token.equal_list_list]
    exact Tokens.equal_map_of_zip _ hlen.symm hm.equal

end Matched

/-- Each way well-keyed patterns match tokens that a template is
matched against, from well-keyed bindings, satisfies `Matched`. The induction follows the
matcher, a list pattern handing its items to `matchAll`. -/
theorem matched_of_mem :
    (∀ pat val binds, pat.wellKeyed = true → val.Matchable →
      (∀ q ∈ binds, q.2.wellKeyed = true) →
        ∀ b ∈ matchOne pat val binds, Matched binds b [(pat, val)]) ∧
    (∀ pairs binds, (∀ p ∈ pairs, p.1.wellKeyed = true ∧ p.2.Matchable) →
      (∀ q ∈ binds, q.2.wellKeyed = true) → ∀ b ∈ matchAll pairs binds, Matched binds b pairs) := by
  apply matchOne.mutual_induct
    (fun pat val binds => pat.wellKeyed = true → val.Matchable →
      (∀ q ∈ binds, q.2.wellKeyed = true) → ∀ b ∈ matchOne pat val binds, Matched binds b [(pat, val)])
    (fun pairs binds => (∀ p ∈ pairs, p.1.wellKeyed = true ∧ p.2.Matchable) →
      (∀ q ∈ binds, q.2.wellKeyed = true) → ∀ b ∈ matchAll pairs binds, Matched binds b pairs)
  -- a variable
  case case2 =>
    intro val binds name cat hacc prev hprev heq _ _ _ b hb
    rw [matchOne_var, if_neg hacc, hprev] at hb
    simp only [heq, if_true, List.mem_singleton] at hb
    subst hb
    exact Matched.var_bound (by simpa using hacc) hprev heq
  case case4 =>
    intro val binds name cat hacc hnone _ hval _ b hb
    rw [matchOne_var, if_neg hacc, hnone] at hb
    simp only [List.mem_singleton] at hb
    subst hb
    exact Matched.var_new (by simpa using hacc) hnone hval
  -- a list capture: the head against the first item, the tail against the others
  case case5 =>
    intro binds h t x xs iht ihh hw hval hbinds b hb
    simp only [Token.wellKeyed, Bool.and_eq_true] at hw
    rw [matchOne_listCap] at hb
    obtain ⟨b₁, hb₁, hb⟩ := List.mem_flatMap.1 hb
    have hitems := hval.of_list
    have hm₁ := ihh hw.1 (hitems x List.mem_cons_self).2 hbinds b₁ hb₁
    have hm₂ := iht b₁ hw.2
      (Token.Matchable.list fun y hy => hitems y (List.mem_cons_of_mem _ hy))
      (hm₁.keyed hbinds) b hb
    exact (hm₁.append hm₂).listCap (hitems x List.mem_cons_self).1
  -- a map capture: the key and value against one entry, the rest against the others
  case case7 =>
    intro binds k v r es ihr ihv ihk hw hval hbinds b hb
    simp only [Token.wellKeyed, Bool.and_eq_true] at hw
    rw [matchOne_mapCap] at hb
    obtain ⟨p, hp, hb⟩ := List.mem_flatMap.1 hb
    obtain ⟨b₂, hb₂, hb⟩ := List.mem_flatMap.1 hb
    obtain ⟨b₁, hb₁, hb₂⟩ := List.mem_flatMap.1 hb₂
    have hi : es[p.2]? = some p.1 := List.mem_zipIdx_iff_getElem?.1 hp
    have hentry := hval.of_map p.1 (List.mem_of_getElem? hi)
    have hrest : (Token.map (Entries.eraseAt es p.2)).Matchable := by
      rw [Entries.eraseAt_eq_eraseIdx ((Token.wellKeyed_map es).1 hval.1.1).2]
      exact hval.eraseIdx p.2
    have hm₁ := ihk p hw.1.1 hentry.2.1 hbinds b₁ hb₁
    have hm₂ := ihv p b₁ hw.1.2 hentry.2.2 (hm₁.keyed hbinds) b₂ hb₂
    have hm₃ := ihr p b₂ hw.2 hrest ((hm₁.append hm₂).keyed hbinds) b hb
    exact ((hm₁.append hm₂).append hm₃).mapCap hbinds hw.1.1 hw.1.2 hw.2 hval hi
  -- a list without placeholders, or a token that is no placeholder, compared by equality
  case case9 =>
    intro val binds ps hlit heq _ _ _ b hb
    rw [matchOne_list, if_pos hlit, if_pos heq, List.mem_singleton] at hb
    subst hb
    exact Matched.literal (by simpa using hlit) heq
  case case14 =>
    intro pat val binds heq hvar hlc hmc hlist hw hval _ b hb
    rw [matchOne_of_literal hvar hlc hmc hlist, if_pos heq, List.mem_singleton] at hb
    subst hb
    -- a map that equals a token without placeholders holds none itself
    have hph : pat.hasPlaceholder = false := by
      cases pat with
      | var => exact absurd rfl (hvar _ _)
      | listCap => exact absurd rfl (hlc _ _)
      | mapCap => exact absurd rfl (hmc _ _ _)
      | list => exact absurd rfl (hlist _)
      | num | text | bool | sym => rfl
      | map es =>
        obtain ⟨fs, rfl, -, -⟩ := Token.equal_map_iff.1 heq
        exact Token.hasPlaceholder_eq_false_of_equal _ _ _ ⟨Nat.lt_succ_self _, hw⟩
          hval.1.1 heq (Token.hasPlaceholder_eq_false_of_holdsValues rfl hval.2)
    exact Matched.literal hph heq
  -- a list pattern: its items against the items of a list as long
  case case11 =>
    intro binds ps hph xs hlen ih hw hval hbinds b hb
    rw [matchOne_list, if_neg hph] at hb
    simp only [hlen, if_true] at hb
    have hlen' : xs.length = ps.length := by simpa using hlen
    refine (ih (fun p hp => ?_) hbinds b hb).list hlen' (by simpa using hph)
    exact ⟨(Token.wellKeyed_list ps).1 hw _ (List.of_mem_zip hp).1,
      (hval.of_list _ (List.of_mem_zip hp).2).2⟩
  -- pairs one after the other
  case case16 =>
    intro binds _ _ b hb
    rw [matchAll_nil, List.mem_singleton] at hb
    subst hb
    exact Matched.nil
  case case17 =>
    intro binds pat val rest ihrest ih hpairs hbinds b hb
    rw [matchAll_cons] at hb
    obtain ⟨b₁, hb₁, hb⟩ := List.mem_flatMap.1 hb
    have hp := hpairs (pat, val) List.mem_cons_self
    have hm₁ := ih hp.1 hp.2 hbinds b₁ hb₁
    exact hm₁.append (ihrest b₁ (fun q hq => hpairs q (List.mem_cons_of_mem _ hq))
      (hm₁.keyed hbinds) b hb)
  -- every other case answers nothing
  case case1 =>
    intro val binds name cat hrej _ _ _ b hb
    simp [matchOne_var, hrej] at hb
  case case3 =>
    intro val binds name cat hacc prev hprev hne _ _ _ b hb
    simp [matchOne_var, hacc, hprev, hne] at hb
  case case6 =>
    intro val binds h t hnot _ _ _ b hb
    simp [matchOne_listCap_of hnot] at hb
  case case8 =>
    intro val binds k v r hnot _ _ _ b hb
    cases val with
    | map es => exact absurd rfl (hnot es)
    | _ => simp [matchOne] at hb
  case case10 =>
    intro val binds ps hlit hne _ _ _ b hb
    simp [matchOne_list, hlit, hne] at hb
  case case12 =>
    intro binds ps hph xs hlen _ _ _ b hb
    simp [matchOne_list, hph, hlen] at hb
  case case13 =>
    intro val binds ps hph hnot _ _ _ b hb
    cases val with
    | list xs => exact absurd rfl (hnot xs)
    | _ => simp [matchOne_list, hph] at hb
  case case15 =>
    intro pat val binds hne hvar hlc hmc hlist _ _ _ b hb
    simp [matchOne_of_literal hvar hlc hmc hlist, hne] at hb


end Pattern

namespace Template

/-- Take a template whose maps are well
keyed, and a workspace whose tokens are well keyed, free of NaN, and whose lists and maps hold
values only. Every match that a request to the enumeration of the matches at `pos` answers
binds the placeholder names of the template and no other name, each once; binds each variable
of the template to a token its category accepts; and substituting it into the template gives
tokens equal, one by one, to the tokens the template covers. -/
theorem next_instantiate {tmpl ws : List Token} {pos : Int}
    (htmpl : ∀ t ∈ tmpl, t.wellKeyed = true) (hws : ∀ t ∈ ws, t.Matchable) (k : Nat)
    {b : Bindings}
    (h : ((fun m : Pattern.Matches => m.next.2)^[k] (Pattern.Matches.start tmpl ws pos)).next.1 =
      some b) :
    (b.map Prod.fst).Nodup ∧ (∀ x, x ∈ b.map Prod.fst ↔ x ∈ Compiler.varNamesItems tmpl) ∧
    (∀ t ∈ tmpl, ∀ q ∈ t.vars, ∃ v, b.lookup q.1 = some v ∧ Token.accepts q.2 v = true) ∧
    Tokens.equal (Bindings.instantiate b tmpl) ((ws.drop pos.toNat).take tmpl.length) = true := by
  rw [(Pattern.Matches.next_spec _).1, Pattern.Matches.pendingMatches_iterate,
    Pattern.Matches.pendingMatches_start, List.head?_drop, allMatches] at h
  split at h
  · simp at h
  rename_i hfit
  have hlen : tmpl.length ≤ (ws.drop pos.toNat).length := by
    simp only [Bool.or_eq_true, decide_eq_true_eq, not_or, not_lt] at hfit
    simp only [List.length_drop]
    omega
  -- the pairs of the match are the template against the tokens it covers
  have hzip : tmpl.zip (ws.drop pos.toNat) = tmpl.zip ((ws.drop pos.toNat).take tmpl.length) := by
    conv_lhs => rw [List.zip_eq_zip_take_min]
    conv_rhs => rw [List.zip_eq_zip_take_min]
    simp only [List.length_take, Nat.min_eq_left hlen, Nat.min_self, List.take_take,
      List.take_length]
  have hslice : ((ws.drop pos.toNat).take tmpl.length).length = tmpl.length := by
    simp only [List.length_take]
    omega
  rw [hzip] at h
  have hfst : (tmpl.zip ((ws.drop pos.toNat).take tmpl.length)).map Prod.fst = tmpl :=
    List.map_fst_zip (Nat.le_of_eq hslice.symm)
  have hm := Pattern.matched_of_mem.2 _ [] (fun p hp => ⟨htmpl _ (List.of_mem_zip hp).1,
    hws _ (List.mem_of_mem_drop (List.mem_of_mem_take (List.of_mem_zip hp).2))⟩) (by simp) b
    (List.mem_of_getElem? h)
  refine ⟨hm.nodup List.nodup_nil, fun x => ?_, fun t ht q hq => ?_, ?_⟩
  · rw [hm.names, Token.mem_varNamesItems]
    conv_rhs => rw [← hfst]
    simp
  · rw [← hfst] at ht
    obtain ⟨p, hp, rfl⟩ := List.mem_map.1 ht
    exact hm.accepts p hp q hq
  · exact Tokens.equal_map_of_zip _ hslice.symm hm.equal

/-- A list capture matched against a list of two booleans. -/
theorem next_instantiate_listCap :
    (∀ t ∈ [Token.listCap (.var "H" .any) (.var "T" .any)], t.wellKeyed = true) ∧
    (∀ t ∈ [Token.list [.bool true, .bool false]], t.Matchable) ∧
    ((fun m : Pattern.Matches => m.next.2)^[0] (Pattern.Matches.start
        [.listCap (.var "H" .any) (.var "T" .any)] [.list [.bool true, .bool false]] 0)).next.1 =
      some [("H", .bool true), ("T", .list [.bool false])] ∧
    (([("H", Token.bool true), ("T", Token.list [.bool false])] : Bindings).map Prod.fst).Nodup ∧
    (∀ x, x ∈ ([("H", Token.bool true), ("T", Token.list [.bool false])] : Bindings).map Prod.fst ↔
      x ∈ Compiler.varNamesItems [.listCap (.var "H" .any) (.var "T" .any)]) ∧
    (∀ t ∈ [Token.listCap (.var "H" .any) (.var "T" .any)], ∀ q ∈ t.vars, ∃ v,
      ([("H", Token.bool true), ("T", Token.list [.bool false])] : Bindings).lookup q.1 = some v ∧
        Token.accepts q.2 v = true) ∧
    Tokens.equal (Bindings.instantiate [("H", .bool true), ("T", .list [.bool false])]
        [.listCap (.var "H" .any) (.var "T" .any)])
      (([Token.list [.bool true, .bool false]].drop (0 : Int).toNat).take 1) = true := by
  have htmpl : ∀ t ∈ [Token.listCap (.var "H" .any) (.var "T" .any)], t.wellKeyed = true := by
    simp [Token.wellKeyed]
  have hws : ∀ t ∈ [Token.list [.bool true, .bool false]], t.Matchable := by
    simp [Token.Matchable, Token.Keyable, Token.wellKeyed, Token.wellKeyed.allItems, Token.hasNaN,
      Token.hasNaN.anyItem, Token.holdsValues, Token.holdsValues.items, Token.isValue, Token.kind]
  have hnext : ((fun m : Pattern.Matches => m.next.2)^[0] (Pattern.Matches.start
      [.listCap (.var "H" .any) (.var "T" .any)] [.list [.bool true, .bool false]] 0)).next.1 =
      some [("H", .bool true), ("T", .list [.bool false])] := by
    rw [Function.iterate_zero_apply, (Pattern.Matches.next_spec _).1,
      Pattern.Matches.pendingMatches_start]
    simp [allMatches, Pattern.matchOne_listCap, Pattern.matchOne_var, Token.accepts,
      Token.isValue, Token.kind, List.lookup_cons]
  exact ⟨htmpl, hws, hnext, next_instantiate htmpl hws 0 hnext⟩

end Template


end Reckon

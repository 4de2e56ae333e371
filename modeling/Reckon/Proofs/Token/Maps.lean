import Reckon.Proofs.Token.Equality

/-!
# Maps built from entries

`Entries.build` turns a list of entries into a map. Equality is an equivalence on the tokens
that are well keyed and free of NaN (`Token.Keyable`), so the keys of a list fall into classes
of equal keys. Main statement (`Entries.build_classes`): the map holds one entry per class,
keyed by the first key of the class and in the order of first occurrence, and carrying the
value of the last entry of the class. So a lookup finds the last value given to an equal key,
merging two maps is their union in which the second map's values win and its new keys come
last, and removing an entry leaves the others as they were.

Everything comes from one step: adding an entry gives its value to the first key equal to
its own, or puts it last (`Entries.insert_cons`). The lemmas about one step come first, then
the fold over the entries, by induction on the entries from the right.
-/

namespace Reckon

namespace Token

/-- A token that equality treats as an equivalence: every map in it is well keyed, and no NaN
occurs in it. -/
def Keyable (t : Token) : Prop := t.wellKeyed = true ∧ t.hasNaN = false

theorem Keyable.equal_self {t : Token} (h : t.Keyable) : t.equal t = true :=
  equal_self_below (sizeOf t + 1) t ⟨by omega, h.1⟩ h.2

end Token

namespace Tokens

/-- The tokens of `ks` that no token before them equals, in their order, where `before` are
the tokens that come before `ks`. -/
def firstOccurrencesAfter (before : List Token) : List Token → List Token
  | [] => []
  | k :: ks =>
    if before.any (·.equal k) then firstOccurrencesAfter (before ++ [k]) ks
    else k :: firstOccurrencesAfter (before ++ [k]) ks

/-- The tokens of `ks` that no earlier token equals: among tokens that equality treats as an
equivalence, the first token of each class, in the order of first occurrence. -/
def firstOccurrences (ks : List Token) : List Token := firstOccurrencesAfter [] ks

theorem firstOccurrencesAfter_append_singleton (before ks : List Token) (k : Token) :
    firstOccurrencesAfter before (ks ++ [k]) =
      firstOccurrencesAfter before ks ++ if (before ++ ks).any (·.equal k) then [] else [k] := by
  induction ks generalizing before with
  | nil => by_cases h : before.any (·.equal k) <;> simp [firstOccurrencesAfter, h]
  | cons k' ks ih =>
    by_cases h : before.any (·.equal k') <;> simp [firstOccurrencesAfter, h, ih]

theorem firstOccurrences_append_singleton (ks : List Token) (k : Token) :
    firstOccurrences (ks ++ [k]) =
      firstOccurrences ks ++ if ks.any (·.equal k) then [] else [k] := by
  simp [firstOccurrences, firstOccurrencesAfter_append_singleton]

end Tokens

namespace Entries

section Step

variable {acc : List (Token × Token)} {e : Token × Token} {k : Token}

@[simp] theorem insert_nil (e : Token × Token) : insert [] e = [e] := rfl

/-- The first key equal to the new one takes its
value; a map with no such key gets the entry last. -/
theorem insert_cons (a e : Token × Token) (es : List (Token × Token)) :
    insert (a :: es) e = if a.1.equal e.1 then (a.1, e.2) :: es else a :: insert es e := by
  unfold insert findKey?
  rw [List.findIdx?_cons]
  by_cases ha : a.1.equal e.1 = true
  · simp [ha]
  · cases List.findIdx? (fun f => f.1.equal e.1) es <;> simp [ha]

@[simp] theorem get?_nil (k : Token) : get? [] k = none := rfl

theorem get?_cons (a : Token × Token) (es : List (Token × Token)) (k : Token) :
    get? (a :: es) k = if a.1.equal k then some a.2 else get? es k := by
  by_cases h : a.1.equal k = true <;> simp [get?, h]

theorem get?_append (es fs : List (Token × Token)) (k : Token) :
    get? (es ++ fs) k = (get? es k).or (get? fs k) := by
  induction es with
  | nil => simp
  | cons a es ih => by_cases h : a.1.equal k = true <;> simp [get?_cons, h, ih]

theorem map_fst_insert (acc : List (Token × Token)) (e : Token × Token) :
    (insert acc e).map Prod.fst =
      if acc.any (·.1.equal e.1) then acc.map Prod.fst else acc.map Prod.fst ++ [e.1] := by
  induction acc with
  | nil => simp
  | cons a acc ih =>
    rw [insert_cons, List.any_cons]
    cases h : a.1.equal e.1
    · rw [if_neg (by simp), List.map_cons, ih, Bool.false_or]
      split <;> rfl
    · simp

theorem insert_of_forall_ne (h : ∀ a ∈ acc, a.1.equal e.1 = false) : insert acc e = acc ++ [e] := by
  induction acc with
  | nil => rfl
  | cons a acc ih =>
    rw [insert_cons, if_neg (by simp [h a List.mem_cons_self]),
      ih fun b hb => h b (List.mem_cons_of_mem _ hb)]
    rfl

theorem get?_insert (hacc : ∀ a ∈ acc, a.1.wellKeyed = true) (he : e.1.wellKeyed = true)
    (hk : k.wellKeyed = true) :
    get? (insert acc e) k = if e.1.equal k then some e.2 else get? acc k := by
  have hP := Token.equivOn_wellKeyed
  induction acc with
  | nil => simp [get?_cons]
  | cons a acc ih =>
    have ha := hacc a List.mem_cons_self
    rw [insert_cons]
    by_cases hae : a.1.equal e.1 = true
    · -- `a` takes the new value
      have hiff : a.1.equal k = e.1.equal k := Bool.eq_iff_iff.2
        ⟨fun h => hP.trans he ha hk (hP.symm ha he hae) h, fun h => hP.trans ha he hk hae h⟩
      by_cases hek : e.1.equal k = true <;> simp [hae, get?_cons, hiff, hek]
    · rw [if_neg hae, get?_cons, get?_cons, ih fun x hx => hacc x (List.mem_cons_of_mem _ hx)]
      by_cases hak : a.1.equal k = true
      · -- the new key cannot equal `k` too: it would equal `a`'s key
        have hek : e.1.equal k = false := by
          by_contra hne
          exact hae (hP.trans ha hk he hak (hP.symm he hk (by simpa using hne)))
        simp [hak, hek]
      · simp [hak]

theorem insert_eq_map (hapart : keysApart acc = true) (hacc : ∀ a ∈ acc, a.1.wellKeyed = true)
    (he : e.1.wellKeyed = true) :
    insert acc e = acc.map (fun a => if a.1.equal e.1 then (a.1, e.2) else a) ++
      if acc.any (·.1.equal e.1) then [] else [e] := by
  have hP := Token.equivOn_wellKeyed
  induction acc with
  | nil => simp
  | cons a acc ih =>
    simp only [keysApart, Bool.and_eq_true, List.all_eq_true, Bool.not_eq_eq_eq_not,
      Bool.not_true] at hapart
    have ha := hacc a List.mem_cons_self
    have hacc' : ∀ x ∈ acc, x.1.wellKeyed = true := fun x hx => hacc x (List.mem_cons_of_mem _ hx)
    rw [insert_cons]
    by_cases hae : a.1.equal e.1 = true
    · -- no later key equals the new one: it would equal `a`'s key
      have hrest : ∀ x ∈ acc, x.1.equal e.1 = false := by
        intro x hx
        by_contra hxe
        have hax := hP.trans ha he (hacc' x hx) hae (hP.symm (hacc' x hx) he (by simpa using hxe))
        simp [hapart.1 x hx] at hax
      have hmap : acc.map (fun x => if x.1.equal e.1 then (x.1, e.2) else x) = acc := by
        conv => rhs; rw [← List.map_id acc]
        exact List.map_congr_left fun x hx => by simp [hrest x hx]
      simp [hae, hmap]
    · rw [if_neg hae, ih hapart.2 hacc', List.any_cons, Bool.eq_false_iff.2 hae, Bool.false_or]
      simp [hae]

end Step

section Fold

variable {es : List (Token × Token)} {e : Token × Token}

theorem build_append_singleton (es : List (Token × Token)) (e : Token × Token) :
    build (es ++ [e]) = insert (build es) e := by
  simp [build, List.foldl_append]

theorem mem_keys_of_mem_build {y : Token} (h : y ∈ (build es).map Prod.fst) :
    y ∈ es.map Prod.fst := by
  induction es using List.reverseRecOn with
  | nil => simp [build] at h
  | append_singleton es e ih =>
    rw [build_append_singleton, map_fst_insert] at h
    split at h
    · simpa using Or.inl (ih h)
    · rcases List.mem_append.1 h with h | h
      · simpa using Or.inl (ih h)
      · simp_all

theorem keys_wellKeyed_build (hes : ∀ e ∈ es, e.1.wellKeyed = true) :
    ∀ f ∈ build es, f.1.wellKeyed = true := by
  intro f hf
  obtain ⟨e, he, hkey⟩ := List.mem_map.1 (mem_keys_of_mem_build (List.mem_map_of_mem hf))
  exact hkey ▸ hes e he

theorem exists_key_of_mem (hes : ∀ e ∈ es, e.1.Keyable) {x : Token} (hx : x ∈ es.map Prod.fst) :
    ∃ y ∈ (build es).map Prod.fst, y.equal x = true := by
  have hP := Token.equivOn_wellKeyed
  induction es using List.reverseRecOn with
  | nil => simp at hx
  | append_singleton es e ih =>
    have hes' : ∀ f ∈ es, f.1.Keyable := fun f hf => hes f (List.mem_append_left _ hf)
    have hold : ∀ y ∈ (build es).map Prod.fst, y ∈ (build (es ++ [e])).map Prod.fst := by
      intro y hy
      rw [build_append_singleton, map_fst_insert]
      split <;> simp [hy]
    rw [List.map_append, List.mem_append] at hx
    rcases hx with hx | hx
    · obtain ⟨y, hy, hyx⟩ := ih hes' hx
      exact ⟨y, hold y hy, hyx⟩
    · -- the new key: a key already there equals it, or it is added itself
      obtain rfl : x = e.1 := by simpa using hx
      rw [build_append_singleton, map_fst_insert]
      split
      · rename_i hany
        obtain ⟨a, ha, hae⟩ := List.any_eq_true.1 hany
        exact ⟨a.1, List.mem_map_of_mem ha, hae⟩
      · exact ⟨e.1, by simp, (hes e (by simp)).equal_self⟩

theorem any_keys_build (hes : ∀ e ∈ es, e.1.Keyable) {k : Token} (hk : k.wellKeyed = true) :
    (build es).any (·.1.equal k) = (es.map Prod.fst).any (·.equal k) := by
  have hP := Token.equivOn_wellKeyed
  refine Bool.eq_iff_iff.2 ⟨fun h => ?_, fun h => ?_⟩
  · obtain ⟨f, hf, hfk⟩ := List.any_eq_true.1 h
    exact List.any_eq_true.2 ⟨f.1, mem_keys_of_mem_build (List.mem_map_of_mem hf), hfk⟩
  · obtain ⟨x, hx, hxk⟩ := List.any_eq_true.1 h
    obtain ⟨e, he, rfl⟩ := List.mem_map.1 hx
    obtain ⟨y, hy, hye⟩ := exists_key_of_mem hes hx
    obtain ⟨f, hf, rfl⟩ := List.mem_map.1 hy
    have hfw := keys_wellKeyed_build (fun e he => (hes e he).1) f hf
    exact List.any_eq_true.2 ⟨f, hf, hP.trans hfw (hes e he).1 hk hye hxk⟩

/-- The keys of a built map are the first key of each class, in order. -/
theorem map_fst_build (hes : ∀ e ∈ es, e.1.Keyable) :
    (build es).map Prod.fst = Tokens.firstOccurrences (es.map Prod.fst) := by
  induction es using List.reverseRecOn with
  | nil => rfl
  | append_singleton es e ih =>
    have hes' : ∀ f ∈ es, f.1.Keyable := fun f hf => hes f (List.mem_append_left _ hf)
    rw [build_append_singleton, map_fst_insert, List.map_append, List.map_singleton,
      Tokens.firstOccurrences_append_singleton, ← ih hes',
      any_keys_build hes' (hes e (by simp)).1]
    split <;> simp

/-- A lookup in a built map finds the value of the last entry whose key equals the key
looked up. -/
theorem get?_build (hes : ∀ e ∈ es, e.1.wellKeyed = true) {k : Token} (hk : k.wellKeyed = true) :
    get? (build es) k = get? es.reverse k := by
  induction es using List.reverseRecOn with
  | nil => rfl
  | append_singleton es e ih =>
    have hes' : ∀ f ∈ es, f.1.wellKeyed = true := fun f hf => hes f (List.mem_append_left _ hf)
    rw [build_append_singleton, get?_insert (keys_wellKeyed_build hes') (hes e (by simp)) hk,
      ih hes', List.reverse_append, List.reverse_singleton, List.singleton_append, get?_cons]

theorem get?_isSome_iff {k : Token} :
    (get? es k).isSome ↔ ∃ e ∈ es, e.1.equal k = true := by
  simp [get?, List.find?_isSome]

theorem build_eq_self (h : keysApart es = true) : build es = es := by
  induction es using List.reverseRecOn with
  | nil => rfl
  | append_singleton es e ih =>
    rw [keysApart_iff, List.pairwise_append] at h
    obtain ⟨hes, -, hlast⟩ := h
    rw [build_append_singleton, ih (keysApart_iff.2 hes),
      insert_of_forall_ne fun a ha => hlast a ha e (by simp)]

theorem build_eq_self_iff : build es = es ↔ keysApart es = true :=
  ⟨fun h => h ▸ build_keysApart es, build_eq_self⟩

theorem eraseAt_eq_eraseIdx (h : keysApart es = true) (i : Nat) : eraseAt es i = es.eraseIdx i :=
  build_eq_self (keysApart_iff.2 ((keysApart_iff.1 h).sublist (List.eraseIdx_sublist es i)))

/-- The union of two maps in which the second map's values win: the keys of `m` in their
order, each with the value of an equal key of `o` if there is one, then the keys of `o` equal
to no key of `m`, in their order. -/
def union (m o : List (Token × Token)) : List (Token × Token) :=
  m.map (fun f => (f.1, (get? o f.1).getD f.2)) ++ o.filter fun g => !m.any fun f => f.1.equal g.1

theorem union_insert {acc o : List (Token × Token)} {g : Token × Token}
    (hacc : keysApart acc = true) (haccKeys : ∀ a ∈ acc, a.1.wellKeyed = true)
    (ho : keysApart (g :: o) = true) (hoKeys : ∀ x ∈ g :: o, x.1.wellKeyed = true) :
    union (insert acc g) o = union acc (g :: o) := by
  have hP := Token.equivOn_wellKeyed
  simp only [keysApart, Bool.and_eq_true, List.all_eq_true, Bool.not_eq_eq_eq_not,
    Bool.not_true] at ho
  have hg := hoKeys g List.mem_cons_self
  have ho' : ∀ x ∈ o, x.1.wellKeyed = true := fun x hx => hoKeys x (List.mem_cons_of_mem _ hx)
  -- a key equal to `g`'s finds nothing in `o`, whose keys are apart from `g`'s
  have hnone : ∀ y, y.wellKeyed = true → g.1.equal y = true → get? o y = none := by
    intro y hy hgy
    rw [← Option.not_isSome_iff_eq_none, get?_isSome_iff]
    rintro ⟨x, hx, hxy⟩
    have := hP.trans hg hy (ho' x hx) hgy (hP.symm (ho' x hx) hy hxy)
    simp [ho.1 x hx] at this
  by_cases hany : acc.any (·.1.equal g.1) = true
  · -- `g` gives its value to the key of `acc` equal to its own, and adds no key
    have hkeys : ∀ y, ((acc.map fun a => if a.1.equal g.1 then (a.1, g.2) else a).any
        fun f => f.1.equal y) = acc.any fun f => f.1.equal y := by
      intro y
      simp only [List.any_map]
      congr 1
      funext a
      simp only [Function.comp_apply]
      split <;> rfl
    rw [insert_eq_map hacc haccKeys hg, if_pos hany, List.append_nil, union, union,
      List.filter_cons_of_neg (by simp [hany]), List.map_map]
    simp only [hkeys]
    congr 1
    refine List.map_congr_left fun f hf => ?_
    have hf' := haccKeys f hf
    by_cases hfg : f.1.equal g.1 = true
    · simp [hfg, get?_cons, hP.symm hf' hg hfg, hnone f.1 hf' (hP.symm hf' hg hfg)]
    · have hgf : g.1.equal f.1 = false := by
        by_contra h
        exact hfg (hP.symm hg hf' (by simpa using h))
      simp [hfg, get?_cons, hgf]
  · -- `g` goes last, and no key of `acc` equals its own
    have hne : ∀ a ∈ acc, a.1.equal g.1 = false := by
      intro a ha
      by_contra h
      exact hany (List.any_eq_true.2 ⟨a, ha, by simpa using h⟩)
    have hgo : get? o g.1 = none := by
      rw [← Option.not_isSome_iff_eq_none, get?_isSome_iff]
      rintro ⟨x, hx, hxg⟩
      have := hP.symm (ho' x hx) hg hxg
      simp [ho.1 x hx] at this
    rw [insert_of_forall_ne hne, union, union, List.filter_cons_of_pos (by simpa using hany),
      List.map_append, List.map_singleton, hgo, Option.getD_none, List.append_assoc,
      List.singleton_append]
    congr 1
    · refine List.map_congr_left fun f hf => ?_
      have hgf : g.1.equal f.1 = false := by
        by_contra h
        have := hP.symm hg (haccKeys f hf) (by simpa using h)
        simp [hne f hf] at this
      simp [get?_cons, hgf]
    · congr 1
      refine List.filter_congr fun x hx => ?_
      simp [ho.1 x hx]

theorem foldl_insert_eq_union {o : List (Token × Token)} (ho : keysApart o = true)
    (hoKeys : ∀ g ∈ o, g.1.wellKeyed = true) :
    ∀ {acc : List (Token × Token)}, keysApart acc = true → (∀ a ∈ acc, a.1.wellKeyed = true) →
      o.foldl insert acc = union acc o := by
  induction o with
  | nil => intro acc _ _; simp [union]
  | cons g o ih =>
    intro acc hacc haccKeys
    have ho' : keysApart o = true := by
      simp only [keysApart, Bool.and_eq_true] at ho
      exact ho.2
    -- the map after `g` keeps its keys apart and well keyed
    have haccKeys' : ∀ a ∈ insert acc g, a.1.wellKeyed = true := by
      rw [← build_eq_self hacc, ← build_append_singleton]
      exact keys_wellKeyed_build fun x hx => by
        rcases List.mem_append.1 hx with hx | hx
        · exact haccKeys x hx
        · exact (List.mem_singleton.1 hx) ▸ hoKeys g List.mem_cons_self
    rw [List.foldl_cons, ih ho' (fun x hx => hoKeys x (List.mem_cons_of_mem _ hx))
      (keysApart_insert hacc g) haccKeys', union_insert hacc haccKeys ho hoKeys]

/-- Merging two maps is their union in which the second map's values win. -/
theorem merge_eq_union {m o : List (Token × Token)} (hm : keysApart m = true)
    (hmKeys : ∀ f ∈ m, f.1.wellKeyed = true) (ho : keysApart o = true)
    (hoKeys : ∀ g ∈ o, g.1.wellKeyed = true) : merge m o = union m o := by
  rw [merge, build, List.foldl_append, ← build, build_eq_self hm,
    foldl_insert_eq_union ho hoKeys hm hmKeys]

/-- A map built from entries whose keys equality treats as an equivalence holds one entry
per class of equal keys: the first key of the class, in the order of first occurrence, with the
value of the last entry of the class. A lookup finds a value exactly when some key of the
entries equals the key looked up, and then the last value given to such a key; merging with
another map is their union in which the other map's values win; removing the `i`-th entry leaves
the others as they were. -/
theorem build_classes (hes : ∀ e ∈ es, e.1.Keyable) :
    (build es).map Prod.fst = Tokens.firstOccurrences (es.map Prod.fst) ∧
    (∀ f ∈ build es, get? es.reverse f.1 = some f.2) ∧
    (∀ k : Token, k.wellKeyed = true →
      get? (build es) k = get? es.reverse k ∧
        ((get? (build es) k).isSome ↔ ∃ e ∈ es, e.1.equal k = true)) ∧
    (∀ fs : List (Token × Token), (∀ f ∈ fs, f.1.wellKeyed = true) →
      merge (build es) (build fs) = union (build es) (build fs)) ∧
    ∀ i, eraseAt (build es) i = (build es).eraseIdx i := by
  have hkeyed : ∀ e ∈ es, e.1.wellKeyed = true := fun e he => (hes e he).1
  refine ⟨map_fst_build hes, fun f hf => ?_, fun k hk => ⟨get?_build hkeyed hk, ?_⟩,
    fun fs hfs => merge_eq_union (build_keysApart es) (keys_wellKeyed_build hkeyed)
      (build_keysApart fs) (keys_wellKeyed_build hfs),
    eraseAt_eq_eraseIdx (build_keysApart es)⟩
  · -- the key of an entry of the map is a key of the entries, so it equals itself
    obtain ⟨e, he, hef⟩ := List.mem_map.1 (mem_keys_of_mem_build (List.mem_map_of_mem hf))
    have hself : f.1.equal f.1 = true := hef ▸ (hes e he).equal_self
    rw [← get?_build hkeyed (hef ▸ hkeyed e he), get?, find?_self (build_keysApart es) hf hself,
      Option.map_some]
  · rw [get?_build hkeyed hk, get?_isSome_iff]
    simp

/-- Two entries for the key `"a"`: the map keeps it first, with the later value. -/
theorem build_classes_repeated_key :
    (∀ e ∈ [(Token.text "a", Token.bool true), (.text "b", .bool false), (.text "a", .bool false)],
      e.1.Keyable) ∧
    ((build [(.text "a", .bool true), (.text "b", .bool false), (.text "a", .bool false)]).map
        Prod.fst =
      Tokens.firstOccurrences
        ([(Token.text "a", Token.bool true), (.text "b", .bool false), (.text "a", .bool false)].map
          Prod.fst) ∧
    (∀ f ∈ build [(.text "a", .bool true), (.text "b", .bool false), (.text "a", .bool false)],
      get? [(Token.text "a", Token.bool true), (.text "b", .bool false),
        (.text "a", .bool false)].reverse f.1 = some f.2) ∧
    (∀ k : Token, k.wellKeyed = true →
      get? (build [(.text "a", .bool true), (.text "b", .bool false), (.text "a", .bool false)]) k =
          get? [(Token.text "a", Token.bool true), (.text "b", .bool false),
            (.text "a", .bool false)].reverse k ∧
        ((get? (build [(.text "a", .bool true), (.text "b", .bool false),
            (.text "a", .bool false)]) k).isSome ↔
          ∃ e ∈ [(Token.text "a", Token.bool true), (.text "b", .bool false),
            (.text "a", .bool false)], e.1.equal k = true)) ∧
    (∀ fs : List (Token × Token), (∀ f ∈ fs, f.1.wellKeyed = true) →
      merge (build [(.text "a", .bool true), (.text "b", .bool false), (.text "a", .bool false)])
          (build fs) =
        union (build [(.text "a", .bool true), (.text "b", .bool false), (.text "a", .bool false)])
          (build fs)) ∧
    ∀ i, eraseAt (build [(.text "a", .bool true), (.text "b", .bool false),
        (.text "a", .bool false)]) i =
      (build [(.text "a", .bool true), (.text "b", .bool false),
        (.text "a", .bool false)]).eraseIdx i) := by
  have h : ∀ e ∈ [(Token.text "a", Token.bool true), (.text "b", .bool false),
      (.text "a", .bool false)], e.1.Keyable := by
    simp [Token.Keyable, Token.wellKeyed, Token.hasNaN]
  exact ⟨h, build_classes h⟩

end Fold

/-! ### The source's index -/

section Indexed

variable (H : Fnv) {es : List (Token × Token)} {k : Token}

theorem findKey?_indexed (hes : ∀ e ∈ es, e.1.wellKeyed = true) (hk : k.wellKeyed = true) :
    Indexed.findKey? H es k = findKey? es k := by
  induction es with
  | nil => rfl
  | cons a es ih =>
    have hsame : (a.1.hash H == k.hash H && a.1.equal k) = a.1.equal k := by
      cases h : a.1.equal k
      · simp
      · simp [Token.hash_eq_of_equal H (hes a List.mem_cons_self) hk h]
    simp only [Indexed.findKey?, findKey?, List.findIdx?_cons] at ih ⊢
    rw [hsame, ih fun f hf => hes f (List.mem_cons_of_mem _ hf)]

theorem get?_eq_findKey? (es : List (Token × Token)) (k : Token) :
    get? es k = (findKey? es k).bind fun i => es[i]?.map (·.2) := by
  induction es with
  | nil => rfl
  | cons a es ih =>
    rw [get?_cons, findKey?, List.findIdx?_cons]
    by_cases h : a.1.equal k = true
    · simp [h]
    · simp only [h, Bool.false_eq_true, if_false, ih, findKey?]
      cases List.findIdx? (fun e => e.1.equal k) es <;> simp

theorem insert_indexed (hes : ∀ e ∈ es, e.1.wellKeyed = true) {e : Token × Token}
    (he : e.1.wellKeyed = true) : Indexed.insert H es e = insert es e := by
  unfold Indexed.insert insert
  rw [findKey?_indexed H hes he]

theorem build_indexed (hes : ∀ e ∈ es, e.1.wellKeyed = true) : Indexed.build H es = build es := by
  -- by the last entry, which is added to the map of the others
  induction es using List.reverseRecOn with
  | nil => rfl
  | append_singleton es e ih =>
    have hes' : ∀ f ∈ es, f.1.wellKeyed = true := fun f hf => hes f (List.mem_append_left _ hf)
    have hlast : Indexed.build H (es ++ [e]) = Indexed.insert H (Indexed.build H es) e := by
      simp [Indexed.build, List.foldl_append]
    rw [hlast, ih hes', build_append_singleton,
      insert_indexed H (keys_wellKeyed_build hes') (hes e (by simp))]

/-- On well-keyed keys, a lookup, adding an entry, building a
map and merging two maps through the source's hash index give what they give searching all the
entries from the first. -/
theorem indexed_eq {fs : List (Token × Token)} (hes : ∀ e ∈ es, e.1.wellKeyed = true)
    (hfs : ∀ f ∈ fs, f.1.wellKeyed = true) (hk : k.wellKeyed = true) :
    Indexed.get? H es k = get? es k ∧
      (∀ e : Token × Token, e.1.wellKeyed = true → Indexed.insert H es e = insert es e) ∧
      Indexed.build H es = build es ∧ Indexed.merge H es fs = merge es fs := by
  have hall : ∀ e ∈ es ++ fs, e.1.wellKeyed = true := by
    simp only [List.mem_append]
    rintro e (he | he)
    exacts [hes e he, hfs e he]
  refine ⟨?_, fun e he => insert_indexed H hes he, build_indexed H hes,
    build_indexed H hall⟩
  rw [Indexed.get?, findKey?_indexed H hes hk, get?_eq_findKey?]

end Indexed

end Entries

end Reckon

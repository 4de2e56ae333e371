import Mathlib.Data.List.Forall2
import Reckon.Proofs.Pattern.Instantiate

/-!
# Maps by their lookups

A map is what its keys look up. Two maps whose keys are apart and equal to themselves are equal
exactly when every key looks up equal values in both, or nothing in either
(`Entries.equal_map_of_agree`, `Entries.agree_of_equal_map`).

The lookups of the maps the rules build follow from their entries: a built map looks up what the
last entry of a key gives (`Entries.get?_build`), a merge what the second map gives and then
what the first one gives (`Entries.get?_merge`), entries equal one by one look up equal values,
and removing an entry whose key is not the one looked up changes nothing.
-/

namespace Reckon

namespace Entries

/-- Two maps agree when every well-keyed key looks up equal values in both, or nothing in
either. -/
def Agree (es fs : List (Token × Token)) : Prop :=
  ∀ k : Token, k.wellKeyed = true →
    Option.Rel (fun x y => x.equal y = true) (get? es k) (get? fs k)

section Lookups

variable {es fs : List (Token × Token)} {k k' : Token}

theorem get?_congr_key (hes : ∀ e ∈ es, e.1.wellKeyed = true) (hk : k.wellKeyed = true)
    (hk' : k'.wellKeyed = true) (h : k.equal k' = true) : get? es k = get? es k' := by
  have hP := Token.equivOn_wellKeyed
  unfold get?
  congr 1
  refine List.find?_congr fun e he => Bool.eq_iff_iff.2 ⟨fun hek => ?_, fun hek' => ?_⟩
  · exact hP.trans (hes e he) hk hk' hek h
  · exact hP.trans (hes e he) hk' hk hek' (hP.symm hk hk' h)

theorem get?_eq_some {v : Token} (h : get? es k = some v) :
    ∃ e ∈ es, e.1.equal k = true ∧ e.2 = v := by
  simp only [get?, Option.map_eq_some_iff] at h
  obtain ⟨e, he, rfl⟩ := h
  exact ⟨e, (find?_key he).1, (find?_key he).2, rfl⟩

theorem get?_eq_none_iff : get? es k = none ↔ ∀ e ∈ es, e.1.equal k = false := by
  simp [get?, List.find?_eq_none]

theorem get?_of_mem (hes : WellKeyed es) (hapart : keysApart es = true) {e : Token × Token}
    (he : e ∈ es) (hk : k.wellKeyed = true) (hek : e.1.equal k = true) : get? es k = some e.2 := by
  rw [get?, find?_of_mem hes hapart he hk hek]
  rfl

theorem get?_reverse (hes : WellKeyed es) (hapart : keysApart es = true)
    (hk : k.wellKeyed = true) : get? es.reverse k = get? es k := by
  cases h : get? es k with
  | none =>
    rw [get?_eq_none_iff] at h ⊢
    exact fun e he => h e (List.mem_reverse.1 he)
  | some v =>
    obtain ⟨e, he, hek, rfl⟩ := get?_eq_some h
    obtain ⟨e', he'⟩ : ∃ e', es.reverse.find? (fun f => f.1.equal k) = some e' :=
      Option.isSome_iff_exists.1 (List.find?_isSome.2 ⟨e, List.mem_reverse.2 he, hek⟩)
    obtain ⟨hmem, hkey⟩ := find?_key he'
    rw [get?, he', eq_of_equal_key Token.equivOn_wellKeyed hes hapart (List.mem_reverse.1 hmem) he
      hk hkey hek]
    rfl

/-- A lookup in a merge finds what the second map gives, and otherwise what the first one
gives. -/
theorem get?_merge (hes : WellKeyed es) (hapart : keysApart es = true) (hfs : WellKeyed fs)
    (hfsApart : keysApart fs = true) (hk : k.wellKeyed = true) :
    get? (merge es fs) k = (get? fs k).or (get? es k) := by
  have hkeys : ∀ e ∈ es ++ fs, e.1.wellKeyed = true := fun e he =>
    (List.mem_append.1 he).elim (fun he => (hes e he).1) fun he => (hfs e he).1
  rw [merge, get?_build hkeys hk, List.reverse_append, get?_append, get?_reverse hfs hfsApart hk,
    get?_reverse hes hapart hk]

theorem get?_eraseIdx {i : Nat} (hi : i < es.length) (hne : es[i].1.equal k = false) :
    get? (es.eraseIdx i) k = get? es k := by
  conv_rhs => rw [← List.take_append_drop i es, List.drop_eq_getElem_cons hi]
  rw [List.eraseIdx_eq_take_drop_succ, get?_append, get?_append, get?_cons, if_neg (by simp [hne])]

theorem get?_rel_of_forall₂
    (h : List.Forall₂ (fun e f => e.1.equal f.1 = true ∧ e.2.equal f.2 = true) es fs)
    (hes : ∀ e ∈ es, e.1.wellKeyed = true) (hfs : ∀ f ∈ fs, f.1.wellKeyed = true)
    (hk : k.wellKeyed = true) :
    Option.Rel (fun x y => x.equal y = true) (get? es k) (get? fs k) := by
  have hP := Token.equivOn_wellKeyed
  induction h with
  | nil => exact .none
  | @cons e f es fs hef _ ih =>
    have he := hes e List.mem_cons_self
    have hf := hfs f List.mem_cons_self
    -- the two keys are equal, so one of them is the key looked up exactly when the other is
    have hiff : e.1.equal k = f.1.equal k := Bool.eq_iff_iff.2
      ⟨fun h => hP.trans hf he hk (hP.symm he hf hef.1) h, fun h => hP.trans he hf hk hef.1 h⟩
    rw [get?_cons, get?_cons, hiff]
    split
    · exact .some hef.2
    · exact ih (fun x hx => hes x (List.mem_cons_of_mem _ hx))
        (fun x hx => hfs x (List.mem_cons_of_mem _ hx))

theorem self_of_found (hes : WellKeyed es) (hfs : WellKeyed fs) (h : found es fs = true) :
    ∀ e ∈ es, e.1.equal e.1 = true := by
  have hP := Token.equivOn_wellKeyed
  intro e he
  obtain ⟨f, hf, hfe, -⟩ := covers_of_found h e he
  exact hP.trans (hes e he).1 (hfs f hf).1 (hes e he).1 (hP.symm (hfs f hf).1 (hes e he).1 hfe) hfe

theorem length_le_of_found (hes : WellKeyed es) (hfs : WellKeyed fs)
    (hapart : keysApart es = true) (h : found es fs = true) : es.length ≤ fs.length := by
  have hP := Token.equivOn_wellKeyed
  let g : Token × Token → Token × Token := fun e => (fs.find? fun f => f.1.equal e.1).getD e
  have hg : ∀ e ∈ es, g e ∈ fs ∧ (g e).1.equal e.1 = true := by
    intro e he
    obtain ⟨f, hf, -⟩ := found_iff.1 h e he
    simp only [g, hf, Option.getD_some]
    exact find?_key hf
  have hself := self_of_found hes hfs h
  -- a key equal to itself is apart from every later key, so the entries are distinct
  have hnodup : es.Nodup := (keysApart_iff.1 hapart).imp_of_mem fun ha _ hab heq => by
    subst heq
    simp [hself _ ha] at hab
  have hinj : ∀ a ∈ es, ∀ b ∈ es, g a = g b → a = b := fun a ha b hb hab =>
    eq_of_equal_key hP hes hapart ha hb (hfs _ (hg a ha).1).1
      (hP.symm (hfs _ (hg a ha).1).1 (hes a ha).1 (hg a ha).2)
      (by rw [hab]; exact hP.symm (hfs _ (hg b hb).1).1 (hes b hb).1 (hg b hb).2)
  calc es.length = (es.map g).length := (List.length_map _).symm
    _ ≤ fs.length := (hnodup.map_on hinj).length_le_of_subset fun f hf => by
        obtain ⟨e, he, rfl⟩ := List.mem_map.1 hf
        exact (hg e he).1

theorem wellKeyed_of_get? (hes : WellKeyed es) {v : Token} (h : get? es k = some v) :
    v.wellKeyed = true := by
  obtain ⟨e, he, -, rfl⟩ := get?_eq_some h
  exact (hes e he).2

theorem Agree.symm (h : Agree es fs) (hes : WellKeyed es) (hfs : WellKeyed fs) : Agree fs es := by
  have hP := Token.equivOn_wellKeyed
  intro k hk
  have hr := h k hk
  have hx : ∀ x, get? es k = some x → x.wellKeyed = true := fun _ => wellKeyed_of_get? hes
  have hy : ∀ y, get? fs k = some y → y.wellKeyed = true := fun _ => wellKeyed_of_get? hfs
  revert hr hx hy
  generalize get? es k = a
  generalize get? fs k = b
  intro hr hx hy
  cases hr with
  | none => exact .none
  | some hxy => exact .some (hP.symm (hx _ rfl) (hy _ rfl) hxy)

/-- Two maps whose keys are apart and equal to themselves are
equal when every key looks up equal values in both, or nothing in either: each entry of one
finds an equal value in the other, and no two entries find the same one, so they are as many. -/
theorem equal_map_of_agree (hes : WellKeyed es) (hfs : WellKeyed fs)
    (hesApart : keysApart es = true) (hfsApart : keysApart fs = true)
    (hself : ∀ e ∈ es, e.1.equal e.1 = true) (hself' : ∀ f ∈ fs, f.1.equal f.1 = true)
    (h : Agree es fs) : (Token.map es).equal (Token.map fs) = true := by
  have hP := Token.equivOn_wellKeyed
  -- an entry of `fs` finds, in `es`, a value its own equals, and the other way round
  have hfound : found es fs = true := by
    refine found_iff.2 fun e he => ?_
    have hget : get? es e.1 = some e.2 := get?_of_mem hes hesApart he (hes e he).1 (hself e he)
    have hr := h e.1 (hes e he).1
    rw [hget] at hr
    obtain ⟨w, hw, hew⟩ : ∃ w, get? fs e.1 = some w ∧ e.2.equal w = true := by
      revert hr
      cases get? fs e.1 with
      | none => intro hr; cases hr
      | some w => intro hr; cases hr with | some hew => exact ⟨w, rfl, hew⟩
    obtain ⟨f, hf, hfk, rfl⟩ := get?_eq_some hw
    exact ⟨f, find?_of_mem hfs hfsApart hf (hes e he).1 hfk,
      hP.symm (hes e he).2 (hfs f hf).2 hew⟩
  have hfound' : found fs es = true := by
    refine found_iff.2 fun f hf => ?_
    have hget : get? fs f.1 = some f.2 := get?_of_mem hfs hfsApart hf (hfs f hf).1 (hself' f hf)
    have hr := (h.symm hes hfs) f.1 (hfs f hf).1
    rw [hget] at hr
    obtain ⟨w, hw, hfw⟩ : ∃ w, get? es f.1 = some w ∧ f.2.equal w = true := by
      revert hr
      cases get? es f.1 with
      | none => intro hr; cases hr
      | some w => intro hr; cases hr with | some hfw => exact ⟨w, rfl, hfw⟩
    obtain ⟨e, he, hek, rfl⟩ := get?_eq_some hw
    exact ⟨e, find?_of_mem hes hesApart he (hfs f hf).1 hek,
      hP.symm (hfs f hf).2 (hes e he).2 hfw⟩
  rw [Token.equal_map_map, hfound, Bool.and_true, beq_iff_eq]
  exact Nat.le_antisymm (length_le_of_found hes hfs hesApart hfound)
    (length_le_of_found hfs hes hfsApart hfound')

/-- Equal maps agree. -/
theorem agree_of_equal_map (hes : WellKeyed es) (hfs : WellKeyed fs)
    (hesApart : keysApart es = true) (h : (Token.map es).equal (Token.map fs) = true) :
    Agree es fs := by
  have hP := Token.equivOn_wellKeyed
  rw [Token.equal_map_map, Bool.and_eq_true, beq_iff_eq] at h
  obtain ⟨hlen, hfound⟩ := h
  have hfound' := found_symm hP hes hfs hesApart hlen hfound
  intro k hk
  cases hx : get? es k with
  | some x =>
    -- the entry `k` finds in `es` finds an equal value in `fs`, which `k` looks up too
    obtain ⟨e, he, hek, rfl⟩ := get?_eq_some hx
    obtain ⟨f, hf, hfe⟩ := found_iff.1 hfound e he
    obtain ⟨hfmem, hfkey⟩ := find?_key hf
    have hget : get? fs k = some f.2 := by
      rw [← get?_congr_key (fun g hg => (hfs g hg).1) (hes e he).1 hk hek, get?, hf]
      rfl
    rw [hget]
    exact .some (hP.symm (hfs f hfmem).2 (hes e he).2 hfe)
  | none =>
    cases hy : get? fs k with
    | none => exact .none
    | some y =>
      -- an entry of `fs` that `k` finds finds an entry of `es`, which `k` would find
      obtain ⟨f, hf, hfk, rfl⟩ := get?_eq_some hy
      obtain ⟨e, he, -⟩ := found_iff.1 hfound' f hf
      obtain ⟨hemem, hekey⟩ := find?_key he
      have hek : e.1.equal k = true := hP.trans (hes e hemem).1 (hfs f hf).1 hk hekey hfk
      rw [get?_eq_none_iff] at hx
      simp [hx e hemem] at hek

theorem snd_of_mem_insert {acc : List (Token × Token)} {e f : Token × Token} (hf : f ∈ insert acc e) :
    f ∈ acc ∨ f.2 = e.2 := by
  unfold insert at hf
  split at hf
  · rename_i i _
    rw [List.modify_eq_take_drop] at hf
    rcases List.mem_append.1 hf with h | h
    · exact .inl (List.mem_of_mem_take h)
    · cases hd : acc.drop i with
      | nil => simp [hd] at h
      | cons a rest =>
        rw [hd, List.modifyHead_cons, List.mem_cons] at h
        rcases h with rfl | h
        · exact .inr rfl
        · exact .inl (List.mem_of_mem_drop (hd ▸ List.mem_cons_of_mem a h))
  · rcases List.mem_append.1 hf with h | h
    · exact .inl h
    · exact .inr (by rw [List.mem_singleton.1 h])

theorem mem_build_snd {f : Token × Token} (hf : f ∈ build es) : ∃ e ∈ es, f.2 = e.2 := by
  induction es using List.reverseRecOn generalizing f with
  | nil => simp [build] at hf
  | append_singleton es e ih =>
    rw [build_append_singleton] at hf
    rcases snd_of_mem_insert hf with hf | hf
    · obtain ⟨x, hx, hfx⟩ := ih hf
      exact ⟨x, List.mem_append_left _ hx, hfx⟩
    · exact ⟨e, List.mem_append_right _ (List.mem_singleton_self e), hf⟩

theorem wellKeyed_build (hes : WellKeyed es) : WellKeyed (build es) := fun f hf =>
  ⟨keys_wellKeyed_build (fun e he => (hes e he).1) f hf, by
    obtain ⟨e, he, hfe⟩ := mem_build_snd hf
    rw [hfe]
    exact (hes e he).2⟩

theorem self_build (hself : ∀ e ∈ es, e.1.equal e.1 = true) :
    ∀ f ∈ build es, f.1.equal f.1 = true := by
  intro f hf
  obtain ⟨e, he, hef⟩ := List.mem_map.1 (mem_keys_of_mem_build (List.mem_map_of_mem hf))
  rw [← hef]
  exact hself e he

theorem wellKeyed_merge (hes : WellKeyed es) (hfs : WellKeyed fs) : WellKeyed (merge es fs) :=
  wellKeyed_build fun e he => (List.mem_append.1 he).elim (hes e) (hfs e)

theorem self_merge (hself : ∀ e ∈ es, e.1.equal e.1 = true)
    (hself' : ∀ f ∈ fs, f.1.equal f.1 = true) : ∀ g ∈ merge es fs, g.1.equal g.1 = true :=
  self_build fun e he => (List.mem_append.1 he).elim (hself e) (hself' e)

/-- A map merged into entries equals, in the other order, the entries
merged into an equal map, when entries equal one by one are merged and every key the map gives
the entries also give an equal value. -/
theorem equal_merge_swap {fes ec rs rc : List (Token × Token)}
    (hfes : List.Forall₂ (fun e f => e.1.equal f.1 = true ∧ e.2.equal f.2 = true) fes ec)
    (hwf : WellKeyed fes) (hwc : WellKeyed ec) (hrs : WellKeyed rs) (hrsApart : keysApart rs = true)
    (hrc : WellKeyed rc) (hrcApart : keysApart rc = true)
    (hr : (Token.map rs).equal (Token.map rc) = true)
    (hkeep : ∀ f ∈ rc, ∀ w, get? (build ec) f.1 = some w → f.2.equal w = true) :
    (Token.map (merge rs (build fes))).equal (Token.map (merge (build ec) rc)) = true := by
  have hP := Token.equivOn_wellKeyed
  -- keys equal one by one, and keys of equal maps, equal themselves
  have hselfF : ∀ e ∈ fes, e.1.equal e.1 = true := fun e he => by
    obtain ⟨f, hf, hef, -⟩ := exists_mem_of_forall₂ hfes.flip he
    exact hP.trans (hwf e he).1 (hwc f hf).1 (hwf e he).1 hef (hP.symm (hwf e he).1 (hwc f hf).1 hef)
  have hselfC : ∀ f ∈ ec, f.1.equal f.1 = true := fun f hf => by
    obtain ⟨e, he, hef, -⟩ := exists_mem_of_forall₂ hfes hf
    exact hP.trans (hwc f hf).1 (hwf e he).1 (hwc f hf).1 (hP.symm (hwf e he).1 (hwc f hf).1 hef) hef
  rw [Token.equal_map_map, Bool.and_eq_true, beq_iff_eq] at hr
  have hrfound' := found_symm hP hrs hrc hrsApart hr.1 hr.2
  have hagree := agree_of_equal_map hrs hrc hrsApart (by rw [Token.equal_map_map, hr.1]; simp [hr.2])
  refine equal_map_of_agree (wellKeyed_merge hrs (wellKeyed_build hwf))
    (wellKeyed_merge (wellKeyed_build hwc) hrc) (build_keysApart _) (build_keysApart _)
    (self_merge (self_of_found hrs hrc hr.2) (self_build hselfF))
    (self_merge (self_build hselfC) (self_of_found hrc hrs hrfound')) fun k hk => ?_
  rw [get?_merge hrs hrsApart (wellKeyed_build hwf) (build_keysApart _) hk,
    get?_merge (wellKeyed_build hwc) (build_keysApart _) hrc hrcApart hk]
  -- the entries' lookups and the maps' lookups agree; where both maps give a value, it is one
  have hrelE := get?_rel_of_forall₂ (List.forall₂_reverse_iff.2 hfes)
    (fun e he => (hwf e (List.mem_reverse.1 he)).1) (fun f hf => (hwc f (List.mem_reverse.1 hf)).1) hk
  rw [← get?_build (fun e he => (hwf e he).1) hk, ← get?_build (fun f hf => (hwc f hf).1) hk]
    at hrelE
  have hkeep' : ∀ x y, get? rc k = some x → get? (build ec) k = some y → x.equal y = true := by
    intro x y hx hy
    obtain ⟨f, hf, hfk, rfl⟩ := get?_eq_some hx
    rw [← get?_congr_key (fun g hg => (wellKeyed_build hwc g hg).1) (hrc f hf).1 hk hfk] at hy
    exact hkeep f hf y hy
  have hwE : ∀ x, get? (build fes) k = some x → x.wellKeyed = true :=
    fun _ => wellKeyed_of_get? (wellKeyed_build hwf)
  have hwC : ∀ x, get? (build ec) k = some x → x.wellKeyed = true :=
    fun _ => wellKeyed_of_get? (wellKeyed_build hwc)
  have hwR : ∀ x, get? rc k = some x → x.wellKeyed = true := fun _ => wellKeyed_of_get? hrc
  have hrelR := hagree k hk
  revert hrelE hkeep' hwE hwC hwR hrelR
  generalize get? (build fes) k = a
  generalize get? (build ec) k = a'
  generalize get? rs k = b
  generalize get? rc k = b'
  intro hrelE hkeep' hwE hwC hwR hrelR
  cases hrelE with
  | none => simpa using hrelR
  | @some p p' hpp =>
    cases b' with
    | none => exact .some hpp
    | some q =>
      -- the map's value is the entries' value, up to equality
      exact .some (hP.trans (hwE p rfl) (hwC p' rfl) (hwR q rfl) hpp
        (hP.symm (hwR q rfl) (hwC p' rfl) (hkeep' q p' rfl rfl)))

/-- Take a map `es` whose keys are apart, an
entry equal to its `i`-th entry, and entries with a map merged into them that agree with `es`
without its `i`-th entry. Then the entries with the chosen one in front, merged with the same
map, agree with `es`: the chosen key is looked up nowhere else, and every other key looks up what
it did. -/
theorem agree_merge_cons {es rs fes : List (Token × Token)} {i : Nat} {k' v' : Token}
    (hes : WellKeyed es) (hapart : keysApart es = true) (hi : i < es.length)
    (hrs : WellKeyed rs) (hrsApart : keysApart rs = true) (hfes : WellKeyed fes)
    (hk' : k'.wellKeyed = true) (hv' : v'.wellKeyed = true) (hke : k'.equal es[i].1 = true)
    (hve : v'.equal es[i].2 = true) (h : Agree (merge rs (build fes)) (es.eraseIdx i)) :
    Agree (merge rs (build ((k', v') :: fes))) es := by
  have hP := Token.equivOn_wellKeyed
  have hei : es[i] ∈ es := List.getElem_mem hi
  have hwi := hes _ hei
  have hfes' : WellKeyed ((k', v') :: fes) := fun e he =>
    (List.mem_cons.1 he).elim (fun h => h ▸ ⟨hk', hv'⟩) (hfes e)
  intro k hk
  -- the map is looked up after the entries, the last of which come first
  have hlook : ∀ X : List (Token × Token), WellKeyed X →
      get? (merge rs (build X)) k = (get? X.reverse k).or (get? rs k) := fun X hX => by
    rw [get?_merge hrs hrsApart (wellKeyed_build hX) (build_keysApart _) hk,
      get?_build (fun e he => (hX e he).1) hk]
  have hr := h k hk
  rw [hlook _ hfes] at hr
  rw [hlook _ hfes', List.reverse_cons, get?_append, get?_cons, get?_nil]
  by_cases hkk : k'.equal k = true
  · -- the key looked up is the chosen one, which no other entry has
    have hik : es[i].1.equal k = true := hP.trans hwi.1 hk' hk (hP.symm hk' hwi.1 hke) hkk
    have hnone : get? fes.reverse k = none := by
      cases hf : get? fes.reverse k with
      | none => rfl
      | some x =>
        rw [hf, Option.some_or] at hr
        revert hr
        cases hg : get? (es.eraseIdx i) k with
        | none => intro hr; cases hr
        | some y =>
          intro _
          obtain ⟨g, hg', hgk, -⟩ := get?_eq_some hg
          have hgw := (hes g (List.mem_of_mem_eraseIdx hg')).1
          have hgi : g.1.equal es[i].1 = true :=
            hP.trans hgw hk hwi.1 hgk (hP.symm hwi.1 hk hik)
          simp [equal_false_of_mem_eraseIdx hes hapart hi hg'] at hgi
    rw [hnone, if_pos hkk, Option.none_or, Option.some_or, get?_of_mem hes hapart hei hk hik]
    exact .some hve
  · -- another key looks up what it did, and the chosen entry is not its
    have hik : es[i].1.equal k = false := by
      by_contra hne
      exact hkk (hP.trans hk' hwi.1 hk hke (by simpa using hne))
    rw [if_neg hkk, Option.or_none, ← get?_eraseIdx hi hik]
    exact hr

end Lookups

end Entries

end Reckon

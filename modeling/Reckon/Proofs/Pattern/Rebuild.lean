import Reckon.Proofs.Brackets.Folding
import Reckon.Proofs.Token.Lookups

/-!
# Rebuilding a matched value

A definition `f P = P` takes a value apart by the template `P` compiles to, and puts it back by
the folding rules, which read the text of `P` once each word is replaced by what it matched
(`Written.instantiate`). This module shows that the value put back equals the value taken apart.

The two sides are two recursions over the pattern. A list pattern with a tail is matched item by
item through nested list captures, and folded item by item from the left; a map pattern with
placeholders chooses one entry of the map for each written entry, while the fold builds the map
of the written entries and merges the remainder into it. A pattern without placeholders is
compared by equality with what it compiles to, and folds to a value equal to that
(`Written.foldsTo_compile`); there the compiler merges a literal remainder into the entries,
while the fold merges the entries into the remainder, so the two agree only where the pattern
keeps its keys (`Written.KeepsKeys`).
-/

namespace Reckon

namespace Written

/-- The pattern with each word replaced by what the bindings give its placeholder: a
placeholder word by its binding, any other word left as it is. -/
def instantiate (b : Bindings) (P : Written) : Written :=
  P.mapWords (b.substitute ∘ Compiler.placeholder)

/-- The pattern folds to a well-keyed value equal to `V`. -/
def FoldsTo (P : Written) (V : Token) : Prop :=
  ∃ W, P.fold? = some W ∧ W.wellKeyed = true ∧ W.equal V = true

theorem mapItems_eq_map (g : Token → Token) (xs : List Written) :
    mapItems g xs = xs.map (mapWords g) := by
  induction xs with
  | nil => rfl
  | cons x xs ih => simp [mapItems, ih]

theorem mapEntries_eq_map (g : Token → Token) (es : List (Written × Written)) :
    mapEntries g es = es.map fun e => (e.1.mapWords g, e.2.mapWords g) := by
  induction es with
  | nil => rfl
  | cons e es ih => simp [mapEntries, ih]

theorem brackets_mapWords (g : Token → Token) : ∀ P : Written, (P.mapWords g).brackets = P.brackets := by
  apply Written.text.induct (fun P => (P.mapWords g).brackets = P.brackets)
    (fun es => bracketsEntries (mapEntries g es) = bracketsEntries es)
    (fun xs => bracketsItems (mapItems g xs) = bracketsItems xs)
  all_goals
    intros
    simp_all [mapWords, mapItems, mapEntries, brackets, bracketsItems, bracketsEntries]

theorem foldItems?_cons_of {x : Written} {xs : List Written} {v : Token} {vs : List Token}
    (hx : x.fold? = some v) (hxs : foldItems? xs = some vs) :
    foldItems? (x :: xs) = some (v :: vs) := by
  simp [foldItems?, hx, hxs]

theorem foldEntries?_cons_of {k v : Written} {es : List (Written × Written)} {k' v' : Token}
    {fes : List (Token × Token)} (hk : k.fold? = some k') (hv : v.fold? = some v')
    (hes : foldEntries? es = some fes) : foldEntries? ((k, v) :: es) = some ((k', v') :: fes) := by
  simp [foldEntries?, hk, hv, hes]

theorem fold?_listTail_of {x : Written} {xs : List Written} {t : Written} {vs ts : List Token}
    (hxs : foldItems? (x :: xs) = some vs) (ht : t.fold? = some (.list ts)) :
    (listTail (x :: xs) t).fold? = some (.list (vs ++ ts)) := by
  rw [fold?, hxs, ht]

theorem fold?_mapRest_of {e : Written × Written} {es : List (Written × Written)} {r : Written}
    {fes rs : List (Token × Token)} (hes : foldEntries? (e :: es) = some fes)
    (hr : r.fold? = some (.map rs)) :
    (mapRest (e :: es) r).fold? = some (.map (Entries.merge rs (Entries.build fes))) := by
  rw [fold?, hes, hr]

end Written

namespace Compiler

theorem wellKeyed_foldr_listCap {items : List Token} {tail : Token}
    (hitems : ∀ x ∈ items, x.wellKeyed = true) (htail : tail.wellKeyed = true) :
    (items.foldr (fun h acc => .listCap h acc) tail).wellKeyed = true := by
  induction items with
  | nil => exact htail
  | cons x items ih =>
    simp only [List.foldr_cons, Token.wellKeyed, Bool.and_eq_true]
    exact ⟨hitems x List.mem_cons_self, ih fun y hy => hitems y (List.mem_cons_of_mem _ hy)⟩

theorem wellKeyed_foldr_mapCap {es : List (Token × Token)} {rest : Token}
    (hes : Entries.WellKeyed es) (hrest : rest.wellKeyed = true) :
    (es.foldr (fun (k, v) acc => .mapCap k v acc) rest).wellKeyed = true := by
  induction es with
  | nil => exact hrest
  | cons e es ih =>
    simp only [List.foldr_cons, Token.wellKeyed, Bool.and_eq_true]
    exact ⟨⟨(hes e List.mem_cons_self).1, (hes e List.mem_cons_self).2⟩,
      ih (hes.of_sublist fun f hf => List.mem_cons_of_mem _ hf)⟩

theorem finishMap_literal {es rs : List (Token × Token)}
    (hes : ∀ e ∈ es, e.1.hasPlaceholder = false ∧ e.2.hasPlaceholder = false)
    (hrs : (Token.map rs).hasPlaceholder = false) :
    finishMap es (.map rs) = .map (Entries.merge (Entries.build es) rs) := by
  have hlit : (!(Token.map rs).hasPlaceholder &&
      es.all fun (k, v) => !k.hasPlaceholder && !v.hasPlaceholder) = true := by
    simp only [hrs, Bool.not_false, Bool.true_and, List.all_eq_true]
    intro e he
    simp [(hes e he).1, (hes e he).2]
  unfold finishMap
  simp only [hlit]

theorem parts_of_finishMap {es : List (Token × Token)} {rest : Token}
    (h : (finishMap es rest).hasPlaceholder = false) :
    (∀ e ∈ es, e.1.hasPlaceholder = false ∧ e.2.hasPlaceholder = false) ∧
      rest.hasPlaceholder = false := by
  unfold finishMap at h
  dsimp only at h
  split at h
  · rename_i _ rs hlit
    simp only [Bool.and_eq_true, Bool.not_eq_true', List.all_eq_true] at hlit
    exact ⟨fun e he => by simpa using hlit.2 e he, hlit.1⟩
  · -- built from captures: a capture is a placeholder, so there is no entry
    cases es with
    | nil => exact ⟨by simp, h⟩
    | cons e es => simp [Token.hasPlaceholder] at h

theorem wellKeyed_finishMap {es : List (Token × Token)} {rest : Token}
    (hes : Entries.WellKeyed es) (hrest : rest.wellKeyed = true) :
    (finishMap es rest).wellKeyed = true := by
  unfold finishMap
  dsimp only
  split
  · rename_i _ rs _
    obtain ⟨hrs, hrsApart⟩ := (Token.wellKeyed_map rs).1 hrest
    exact (Token.wellKeyed_map _).2
      ⟨Entries.wellKeyed_merge (Entries.wellKeyed_build hes) hrs, Entries.build_keysApart _⟩
  · exact wellKeyed_foldr_mapCap hes hrest

theorem eq_map_of_fitsKind {t : Token} (hfit : fitsKind t .map = true)
    (hph : t.hasPlaceholder = false) : ∃ rs, t = .map rs := by
  cases t with
  | map rs => exact ⟨rs, rfl⟩
  | var | listCap | mapCap => simp [Token.hasPlaceholder] at hph
  | _ => simp [fitsKind, Token.kind] at hfit

theorem finishMap_cases (es : List (Token × Token)) (rest : Token) :
    (finishMap es rest).hasPlaceholder = false ∨
      finishMap es rest = es.foldr (fun (k, v) acc => .mapCap k v acc) rest := by
  unfold finishMap
  dsimp only
  split
  · rename_i _ rs hlit
    simp only [Bool.and_eq_true, Bool.not_eq_true', List.all_eq_true] at hlit
    have hes : Entries.All (fun t => t.hasPlaceholder = false) (fun t => t.hasPlaceholder = false)
        es := fun e he => by simpa using hlit.2 e he
    exact .inl ((Token.hasPlaceholder_map _).2
      (Entries.All.merge hes.build ((Token.hasPlaceholder_map rs).1 hlit.1)))
  · exact .inr rfl

end Compiler

namespace Written

open Compiler

theorem wellKeyed_compileEntries {es : List (Written × Written)}
    (h : ∀ e ∈ es, e.1.compile.wellKeyed = true ∧ e.2.compile.wellKeyed = true) :
    Entries.WellKeyed (compileEntries es) := by
  intro f hf
  rw [compileEntries_eq_map] at hf
  obtain ⟨e, he, rfl⟩ := List.mem_map.1 hf
  exact h e he

theorem Pattern.compile_wellKeyed {P : Written} (hP : P.Pattern) : P.compile.wellKeyed = true := by
  induction hP with
  | placeholder h =>
    show (Compiler.placeholder _).wellKeyed = true
    simp only [Compiler.placeholder, h, if_true]
    rfl
  | literal h => rcases h with ⟨n, rfl, -⟩ | ⟨s, rfl⟩ | ⟨b, rfl⟩ <;> rfl
  | list _ ih =>
    rw [compile, compileItems_eq_map, Token.wellKeyed_list]
    simpa using ih
  | listTail _ _ _ ih iht =>
    rw [compile, compileItems_eq_map]
    exact wellKeyed_foldr_listCap (by simpa using ih) iht
  | map _ _ ihk ihv =>
    rw [compile]
    exact wellKeyed_finishMap (wellKeyed_compileEntries fun e he => ⟨ihk e he, ihv e he⟩) rfl
  | mapRest _ _ _ _ ihk ihv ihr =>
    rw [compile]
    exact wellKeyed_finishMap (wellKeyed_compileEntries fun e he => ⟨ihk e he, ihv e he⟩) ihr

theorem parts_of_compile_map {es : List (Written × Written)} {rest : Token}
    (h : (finishMap (compileEntries es) rest).hasPlaceholder = false) :
    (∀ e ∈ es, e.1.compile.hasPlaceholder = false ∧ e.2.compile.hasPlaceholder = false) ∧
      rest.hasPlaceholder = false := by
  obtain ⟨hes, hrest⟩ := parts_of_finishMap h
  refine ⟨fun e he => ?_, hrest⟩
  rw [compileEntries_eq_map] at hes
  exact hes _ (List.mem_map_of_mem he)

theorem mapWords_of_literal {g : Token → Token}
    (hg : ∀ t, (placeholder t).hasPlaceholder = false → g t = t) :
    ∀ P : Written, P.compile.hasPlaceholder = false → P.mapWords g = P := by
  intro P
  induction P using Written.induction with
  | word t =>
    intro h
    rw [mapWords, hg t h]
  | list xs ih =>
    intro h
    rw [compile, compileItems_eq_map, Token.hasPlaceholder_list] at h
    rw [mapWords, mapItems_eq_map,
      List.map_congr_left fun x hx => ih x hx (h _ (List.mem_map_of_mem hx)), List.map_id']
  | listTail xs t _ iht =>
    intro h
    -- a tail after an item compiles to a list capture, which is a placeholder
    cases xs with
    | nil =>
      rw [compile, compileItems, List.foldr_nil] at h
      rw [mapWords, mapItems, iht h]
    | cons x xs => simp [compile, compileItems, Token.hasPlaceholder] at h
  | map es ih =>
    intro h
    rw [compile] at h
    have hes := (parts_of_compile_map h).1
    rw [mapWords, mapEntries_eq_map, List.map_congr_left fun e he => by
      rw [(ih e he).1 (hes e he).1, (ih e he).2 (hes e he).2]]
    simp
  | mapRest es r ih ihr =>
    intro h
    rw [compile] at h
    obtain ⟨hes, hr⟩ := parts_of_compile_map h
    rw [mapWords, mapEntries_eq_map, ihr hr, List.map_congr_left fun e he => by
      rw [(ih e he).1 (hes e he).1, (ih e he).2 (hes e he).2]]
    simp

theorem instantiate_of_literal {P : Written} (h : P.compile.hasPlaceholder = false)
    (b : Bindings) : P.instantiate b = P := by
  refine mapWords_of_literal (fun t ht => ?_) P h
  -- a word that is no placeholder stays as it is, and substituting leaves it so
  have hplain : placeholder t = t := by
    cases t with
    | sym s =>
      by_cases hs : isPlaceholderName s = true
      · simp [placeholder, hs, Token.hasPlaceholder] at ht
      · simp [placeholder, hs]
    | _ => rfl
  rw [Function.comp_apply, hplain, Bindings.substitute_of_hasPlaceholder (hplain ▸ ht)]

theorem FoldsTo.trans {P : Written} {U V : Token} (h : P.FoldsTo U) (hU : U.wellKeyed = true)
    (hV : V.wellKeyed = true) (hUV : U.equal V = true) : P.FoldsTo V := by
  obtain ⟨W, hW, hWk, hWU⟩ := h
  exact ⟨W, hW, hWk, Token.equivOn_wellKeyed.trans hWk hU hV hWU hUV⟩

theorem foldItems?_of_forall₂ {xs : List Written} {vs : List Token}
    (h : List.Forall₂ FoldsTo xs vs) :
    ∃ Ws, foldItems? xs = some Ws ∧ (∀ W ∈ Ws, W.wellKeyed = true) ∧ Tokens.equal Ws vs = true := by
  induction h with
  | nil => exact ⟨[], rfl, by simp, rfl⟩
  | cons hx _ ih =>
    obtain ⟨W, hW, hWk, hWe⟩ := hx
    obtain ⟨Ws, hWs, hWsk, hWse⟩ := ih
    refine ⟨W :: Ws, foldItems?_cons_of hW hWs, ?_, ?_⟩
    · simpa [hWk] using hWsk
    · simp [Tokens.equal, hWe, hWse]

theorem foldEntries?_of_forall₂ {es : List (Written × Written)} {fs : List (Token × Token)}
    (h : List.Forall₂ (fun e f => e.1.FoldsTo f.1 ∧ e.2.FoldsTo f.2) es fs) :
    ∃ fes, foldEntries? es = some fes ∧ Entries.WellKeyed fes ∧
      List.Forall₂ (fun e f => e.1.equal f.1 = true ∧ e.2.equal f.2 = true) fes fs := by
  induction h with
  | nil => exact ⟨[], rfl, fun _ h => absurd h List.not_mem_nil, .nil⟩
  | @cons e f es fs hef _ ih =>
    obtain ⟨⟨K, hK, hKk, hKe⟩, ⟨V, hV, hVk, hVe⟩⟩ := hef
    obtain ⟨fes, hfes, hfesk, hfese⟩ := ih
    refine ⟨(K, V) :: fes, foldEntries?_cons_of hK hV hfes, fun g hg => ?_, .cons ⟨hKe, hVe⟩ hfese⟩
    rcases List.mem_cons.1 hg with rfl | hg
    exacts [⟨hKk, hVk⟩, hfesk g hg]

/-- A pattern without placeholders folds to what it compiles to, up to equality, where it
keeps its keys. -/
theorem Pattern.foldsTo_compile {P : Written} (hP : P.Pattern) (hk : P.KeepsKeys)
    (hph : P.compile.hasPlaceholder = false) : P.FoldsTo P.compile := by
  induction hP with
  | placeholder h => simp [compile, Compiler.placeholder, h, Token.hasPlaceholder] at hph
  | literal h =>
    rcases h with ⟨n, rfl, hn⟩ | ⟨s, rfl⟩ | ⟨b, rfl⟩
    · exact ⟨_, rfl, rfl, by simp [compile, Compiler.placeholder, Token.equal, Number.equal_self hn]⟩
    · exact ⟨_, rfl, rfl, by simp [compile, Compiler.placeholder, Token.equal]⟩
    · exact ⟨_, rfl, rfl, by simp [compile, Compiler.placeholder, Token.equal]⟩
  | @list xs hxs ih =>
    cases hk with
    | list hk =>
    rw [compile, compileItems_eq_map, Token.hasPlaceholder_list] at hph
    obtain ⟨Ws, hWs, hWk, hWe⟩ := foldItems?_of_forall₂ (List.forall₂_map_right_iff.2
      (List.forall₂_same.2 fun x hx => ih x hx (hk x hx) (hph _ (List.mem_map_of_mem hx))))
    refine ⟨.list Ws, by rw [fold?, hWs]; rfl, (Token.wellKeyed_list Ws).2 hWk, ?_⟩
    rw [compile, compileItems_eq_map, Token.equal_list_list]
    exact hWe
  | listTail => simp [compile, compileItems, Token.hasPlaceholder] at hph
  | @map es hpk hpv ihk ihv =>
    cases hk with
    | map hk hv =>
    rw [compile] at hph ⊢
    have hes := (parts_of_compile_map hph).1
    have hlit : finishMap (compileEntries es) (.map []) =
        .map (Entries.merge (Entries.build (compileEntries es)) []) :=
      finishMap_literal (parts_of_finishMap hph).1 rfl
    have hparts : List.Forall₂ (fun e f => e.1.FoldsTo f.1 ∧ e.2.FoldsTo f.2) es
        (compileEntries es) := by
      rw [compileEntries_eq_map, List.forall₂_map_right_iff]
      exact List.forall₂_same.2 fun e he =>
        ⟨ihk e he (hk e he) (hes e he).1, ihv e he (hv e he) (hes e he).2⟩
    obtain ⟨fes, hfes, hfesk, hfese⟩ := foldEntries?_of_forall₂ hparts
    have hwc := wellKeyed_compileEntries fun e he =>
      ⟨(hpk e he).compile_wellKeyed, (hpv e he).compile_wellKeyed⟩
    -- the folded map is built once, so merging it into nothing leaves it as it is
    have hswap : (Token.map (Entries.merge [] (Entries.build fes))).equal
        (.map (Entries.merge (Entries.build (compileEntries es)) [])) = true :=
      Entries.equal_merge_swap hfese hfesk hwc (fun _ h => absurd h List.not_mem_nil) rfl
        (fun _ h => absurd h List.not_mem_nil) rfl (by rw [Token.equal_map_map]; rfl)
        (fun _ h => absurd h List.not_mem_nil)
    rw [Entries.merge, List.nil_append, Entries.build_eq_self (Entries.build_keysApart _)]
      at hswap
    refine ⟨.map (Entries.build fes), by rw [fold?, hfes]; rfl,
      (Token.wellKeyed_map _).2 ⟨Entries.wellKeyed_build hfesk, Entries.build_keysApart _⟩, ?_⟩
    rw [hlit]
    exact hswap
  | @mapRest e es r hpk hpv hpr hfit ihk ihv ihr =>
    cases hk with
    | mapRest hk hv hkr hkeep =>
    rw [compile] at hph ⊢
    obtain ⟨hes, hr⟩ := parts_of_compile_map hph
    obtain ⟨rc, hrc⟩ := eq_map_of_fitsKind hfit hr
    have hlit : finishMap (compileEntries (e :: es)) r.compile =
        .map (Entries.merge (Entries.build (compileEntries (e :: es))) rc) := by
      rw [hrc]
      exact finishMap_literal (parts_of_finishMap hph).1 (hrc ▸ hr)
    have hparts : List.Forall₂ (fun e f => e.1.FoldsTo f.1 ∧ e.2.FoldsTo f.2) (e :: es)
        (compileEntries (e :: es)) := by
      rw [compileEntries_eq_map, List.forall₂_map_right_iff]
      exact List.forall₂_same.2 fun f hf =>
        ⟨ihk f hf (hk f hf) (hes f hf).1, ihv f hf (hv f hf) (hes f hf).2⟩
    obtain ⟨fes, hfes, hfesk, hfese⟩ := foldEntries?_of_forall₂ hparts
    have hwc := wellKeyed_compileEntries fun f hf =>
      ⟨(hpk f hf).compile_wellKeyed, (hpv f hf).compile_wellKeyed⟩
    obtain ⟨hrcw, hrcApart⟩ := (Token.wellKeyed_map rc).1 (hrc ▸ hpr.compile_wellKeyed)
    -- the remainder folds to a map equal to the one it compiles to
    obtain ⟨W, hW, hWk, hWe⟩ := ihr hkr hr
    rw [hrc] at hWe
    obtain ⟨rs, rfl, -, -⟩ := Token.eq_map_of_equal hWe
    obtain ⟨hrsw, hrsApart⟩ := (Token.wellKeyed_map rs).1 hWk
    have hall : (compileEntries (e :: es)).all
        (fun e => !e.1.hasPlaceholder && !e.2.hasPlaceholder) = true := by
      simp only [List.all_eq_true, Bool.and_eq_true, Bool.not_eq_true']
      exact (parts_of_finishMap hph).1
    refine ⟨.map (Entries.merge rs (Entries.build fes)), fold?_mapRest_of hfes hW,
      (Token.wellKeyed_map _).2
        ⟨Entries.wellKeyed_merge hrsw (Entries.wellKeyed_build hfesk), Entries.build_keysApart _⟩,
      ?_⟩
    rw [hlit]
    exact Entries.equal_merge_swap hfese hfesk hwc hrsw hrsApart hrcw hrcApart hWe
      (hkeep hall rc hrc)

end Written

/-! ### Matching, then folding -/

namespace Pattern

theorem matchOne_of_hasPlaceholder {pat : Token} (hph : pat.hasPlaceholder = false) (val : Token)
    (binds : Bindings) : matchOne pat val binds = if pat.equal val then [binds] else [] := by
  cases pat with
  | var | listCap | mapCap => simp [Token.hasPlaceholder] at hph
  | list ps => rw [matchOne_list, hph]; rfl
  | num | text | bool | sym | map =>
    exact matchOne_of_literal (fun _ _ h => by cases h) (fun _ _ h => by cases h)
      (fun _ _ _ h => by cases h) (fun _ h => by cases h) val binds

theorem extends_of_mem_matchOne {pat val : Token} {binds b : Bindings}
    (hpat : pat.wellKeyed = true) (hval : val.Matchable)
    (hbinds : ∀ q ∈ binds, q.2.wellKeyed = true) (hb : b ∈ matchOne pat val binds) :
    (∃ more, b = binds ++ more) ∧ ∀ q ∈ b, q.2.wellKeyed = true := by
  have hm := matched_of_mem.1 pat val binds hpat hval hbinds b hb
  obtain ⟨more, hmore, -⟩ := hm.added
  exact ⟨⟨more, hmore⟩, hm.keyed hbinds⟩

theorem mem_matchOne_mapCap {k v r V : Token} {binds b : Bindings}
    (hb : b ∈ matchOne (.mapCap k v r) V binds) :
    ∃ ms, V = .map ms ∧ ∃ i, ∃ hi : i < ms.length, ∃ b₁ b₂, b₁ ∈ matchOne k ms[i].1 binds ∧
      b₂ ∈ matchOne v ms[i].2 b₁ ∧ b ∈ matchOne r (.map (Entries.eraseAt ms i)) b₂ := by
  cases V with
  | map ms =>
    rw [matchOne_mapCap] at hb
    obtain ⟨p, hp, hb⟩ := List.mem_flatMap.1 hb
    obtain ⟨b₂, hb₂, hb⟩ := List.mem_flatMap.1 hb
    obtain ⟨b₁, hb₁, hb₂⟩ := List.mem_flatMap.1 hb₂
    obtain ⟨hi, hget⟩ := List.getElem?_eq_some_iff.1 (List.mem_zipIdx_iff_getElem?.1 hp)
    exact ⟨ms, rfl, p.2, hi, b₁, b₂, hget ▸ hb₁, hget ▸ hb₂, hb⟩
  | _ => simp [matchOne] at hb

end Pattern

namespace Entries

/-- Entries fit to be a map's: well keyed, keys apart, and each key equal to itself. -/
structure Fit (es : List (Token × Token)) : Prop where
  keyed : WellKeyed es
  apart : keysApart es = true
  self : ∀ e ∈ es, e.1.equal e.1 = true

theorem Fit.of_matchable {ms : List (Token × Token)} (h : (Token.map ms).Matchable) : Fit ms :=
  ⟨((Token.wellKeyed_map ms).1 h.1.1).1, ((Token.wellKeyed_map ms).1 h.1.1).2,
    fun e he => (h.of_map e he).2.1.1.equal_self⟩

theorem Fit.merge_build {rs fes : List (Token × Token)} (hrs : Fit rs) (hfes : WellKeyed fes)
    (hself : ∀ f ∈ fes, f.1.equal f.1 = true) : Fit (merge rs (build fes)) :=
  ⟨wellKeyed_merge hrs.keyed (wellKeyed_build hfes), build_keysApart _,
    self_merge hrs.self (self_build hself)⟩

theorem Fit.of_equal {rs ms : List (Token × Token)} (hrs : (Token.map rs).wellKeyed = true)
    (hms : Fit ms) (h : (Token.map rs).equal (.map ms) = true) : Fit rs ∧ Agree rs ms := by
  obtain ⟨hrsw, hrsApart⟩ := (Token.wellKeyed_map rs).1 hrs
  obtain ⟨fs, hfs, -, hfound⟩ := Token.equal_map_iff.1 h
  cases hfs
  exact ⟨⟨hrsw, hrsApart, self_of_found hrsw hms.keyed hfound⟩,
    agree_of_equal_map hrsw hms.keyed hrsApart h⟩

theorem Fit.equal_map {es fs : List (Token × Token)} (hes : Fit es) (hfs : Fit fs)
    (h : Agree es fs) : (Token.map es).equal (.map fs) = true :=
  equal_map_of_agree hes.keyed hfs.keyed hes.apart hfs.apart hes.self hfs.self h

end Entries

namespace Token

theorem equal_self_of_equal {x y : Token} (hx : x.wellKeyed = true) (hy : y.wellKeyed = true)
    (h : x.equal y = true) : x.equal x = true :=
  equivOn_wellKeyed.trans hx hy hx h (equivOn_wellKeyed.symm hx hy h)

end Token

namespace Written

open Compiler

@[simp] theorem instantiate_word (b : Bindings) (t : Token) :
    (word t).instantiate b = .word (b.substitute (placeholder t)) := rfl

@[simp] theorem instantiate_list (b : Bindings) (xs : List Written) :
    (list xs).instantiate b = .list (xs.map (instantiate b)) := by
  rw [instantiate, mapWords, mapItems_eq_map]
  rfl

@[simp] theorem instantiate_listTail (b : Bindings) (xs : List Written) (t : Written) :
    (listTail xs t).instantiate b = .listTail (xs.map (instantiate b)) (t.instantiate b) := by
  rw [instantiate, mapWords, mapItems_eq_map]
  rfl

@[simp] theorem instantiate_map (b : Bindings) (es : List (Written × Written)) :
    (map es).instantiate b = .map (es.map fun e => (e.1.instantiate b, e.2.instantiate b)) := by
  rw [instantiate, mapWords, mapEntries_eq_map]
  rfl

@[simp] theorem instantiate_mapRest (b : Bindings) (es : List (Written × Written)) (r : Written) :
    (mapRest es r).instantiate b =
      .mapRest (es.map fun e => (e.1.instantiate b, e.2.instantiate b)) (r.instantiate b) := by
  rw [instantiate, mapWords, mapEntries_eq_map]
  rfl

/-- Whichever value the compiled pattern matches, from well-keyed bindings, the pattern folds
back to it once its placeholders take the bindings of the match, and any made after it. -/
def Rebuilds (P : Written) : Prop :=
  ∀ V binds b, V.Matchable → V.isValue = true → (∀ q ∈ binds, q.2.wellKeyed = true) →
    b ∈ Pattern.matchOne P.compile V binds → ∀ d, (P.instantiate (b ++ d)).FoldsTo V

theorem rebuilds_of_literal {P : Written} (hP : P.Pattern) (hk : P.KeepsKeys)
    (hph : P.compile.hasPlaceholder = false) : P.Rebuilds := by
  intro V binds b hV _ _ hb d
  rw [Pattern.matchOne_of_hasPlaceholder hph] at hb
  by_cases heq : P.compile.equal V = true
  · rw [instantiate_of_literal hph]
    exact (hP.foldsTo_compile hk hph).trans hP.compile_wellKeyed hV.1.1 heq
  · simp [heq] at hb

theorem rebuilds_placeholder {s : String} (h : isPlaceholderName s = true) :
    (word (.sym s)).Rebuilds := by
  intro V binds b hV hval hbinds hb d
  have hw : (placeholder (.sym s)).wellKeyed = true := (Pattern.placeholder h).compile_wellKeyed
  have hm := Pattern.matched_of_mem.1 _ _ _ hw hV hbinds b hb
  have heq : (b.substitute (placeholder (.sym s))).equal V = true :=
    hm.equal _ (List.mem_singleton_self _)
  -- the later bindings do not change the binding the match made
  have hsub : (b ++ d).substitute (placeholder (.sym s)) = b.substitute (placeholder (.sym s)) :=
    Bindings.substitute_append d (hm.isSome_lookup (List.mem_singleton_self _))
  refine ⟨_, ?_, Bindings.substitute_wellKeyed (hm.keyed hbinds) hw, heq⟩
  rw [instantiate_word, hsub, fold?, Token.isValue_eq_of_equal heq, hval, if_pos rfl]

theorem rebuilds_items {xs : List Written} (hw : ∀ x ∈ xs, x.compile.wellKeyed = true)
    (ih : ∀ x ∈ xs, x.Rebuilds) :
    ∀ {vs : List Token} {binds b : Bindings}, vs.length = xs.length →
      (∀ v ∈ vs, v.isValue = true ∧ v.Matchable) → (∀ q ∈ binds, q.2.wellKeyed = true) →
      b ∈ Pattern.matchAll ((xs.map compile).zip vs) binds → ∀ d,
        List.Forall₂ (fun x v => (x.instantiate (b ++ d)).FoldsTo v) xs vs := by
  induction xs with
  | nil =>
    intro vs binds b hlen _ _ _ _
    rw [List.length_nil, List.length_eq_zero_iff] at hlen
    subst hlen
    exact .nil
  | cons x xs ihxs =>
    intro vs binds b hlen hvs hbinds hb d
    cases vs with
    | nil => simp at hlen
    | cons v vs =>
    rw [List.map_cons, List.zip_cons_cons, Pattern.matchAll_cons] at hb
    obtain ⟨b₁, hb₁, hb⟩ := List.mem_flatMap.1 hb
    have hv := hvs v List.mem_cons_self
    have hm₁ := Pattern.matched_of_mem.1 _ _ _ (hw x List.mem_cons_self) hv.2 hbinds b₁ hb₁
    -- the later items extend the bindings of the first
    have hpairs : ∀ p ∈ (xs.map compile).zip vs, p.1.wellKeyed = true ∧ p.2.Matchable := by
      intro p hp
      obtain ⟨y, hy, hpy⟩ := List.mem_map.1 (List.of_mem_zip hp).1
      exact ⟨hpy ▸ hw y (List.mem_cons_of_mem _ hy),
        (hvs p.2 (List.mem_cons_of_mem _ (List.of_mem_zip hp).2)).2⟩
    obtain ⟨more, rfl, -⟩ := (Pattern.matched_of_mem.2 _ _ hpairs (hm₁.keyed hbinds) b hb).added
    have hx := ih x List.mem_cons_self v binds b₁ hv.2 hv.1 hbinds hb₁ (more ++ d)
    rw [← List.append_assoc] at hx
    exact .cons hx (ihxs (fun y hy => hw y (List.mem_cons_of_mem _ hy))
      (fun y hy => ih y (List.mem_cons_of_mem _ hy)) (by simpa using hlen)
      (fun w hw' => hvs w (List.mem_cons_of_mem _ hw')) (hm₁.keyed hbinds) hb d)

theorem rebuilds_items_tail {xs : List Written} {t : Written}
    (hw : ∀ x ∈ xs, x.compile.wellKeyed = true) (ih : ∀ x ∈ xs, x.Rebuilds)
    (hwt : t.compile.wellKeyed = true) (iht : t.Rebuilds) :
    ∀ {us : List Token} {binds b : Bindings}, (Token.list us).Matchable →
      (∀ q ∈ binds, q.2.wellKeyed = true) →
      b ∈ Pattern.matchOne ((xs.map compile).foldr .listCap t.compile) (.list us) binds → ∀ d,
        ∃ vs ws, us = vs ++ ws ∧
          List.Forall₂ (fun x v => (x.instantiate (b ++ d)).FoldsTo v) xs vs ∧
          (t.instantiate (b ++ d)).FoldsTo (.list ws) := by
  induction xs with
  | nil =>
    intro us binds b hus hbinds hb d
    exact ⟨[], us, rfl, .nil, iht _ _ _ hus rfl hbinds hb d⟩
  | cons x xs ihxs =>
    intro us binds b hus hbinds hb d
    rw [List.map_cons, List.foldr_cons] at hb
    -- a list capture needs a list with a first item
    cases us with
    | nil =>
      have hnil : ∀ y ys, Token.list [] = .list (y :: ys) → False := fun _ _ h => by cases h
      simp [Pattern.matchOne_listCap_of hnil] at hb
    | cons u us =>
    rw [Pattern.matchOne_listCap] at hb
    obtain ⟨b₁, hb₁, hb⟩ := List.mem_flatMap.1 hb
    have hitems := hus.of_list
    have hu := hitems u List.mem_cons_self
    have hus' : (Token.list us).Matchable :=
      Token.Matchable.list fun y hy => hitems y (List.mem_cons_of_mem _ hy)
    have hw' : ∀ y ∈ xs, y.compile.wellKeyed = true := fun y hy => hw y (List.mem_cons_of_mem _ hy)
    have hm₁ := Pattern.matched_of_mem.1 _ _ _ (hw x List.mem_cons_self) hu.2 hbinds b₁ hb₁
    have hwrest : ((xs.map compile).foldr .listCap t.compile).wellKeyed = true :=
      wellKeyed_foldr_listCap (by simpa using hw') hwt
    obtain ⟨⟨more, rfl⟩, -⟩ :=
      Pattern.extends_of_mem_matchOne hwrest hus' (hm₁.keyed hbinds) hb
    obtain ⟨vs, ws, rfl, hvs, hws⟩ :=
      ihxs hw' (fun y hy => ih y (List.mem_cons_of_mem _ hy)) hus' (hm₁.keyed hbinds) hb d
    have hx := ih x List.mem_cons_self u binds b₁ hu.2 hu.1 hbinds hb₁ (more ++ d)
    rw [← List.append_assoc] at hx
    exact ⟨u :: vs, ws, rfl, .cons hx hvs, hws⟩

theorem rebuilds_entries {es : List (Written × Written)} {R : Token}
    (Rest : Bindings → List (Token × Token) → Prop)
    (hw : ∀ e ∈ es, e.1.compile.wellKeyed = true ∧ e.2.compile.wellKeyed = true)
    (ih : ∀ e ∈ es, e.1.Rebuilds ∧ e.2.Rebuilds) (hR : R.wellKeyed = true)
    (hrest : ∀ {ms : List (Token × Token)} {binds b : Bindings}, (Token.map ms).Matchable →
      (∀ q ∈ binds, q.2.wellKeyed = true) → b ∈ Pattern.matchOne R (.map ms) binds → ∀ d,
        ∃ rs, Rest (b ++ d) rs ∧ Entries.Fit rs ∧ Entries.Agree rs ms) :
    ∀ {ms : List (Token × Token)} {binds b : Bindings}, (Token.map ms).Matchable →
      (∀ q ∈ binds, q.2.wellKeyed = true) →
      b ∈ Pattern.matchOne ((compileEntries es).foldr (fun (k, v) acc => .mapCap k v acc) R)
        (.map ms) binds → ∀ d, ∃ fes rs,
        foldEntries? (es.map fun e => (e.1.instantiate (b ++ d), e.2.instantiate (b ++ d))) =
          some fes ∧ Entries.WellKeyed fes ∧ (∀ f ∈ fes, f.1.equal f.1 = true) ∧
        Rest (b ++ d) rs ∧ Entries.Fit rs ∧
        Entries.Agree (Entries.merge rs (Entries.build fes)) ms := by
  induction es with
  | nil =>
    intro ms binds b hms hbinds hb d
    obtain ⟨rs, hrs, hfit, hagree⟩ := hrest hms hbinds hb d
    refine ⟨[], rs, rfl, fun _ h => absurd h List.not_mem_nil,
      fun _ h => absurd h List.not_mem_nil, hrs, hfit, ?_⟩
    -- merging no entries into the remainder leaves it as it is
    rwa [show Entries.build [] = [] from rfl, Entries.merge, List.append_nil,
      Entries.build_eq_self hfit.apart]
  | cons e es ihes =>
    obtain ⟨k, v⟩ := e
    intro ms binds b hms hbinds hb d
    rw [compileEntries, List.foldr_cons] at hb
    obtain ⟨ms', hms', i, hi, b₁, b₂, hb₁, hb₂, hb⟩ := Pattern.mem_matchOne_mapCap hb
    cases hms'
    have hfit := Entries.Fit.of_matchable hms
    have hentry := hms.of_map ms[i] (List.getElem_mem hi)
    have hwk := hw (k, v) List.mem_cons_self
    have hw' : ∀ f ∈ es, f.1.compile.wellKeyed = true ∧ f.2.compile.wellKeyed = true :=
      fun f hf => hw f (List.mem_cons_of_mem _ hf)
    have hwrest : ((compileEntries es).foldr (fun (k, v) acc => .mapCap k v acc) R).wellKeyed =
        true := wellKeyed_foldr_mapCap (wellKeyed_compileEntries hw') hR
    have hrestm : (Token.map (Entries.eraseAt ms i)).Matchable := by
      rw [Entries.eraseAt_eq_eraseIdx hfit.apart]
      exact hms.eraseIdx i
    -- the key, the value and the other entries, matched one after the other
    have h₁ := Pattern.extends_of_mem_matchOne hwk.1 hentry.2.1 hbinds hb₁
    have h₂ := Pattern.extends_of_mem_matchOne hwk.2 hentry.2.2 h₁.2 hb₂
    have h₃ := Pattern.extends_of_mem_matchOne hwrest hrestm h₂.2 hb
    obtain ⟨m₃, rfl⟩ := h₃.1
    obtain ⟨m₂, rfl⟩ := h₂.1
    have hK := (ih (k, v) List.mem_cons_self).1 _ _ _ hentry.2.1 hentry.1.1 hbinds hb₁
      (m₂ ++ m₃ ++ d)
    have hV := (ih (k, v) List.mem_cons_self).2 _ _ _ hentry.2.2 hentry.1.2 h₁.2 hb₂ (m₃ ++ d)
    obtain ⟨fes, rs, hfes, hfesk, hself, hrs, hrsfit, hagree⟩ :=
      ihes hw' (fun f hf => ih f (List.mem_cons_of_mem _ hf)) hrestm h₂.2 hb d
    obtain ⟨K, hKf, hKk, hKe⟩ := hK
    obtain ⟨W, hWf, hWk, hWe⟩ := hV
    simp only [List.append_assoc] at hKf hWf hfes hrs ⊢
    rw [Entries.eraseAt_eq_eraseIdx hfit.apart] at hagree
    refine ⟨(K, W) :: fes, rs, ?_, ?_, ?_, hrs, hrsfit,
      Entries.agree_merge_cons hfit.keyed hfit.apart hi hrsfit.keyed hrsfit.apart hfesk hKk hWk
        hKe hWe hagree⟩
    · rw [List.map_cons]
      exact foldEntries?_cons_of hKf hWf hfes
    · intro f hf
      rcases List.mem_cons.1 hf with rfl | hf
      exacts [⟨hKk, hWk⟩, hfesk f hf]
    · intro f hf
      rcases List.mem_cons.1 hf with rfl | hf
      exacts [Token.equal_self_of_equal hKk (hfit.keyed _ (List.getElem_mem hi)).1 hKe, hself f hf]

theorem Tokens.equal_append {xs ys xs' ys' : List Token} (h : Tokens.equal xs ys = true)
    (h' : Tokens.equal xs' ys' = true) : Tokens.equal (xs ++ xs') (ys ++ ys') = true := by
  induction xs generalizing ys with
  | nil =>
    cases ys with
    | nil => exact h'
    | cons => simp [Tokens.equal] at h
  | cons x xs ih =>
    cases ys with
    | nil => simp [Tokens.equal] at h
    | cons y ys =>
      simp only [Tokens.equal, Bool.and_eq_true] at h
      simp only [List.cons_append, Tokens.equal, h.1, ih h.2, Bool.and_self]

theorem rebuilds_list {xs : List Written} (hw : ∀ x ∈ xs, x.compile.wellKeyed = true)
    (ih : ∀ x ∈ xs, x.Rebuilds) (hph : (list xs).compile.hasPlaceholder = true) :
    (list xs).Rebuilds := by
  intro V binds b hV _ hbinds hb d
  rw [compile, compileItems_eq_map] at hph hb
  rw [Pattern.matchOne_list, if_neg (by simp [hph])] at hb
  cases V with
  | list vs =>
    by_cases hlen : vs.length = xs.length
    · simp only [List.length_map, hlen, beq_self_eq_true, if_true] at hb
      obtain ⟨Ws, hWs, hWk, hWe⟩ :=
        foldItems?_of_forall₂ (List.forall₂_map_left_iff.2 (rebuilds_items hw ih hlen hV.of_list hbinds hb d))
      refine ⟨.list Ws, ?_, (Token.wellKeyed_list Ws).2 hWk, ?_⟩
      · rw [instantiate_list, fold?, hWs]
        rfl
      · rw [Token.equal_list_list]
        exact hWe
    · simp [hlen] at hb
  | _ => simp at hb

theorem rebuilds_listTail {x : Written} {xs : List Written} {t : Written}
    (hw : ∀ y ∈ x :: xs, y.compile.wellKeyed = true) (ih : ∀ y ∈ x :: xs, y.Rebuilds)
    (hwt : t.compile.wellKeyed = true) (iht : t.Rebuilds) : (listTail (x :: xs) t).Rebuilds := by
  intro V binds b hV _ hbinds hb d
  rw [compile, compileItems_eq_map] at hb
  -- the template is a list capture, which only matches a list
  obtain ⟨us, rfl⟩ : ∃ us, V = .list us := by
    rw [List.map_cons, List.foldr_cons] at hb
    cases V with
    | list us => exact ⟨us, rfl⟩
    | _ => simp [Pattern.matchOne] at hb
  obtain ⟨vs, ws, rfl, hvs, hws⟩ := rebuilds_items_tail hw ih hwt iht hV hbinds hb d
  obtain ⟨Ws, hWs, hWk, hWe⟩ := foldItems?_of_forall₂ (List.forall₂_map_left_iff.2 hvs)
  obtain ⟨T, hT, hTk, hTe⟩ := hws
  obtain ⟨ts, rfl, hts⟩ := Token.eq_list_of_equal hTe
  refine ⟨.list (Ws ++ ts), ?_, ?_, ?_⟩
  · rw [instantiate_listTail, List.map_cons]
    rw [List.map_cons] at hWs
    exact fold?_listTail_of hWs hT
  · refine (Token.wellKeyed_list _).2 fun y hy => ?_
    rcases List.mem_append.1 hy with hy | hy
    exacts [hWk y hy, (Token.wellKeyed_list ts).1 hTk y hy]
  · rw [Token.equal_list_list]
    exact Tokens.equal_append hWe hts

theorem rebuilds_map {es : List (Written × Written)}
    (hw : ∀ e ∈ es, e.1.compile.wellKeyed = true ∧ e.2.compile.wellKeyed = true)
    (ih : ∀ e ∈ es, e.1.Rebuilds ∧ e.2.Rebuilds) (hph : (map es).compile.hasPlaceholder = true) :
    (map es).Rebuilds := by
  intro V binds b hV _ hbinds hb d
  rw [compile] at hph hb
  rw [(finishMap_cases _ _).resolve_left (by simp [hph])] at hb
  -- with no entry the pattern would be the empty map, which holds no placeholder
  obtain ⟨ms, rfl⟩ : ∃ ms, V = .map ms := by
    cases es with
    | nil => simp [compileEntries, finishMap, Token.hasPlaceholder, Token.hasPlaceholder.anyEntry,
        Entries.merge, Entries.build] at hph
    | cons e es =>
      rw [compileEntries, List.foldr_cons] at hb
      obtain ⟨ms, hms, -⟩ := Pattern.mem_matchOne_mapCap hb
      exact ⟨ms, hms⟩
  -- no remainder: the last capture matched the empty map
  have hrest : ∀ {ms : List (Token × Token)} {binds b : Bindings}, (Token.map ms).Matchable →
      (∀ q ∈ binds, q.2.wellKeyed = true) → b ∈ Pattern.matchOne (.map []) (.map ms) binds →
        ∀ d, ∃ rs, (fun (_ : Bindings) (rs : List (Token × Token)) => rs = []) (b ++ d) rs ∧
          Entries.Fit rs ∧ Entries.Agree rs ms := by
    intro ms binds b _ _ hb d
    rw [Pattern.matchOne_of_hasPlaceholder rfl, Token.equal_map_map] at hb
    have hms : ms = [] := by
      cases ms with
      | nil => rfl
      | cons m ms => simp at hb
    subst hms
    exact ⟨[], rfl, ⟨fun _ h => absurd h List.not_mem_nil, rfl,
      fun _ h => absurd h List.not_mem_nil⟩, fun _ _ => .none⟩
  obtain ⟨fes, rs, hfes, hfesk, hself, rfl, hfit, hagree⟩ :=
    rebuilds_entries (fun _ rs => rs = []) hw ih rfl hrest hV hbinds hb d
  have hfit' := hfit.merge_build hfesk hself
  rw [Entries.merge, List.nil_append, Entries.build_eq_self (Entries.build_keysApart _)]
    at hfit' hagree
  refine ⟨.map (Entries.build fes), ?_, (Token.wellKeyed_map _).2
    ⟨Entries.wellKeyed_build hfesk, Entries.build_keysApart _⟩,
    hfit'.equal_map (.of_matchable hV) hagree⟩
  rw [instantiate_map, fold?, hfes]
  rfl

theorem rebuilds_mapRest {e : Written × Written} {es : List (Written × Written)} {r : Written}
    (hw : ∀ f ∈ e :: es, f.1.compile.wellKeyed = true ∧ f.2.compile.wellKeyed = true)
    (ih : ∀ f ∈ e :: es, f.1.Rebuilds ∧ f.2.Rebuilds) (hwr : r.compile.wellKeyed = true)
    (ihr : r.Rebuilds) (hph : (mapRest (e :: es) r).compile.hasPlaceholder = true) :
    (mapRest (e :: es) r).Rebuilds := by
  intro V binds b hV _ hbinds hb d
  rw [compile] at hph hb
  rw [(finishMap_cases _ _).resolve_left (by simp [hph])] at hb
  obtain ⟨ms, rfl⟩ : ∃ ms, V = .map ms := by
    rw [compileEntries, List.foldr_cons] at hb
    obtain ⟨ms, hms, -⟩ := Pattern.mem_matchOne_mapCap hb
    exact ⟨ms, hms⟩
  -- the remainder folds to a map equal to the map it matched
  have hrest : ∀ {ms : List (Token × Token)} {binds b : Bindings}, (Token.map ms).Matchable →
      (∀ q ∈ binds, q.2.wellKeyed = true) → b ∈ Pattern.matchOne r.compile (.map ms) binds →
        ∀ d, ∃ rs, (r.instantiate (b ++ d)).fold? = some (.map rs) ∧ Entries.Fit rs ∧
          Entries.Agree rs ms := by
    intro ms binds b hms hbinds hb d
    obtain ⟨W, hW, hWk, hWe⟩ := ihr _ _ _ hms rfl hbinds hb d
    obtain ⟨rs, rfl, -, -⟩ := Token.eq_map_of_equal hWe
    exact ⟨rs, hW, Entries.Fit.of_equal hWk (.of_matchable hms) hWe⟩
  obtain ⟨fes, rs, hfes, hfesk, hself, hrs, hfit, hagree⟩ :=
    rebuilds_entries (fun c rs => (r.instantiate c).fold? = some (.map rs)) hw ih hwr hrest hV
      hbinds hb d
  have hfit' := hfit.merge_build hfesk hself
  refine ⟨.map (Entries.merge rs (Entries.build fes)), ?_,
    (Token.wellKeyed_map _).2 ⟨hfit'.keyed, hfit'.apart⟩,
    hfit'.equal_map (.of_matchable hV) hagree⟩
  rw [instantiate_mapRest, List.map_cons]
  rw [List.map_cons] at hfes
  exact fold?_mapRest_of hfes hrs

/-- Whatever value the template of a pattern
matches, from well-keyed bindings, the pattern folds back to it once its placeholders take the
bindings of the match: the compiler's captures and the folding rules take a value apart and put
it together the same way, where the pattern keeps its keys. -/
theorem Pattern.rebuilds {P : Written} (hP : P.Pattern) (hk : P.KeepsKeys) : P.Rebuilds := by
  induction hP with
  | placeholder h => exact rebuilds_placeholder h
  | literal h =>
    refine rebuilds_of_literal (.literal h) hk ?_
    rcases h with ⟨n, rfl, -⟩ | ⟨s, rfl⟩ | ⟨b, rfl⟩ <;> rfl
  | @list xs hxs ih =>
    cases hk with
    | list hk =>
    by_cases hph : (Written.list xs).compile.hasPlaceholder = false
    · exact rebuilds_of_literal (.list hxs) (.list hk) hph
    · exact rebuilds_list (fun x hx => (hxs x hx).compile_wellKeyed)
        (fun x hx => ih x hx (hk x hx)) (by simpa using hph)
  | @listTail x xs t hxs ht _ ih iht =>
    cases hk with
    | listTail hk hkt =>
    exact rebuilds_listTail (fun y hy => (hxs y hy).compile_wellKeyed)
      (fun y hy => ih y hy (hk y hy)) ht.compile_wellKeyed (iht hkt)
  | @map es hpk hpv ihk ihv =>
    cases hk with
    | map hk hv =>
    by_cases hph : (Written.map es).compile.hasPlaceholder = false
    · exact rebuilds_of_literal (.map hpk hpv) (.map hk hv) hph
    · exact rebuilds_map (fun e he => ⟨(hpk e he).compile_wellKeyed, (hpv e he).compile_wellKeyed⟩)
        (fun e he => ⟨ihk e he (hk e he), ihv e he (hv e he)⟩) (by simpa using hph)
  | @mapRest e es r hpk hpv hpr hfit ihk ihv ihr =>
    cases hk with
    | mapRest hk hv hkr hkeep =>
    by_cases hph : (Written.mapRest (e :: es) r).compile.hasPlaceholder = false
    · exact rebuilds_of_literal (.mapRest hpk hpv hpr hfit) (.mapRest hk hv hkr hkeep) hph
    · exact rebuilds_mapRest
        (fun f hf => ⟨(hpk f hf).compile_wellKeyed, (hpv f hf).compile_wellKeyed⟩)
        (fun f hf => ⟨ihk f hf (hk f hf), ihv f hf (hv f hf)⟩) hpr.compile_wellKeyed (ihr hkr)
        (by simpa using hph)

end Written

end Reckon

import Mathlib.Algebra.BigOperators.Group.List.Basic
import Mathlib.Data.List.Find
import Mathlib.Data.List.Pairwise
import Mathlib.Data.UInt
import Reckon.Token.Hash
import Reckon.Token.Map

/-!
# Equality of tokens is an equivalence that hashing respects

Two numbers are equal when they have one exact value, or are infinities of one sign
(`Number.equal_iff`); NaN equals nothing, not even itself. Lists are equal item by item. A map
is equal to another when both have as many entries and each of its keys looks up, in the
other map, a value equal to its own.

A map built from entries keeps one entry per key (`Entries.build_keysApart`): no key equals a
later one. Call a token well keyed when every map in it, at any depth, is so. Equality of
well-keyed tokens is then symmetric and transitive, reflexive on the tokens without a NaN, and
equal tokens hash alike whatever the primitives of the hash (`Token.equal_comm_trans_refl_hash`).
So a map lookup, which only compares a key with the keys of its hash, finds what the plain
search finds (`Entries.get?_eq_indexed`).

The map case carries the argument. A key of a map looks up the one entry of the other map
whose key is equal to it: two such entries would have equal keys. So equality pairs the
entries of two equal maps one to one (`Entries.exists_perm_of_covers`), which gives symmetry
and the hash, a sum over the entries. The induction is on the size of the tokens, since the
key of one map is compared with keys of the other.
-/

namespace Reckon

/-! ### Numbers -/

namespace Number

/-- Whether the number is NaN. -/
def isNaN : Number → Bool
  | .exact _ => false
  | .real x =>
    match Real.shape x with
    | .nan => true
    | _ => false

theorem toRat?_eq_none_iff (n : Number) :
    n.toRat? = none ↔ n.rawShape = .nan ∨ ∃ s, n.rawShape = .infinite s := by
  cases n with
  | exact q => simp [toRat?, rawShape]
  | real x => cases h : Real.shape x <;> simp [toRat?, Real.toRat?, rawShape, h]

theorem value?_rawShape {n : Number} (h : n.toRat? = none) : n.rawShape.value? = none := by
  rcases (toRat?_eq_none_iff n).1 h with h | ⟨s, h⟩ <;> simp [h, Real.Shape.value?]

theorem rawShape_ne_infinite {n : Number} {q : Rat} (h : n.toRat? = some q) (s : Bool) :
    n.rawShape ≠ .infinite s := fun hs =>
  Option.some_ne_none q (h.symm.trans ((toRat?_eq_none_iff n).2 (.inr ⟨s, hs⟩)))

theorem same_iff (a b : Real.Shape) :
    a.same b = true ↔ (∃ q, a.value? = some q ∧ b.value? = some q) ∨
      ∃ s, a = .infinite s ∧ b = .infinite s := by
  cases a <;> cases b <;> simp [Real.Shape.same, Real.Shape.value?]
  · exact eq_comm
  · exact eq_comm

theorem equal_iff (n m : Number) :
    n.equal m = true ↔ (∃ q, n.toRat? = some q ∧ m.toRat? = some q) ∨
      ∃ s, n.rawShape = .infinite s ∧ m.rawShape = .infinite s := by
  unfold equal
  -- without an exact value on one side, the doubles held have no common value either
  have hdouble : n.toRat? = none ∨ m.toRat? = none →
      (n.rawShape.same m.rawShape = true ↔ ∃ s, n.rawShape = .infinite s ∧
        m.rawShape = .infinite s) := by
    intro hnone
    rw [same_iff]
    rcases hnone with h | h <;> simp [value?_rawShape h]
  cases hn : n.toRat? with
  | some a =>
    cases hm : m.toRat? with
    | some b =>
      simp only [beq_iff_eq, Option.some.injEq, exists_eq_left', rawShape_ne_infinite hn,
        false_and, exists_false, or_false]
      exact eq_comm
    | none =>
      rw [hdouble (.inr hm)]
      simp [rawShape_ne_infinite hn]
  | none =>
    rw [hdouble (.inl hn)]
    simp

theorem equal_comm (n m : Number) : n.equal m = m.equal n := by
  rw [Bool.eq_iff_iff, equal_iff, equal_iff]
  constructor
  · rintro (⟨q, h₁, h₂⟩ | ⟨s, h₁, h₂⟩)
    exacts [.inl ⟨q, h₂, h₁⟩, .inr ⟨s, h₂, h₁⟩]
  · rintro (⟨q, h₁, h₂⟩ | ⟨s, h₁, h₂⟩)
    exacts [.inl ⟨q, h₂, h₁⟩, .inr ⟨s, h₂, h₁⟩]

theorem equal_trans {n m k : Number} (h₁ : n.equal m = true) (h₂ : m.equal k = true) :
    n.equal k = true := by
  rw [equal_iff] at h₁ h₂ ⊢
  rcases h₁ with ⟨q, hn, hm⟩ | ⟨s, hn, hm⟩ <;> rcases h₂ with ⟨q', hm', hk⟩ | ⟨s', hm', hk⟩
  · exact .inl ⟨q, hn, hk.trans (Option.some_inj.2 (Option.some_inj.1 (hm'.symm.trans hm)))⟩
  · -- `m` cannot have an exact value and be an infinity
    exact absurd ((toRat?_eq_none_iff m).2 (.inr ⟨s', hm'⟩)) (by simp [hm])
  · exact absurd ((toRat?_eq_none_iff m).2 (.inr ⟨s, hm⟩)) (by simp [hm'])
  · exact .inr ⟨s, hn, hk.trans (by rw [← hm', hm])⟩

theorem equal_self {n : Number} (h : n.isNaN = false) : n.equal n = true := by
  rw [equal_iff]
  cases hq : n.toRat? with
  | some q => exact .inl ⟨q, rfl, rfl⟩
  | none =>
    rcases (toRat?_eq_none_iff n).1 hq with hnan | ⟨s, hs⟩
    · cases n with
      | exact q => simp [rawShape] at hnan
      | real x => simp [isNaN, rawShape] at h hnan; simp [hnan] at h
    · exact .inr ⟨s, hs, hs⟩

theorem hashText_eq {n m : Number} (h : n.equal m = true) : n.hashText = m.hashText := by
  rw [equal_iff] at h
  rcases h with ⟨q, hn, hm⟩ | ⟨s, hn, hm⟩
  · simp [hashText, hn, hm]
  · -- an infinity is hashed by its text, which its sign decides
    have htext : ∀ k : Number, k.rawShape = .infinite s → k.hashText = if s then "-Inf" else "+Inf" := by
      intro k hk
      cases k with
      | exact q => simp [rawShape] at hk
      | real x =>
        simp only [rawShape] at hk
        simp [hashText, toRat?, Real.toRat?, text, Real.format, hk]
    rw [htext n hn, htext m hm]

end Number

/-! ### What equality looks at -/

namespace Entries

/-- Whether no key of the entries equals a later key. -/
def keysApart : List (Token × Token) → Bool
  | [] => true
  | e :: es => es.all (fun f => !e.1.equal f.1) && keysApart es

theorem keysApart_iff {es : List (Token × Token)} :
    keysApart es = true ↔ es.Pairwise fun e f => e.1.equal f.1 = false := by
  induction es with
  | nil => simp [keysApart]
  | cons e es ih => simp [keysApart, ih]

/-- Whether each entry of `es` looks up, in `fs`, a value equal to its own. -/
def found (es fs : List (Token × Token)) : Bool :=
  es.all fun e =>
    match get? fs e.1 with
    | some v => v.equal e.2
    | none => false

theorem found_iff {es fs : List (Token × Token)} :
    found es fs = true ↔
      ∀ e ∈ es, ∃ f, fs.find? (fun f => f.1.equal e.1) = some f ∧ f.2.equal e.2 = true := by
  simp only [found, List.all_eq_true, get?]
  refine forall₂_congr fun e _ => ?_
  cases fs.find? (fun f => f.1.equal e.1) <;> simp

end Entries

namespace Token

/-- Whether a NaN occurs in the token, at any depth. -/
def hasNaN : Token → Bool
  | .num n => n.isNaN
  | .list xs => anyItem xs
  | .map es => anyEntry es
  | .listCap h t => hasNaN h || hasNaN t
  | .mapCap k v r => hasNaN k || hasNaN v || hasNaN r
  | _ => false
where
  /-- Whether a NaN occurs in one of the items. -/
  anyItem : List Token → Bool
    | [] => false
    | x :: xs => hasNaN x || anyItem xs
  /-- Whether a NaN occurs in a key or a value of one of the entries. -/
  anyEntry : List (Token × Token) → Bool
    | [] => false
    | (k, v) :: es => hasNaN k || hasNaN v || anyEntry es

/-- Whether every map in the token, at any depth, has no key equal to a later key, as
building a map from entries leaves it. -/
def wellKeyed : Token → Bool
  | .list xs => allItems xs
  | .map es => allEntries es && Entries.keysApart es
  | .listCap h t => wellKeyed h && wellKeyed t
  | .mapCap k v r => wellKeyed k && wellKeyed v && wellKeyed r
  | _ => true
where
  /-- Whether every item is well keyed. -/
  allItems : List Token → Bool
    | [] => true
    | x :: xs => wellKeyed x && allItems xs
  /-- Whether every key and every value is well keyed. -/
  allEntries : List (Token × Token) → Bool
    | [] => true
    | (k, v) :: es => wellKeyed k && wellKeyed v && allEntries es

section Parts

attribute [local simp] hasNaN wellKeyed

theorem hasNaN_list (xs : List Token) :
    (list xs).hasNaN = false ↔ ∀ x ∈ xs, x.hasNaN = false := by
  simp only [hasNaN]
  induction xs with
  | nil => simp [hasNaN.anyItem]
  | cons x xs ih => simp [hasNaN.anyItem, ih]

theorem hasNaN_map (es : List (Token × Token)) :
    (map es).hasNaN = false ↔ ∀ e ∈ es, e.1.hasNaN = false ∧ e.2.hasNaN = false := by
  simp only [hasNaN]
  induction es with
  | nil => simp [hasNaN.anyEntry]
  | cons e es ih => simp [hasNaN.anyEntry, ih, and_assoc]

theorem wellKeyed_list (xs : List Token) :
    (list xs).wellKeyed = true ↔ ∀ x ∈ xs, x.wellKeyed = true := by
  simp only [wellKeyed]
  induction xs with
  | nil => simp [wellKeyed.allItems]
  | cons x xs ih => simp [wellKeyed.allItems, ih]

theorem wellKeyed_map (es : List (Token × Token)) :
    (map es).wellKeyed = true ↔
      (∀ e ∈ es, e.1.wellKeyed = true ∧ e.2.wellKeyed = true) ∧ Entries.keysApart es = true := by
  simp only [wellKeyed, Bool.and_eq_true]
  refine and_congr_left' ?_
  induction es with
  | nil => simp [wellKeyed.allEntries]
  | cons e es ih => simp [wellKeyed.allEntries, ih, and_assoc]

end Parts

/-! The views of `equal` from a token of each kind: what the other token must be. -/

theorem all_zip_attach {α β : Type} (xs : List α) (ys : List β) (f : α → β → Bool) :
    (xs.attach.zip ys.attach).all (fun p => f p.1.1 p.2.1) = (xs.zip ys).all fun p => f p.1 p.2 := by
  have h : xs.zip ys = (xs.attach.zip ys.attach).map (Prod.map Subtype.val Subtype.val) := by
    rw [← List.zip_map, List.attach_map_subtype_val, List.attach_map_subtype_val]
  rw [h, List.all_map]
  rfl

theorem find?_attach {α : Type} (l : List α) (p : α → Bool) :
    (l.attach.find? fun x => p x.1).map Subtype.val = l.find? p := by
  have h := List.find?_map (p := p) (f := Subtype.val) (l := l.attach)
  rw [List.attach_map_subtype_val] at h
  rw [h]
  rfl

theorem all_attach {α : Type} (l : List α) (p : α → Bool) :
    (l.attach.all fun x => p x.1) = l.all p := by
  have h := List.all_map (p := p) (f := Subtype.val) (l := l.attach)
  rw [List.attach_map_subtype_val] at h
  rw [h]
  rfl

theorem Tokens.equal_eq (xs ys : List Token) :
    Tokens.equal xs ys = (xs.length == ys.length && (xs.zip ys).all fun p => p.1.equal p.2) := by
  induction xs generalizing ys with
  | nil => cases ys <;> simp [Tokens.equal]
  | cons x xs ih =>
    cases ys with
    | nil => simp [Tokens.equal]
    | cons y ys => simp [Tokens.equal, ih, Bool.and_left_comm]

theorem equal_list_list (xs ys : List Token) : (list xs).equal (list ys) = Tokens.equal xs ys := by
  rw [equal, all_zip_attach xs ys equal, Tokens.equal_eq]

theorem equal_map_map (es fs : List (Token × Token)) :
    (map es).equal (map fs) = (es.length == fs.length && Entries.found es fs) := by
  rw [equal, Entries.found]
  congr 1
  rw [← all_attach es]
  refine congrArg (fun g => es.attach.all g) (funext fun e => ?_)
  rw [Entries.get?, ← find?_attach fs]
  cases fs.attach.find? (fun f => f.1.1.equal e.1.1) <;> rfl

theorem equal_list_iff {xs : List Token} {y : Token} :
    (list xs).equal y = true ↔ ∃ ys, y = list ys ∧ Tokens.equal xs ys = true := by
  cases y <;> simp [equal_list_list] <;> simp [equal]

theorem equal_map_iff {es : List (Token × Token)} {y : Token} :
    (map es).equal y = true ↔
      ∃ fs, y = map fs ∧ es.length = fs.length ∧ Entries.found es fs = true := by
  cases y <;> simp [equal_map_map] <;> simp [equal]

section Views

attribute [local simp] equal

theorem equal_num_iff {a : Number} {y : Token} :
    (num a).equal y = true ↔ ∃ b, y = num b ∧ a.equal b = true := by
  cases y <;> simp

theorem equal_text_iff {s : String} {y : Token} : (text s).equal y = true ↔ y = text s := by
  cases y <;> simp
  exact eq_comm

theorem equal_bool_iff {b : Bool} {y : Token} : (bool b).equal y = true ↔ y = bool b := by
  cases y <;> simp
  exact eq_comm

theorem equal_sym_iff {s : String} {y : Token} : (sym s).equal y = true ↔ y = sym s := by
  cases y <;> simp
  exact eq_comm

theorem equal_var_iff {n : String} {c : Kind} {y : Token} :
    (var n c).equal y = true ↔ y = var n c := by
  cases y <;> simp
  exact and_congr eq_comm eq_comm

theorem equal_listCap_iff {h t y : Token} :
    (listCap h t).equal y = true ↔
      ∃ h' t', y = listCap h' t' ∧ h.equal h' = true ∧ t.equal t' = true := by
  cases y <;> simp

theorem equal_mapCap_iff {k v r y : Token} :
    (mapCap k v r).equal y = true ↔ ∃ k' v' r', y = mapCap k' v' r' ∧
      k.equal k' = true ∧ v.equal v' = true ∧ r.equal r' = true := by
  cases y <;> simp [and_assoc]

end Views

/-- `equal` is symmetric and transitive on the tokens `P` holds of. -/
structure EquivOn (P : Token → Prop) : Prop where
  symm : ∀ {x y}, P x → P y → x.equal y = true → y.equal x = true
  trans : ∀ {x y z}, P x → P y → P z → x.equal y = true → y.equal z = true → x.equal z = true

end Token

/-! ### Pairing the entries of equal maps -/

theorem exists_mem_of_forall₂ {α β : Type} {R : α → β → Prop} {l₁ : List α} {l₂ : List β}
    (h : List.Forall₂ R l₁ l₂) {b : β} (hb : b ∈ l₂) : ∃ a ∈ l₁, R a b := by
  induction h with
  | nil => simp at hb
  | cons hab _ ih =>
    rcases List.mem_cons.1 hb with rfl | hb
    · exact ⟨_, List.mem_cons_self, hab⟩
    · obtain ⟨a, ha, hr⟩ := ih hb
      exact ⟨a, List.mem_cons_of_mem _ ha, hr⟩

theorem map_eq_map_of_forall₂ {α β : Type} {R : α → α → Prop} {F : α → β} {l₁ l₂ : List α}
    (h : List.Forall₂ R l₁ l₂) (hF : ∀ a ∈ l₁, ∀ b ∈ l₂, R a b → F a = F b) :
    l₁.map F = l₂.map F := by
  induction h with
  | nil => rfl
  | cons hab _ ih =>
    rw [List.map_cons, List.map_cons, hF _ List.mem_cons_self _ List.mem_cons_self hab,
      ih fun a ha b hb => hF a (List.mem_cons_of_mem _ ha) b (List.mem_cons_of_mem _ hb)]

namespace Entries

/-- Entries whose keys and values `P` holds of. -/
def Within (P : Token → Prop) (es : List (Token × Token)) : Prop := ∀ e ∈ es, P e.1 ∧ P e.2

section Pairing

variable {P : Token → Prop} {es fs gs : List (Token × Token)}

theorem Within.of_sublist (hes : Within P es) (h : fs ⊆ es) : Within P fs := fun e he =>
  hes e (h he)

theorem eq_of_equal_key (hP : Token.EquivOn P) (hes : Within P es) (hapart : keysApart es = true)
    {e e' : Token × Token} (he : e ∈ es) (he' : e' ∈ es) {k : Token} (hk : P k)
    (h : e.1.equal k = true) (h' : e'.1.equal k = true) : e = e' := by
  have h₁ : e.1.equal e'.1 = true :=
    hP.trans (hes e he).1 hk (hes e' he').1 h (hP.symm (hes e' he').1 hk h')
  have h₂ : e'.1.equal e.1 = true := hP.symm (hes e he).1 (hes e' he').1 h₁
  -- two entries at different places are apart one way or the other
  have hpw : es.Pairwise fun a b => a.1.equal b.1 = false ∨ b.1.equal a.1 = false :=
    (keysApart_iff.1 hapart).imp Or.inl
  have : Std.Symm fun a b : Token × Token => a.1.equal b.1 = false ∨ b.1.equal a.1 = false :=
    ⟨fun _ _ => Or.symm⟩
  by_contra hne
  rcases hpw.forall he he' hne with h | h <;> simp_all

theorem find?_key {k : Token} {f : Token × Token} (h : fs.find? (fun f => f.1.equal k) = some f) :
    f ∈ fs ∧ f.1.equal k = true :=
  ⟨List.mem_of_find?_eq_some h, by simpa using List.find?_some h⟩

theorem covers_of_found (h : found es fs = true) :
    ∀ e ∈ es, ∃ f ∈ fs, f.1.equal e.1 = true ∧ f.2.equal e.2 = true := by
  intro e he
  obtain ⟨f, hf, hv⟩ := found_iff.1 h e he
  exact ⟨f, (find?_key hf).1, (find?_key hf).2, hv⟩

/-- When each entry of `es` has a partner in `fs` of an equal key and an equal
value, and `fs` has no more entries, the partners are `fs` in some order. -/
theorem exists_perm_of_covers (hP : Token.EquivOn P) (hes : Within P es) (hfs : Within P fs)
    (hapart : keysApart es = true) (hlen : es.length = fs.length)
    (hcov : ∀ e ∈ es, ∃ f ∈ fs, f.1.equal e.1 = true ∧ f.2.equal e.2 = true) :
    ∃ fs', fs.Perm fs' ∧
      List.Forall₂ (fun e f => f.1.equal e.1 = true ∧ f.2.equal e.2 = true) es fs' := by
  classical
  induction es generalizing fs with
  | nil => exact ⟨[], by simp_all [eq_comm (a := 0)], .nil⟩
  | cons e es ih =>
    obtain ⟨f, hf, hk, hv⟩ := hcov e List.mem_cons_self
    simp only [keysApart, Bool.and_eq_true, List.all_eq_true, Bool.not_eq_eq_eq_not,
      Bool.not_true] at hapart
    -- a later entry has its partner among the others: `f`'s key equals `e`'s key
    have hcov' : ∀ e' ∈ es, ∃ f' ∈ fs.erase f, f'.1.equal e'.1 = true ∧ f'.2.equal e'.2 = true := by
      intro e' he'
      obtain ⟨f', hf', hk', hv'⟩ := hcov e' (List.mem_cons_of_mem _ he')
      refine ⟨f', (List.mem_erase_of_ne ?_).2 hf', hk', hv'⟩
      rintro rfl
      have hee' : e.1.equal e'.1 = true :=
        hP.trans (hes e List.mem_cons_self).1 (hfs f' hf).1 (hes e' (List.mem_cons_of_mem _ he')).1
          (hP.symm (hfs f' hf).1 (hes e List.mem_cons_self).1 hk) hk'
      simp [hapart.1 e' he'] at hee'
    obtain ⟨fs', hperm, hfor⟩ :=
      ih (fun e' he' => hes e' (List.mem_cons_of_mem _ he'))
        (hfs.of_sublist fun _ h => List.mem_of_mem_erase h) hapart.2
        (by rw [List.length_erase_of_mem hf]; simp at hlen; omega) hcov'
    exact ⟨f :: fs', (List.perm_cons_erase hf).trans (hperm.cons f), .cons ⟨hk, hv⟩ hfor⟩

/-- Symmetry of map equality. -/
theorem found_symm (hP : Token.EquivOn P) (hes : Within P es) (hfs : Within P fs)
    (hapart : keysApart es = true) (hlen : es.length = fs.length) (h : found es fs = true) :
    found fs es = true := by
  obtain ⟨fs', hperm, hfor⟩ :=
    exists_perm_of_covers hP hes hfs hapart hlen (covers_of_found h)
  rw [found_iff]
  intro f hf
  obtain ⟨e, he, hk, hv⟩ := exists_mem_of_forall₂ hfor (hperm.mem_iff.1 hf)
  have hke : e.1.equal f.1 = true := hP.symm (hfs f hf).1 (hes e he).1 hk
  -- the first key of `es` equal to `f`'s key is `e`'s: no other key is
  obtain ⟨e', hfind⟩ : ∃ e', es.find? (fun e' => e'.1.equal f.1) = some e' :=
    Option.isSome_iff_exists.1 (List.find?_isSome.2 ⟨e, he, hke⟩)
  obtain rfl : e' = e :=
    eq_of_equal_key hP hes hapart (find?_key hfind).1 he (hfs f hf).1 (find?_key hfind).2 hke
  exact ⟨e', hfind, hP.symm (hfs f hf).2 (hes e' he).2 hv⟩

/-- Transitivity of map equality. -/
theorem found_trans (hP : Token.EquivOn P) (hes : Within P es) (hfs : Within P fs)
    (hgs : Within P gs) (h₁ : found es fs = true) (h₂ : found fs gs = true) :
    found es gs = true := by
  rw [found_iff] at h₁ h₂ ⊢
  intro e he
  obtain ⟨f, hf, hfv⟩ := h₁ e he
  obtain ⟨hfmem, hfe⟩ := find?_key hf
  have hef : e.1.equal f.1 = true := hP.symm (hfs f hfmem).1 (hes e he).1 hfe
  obtain ⟨g, hg, hgv⟩ := h₂ f hfmem
  refine ⟨g, ?_, hP.trans (hgs g (find?_key hg).1).2 (hfs f hfmem).2 (hes e he).2
    hgv hfv⟩
  -- a key of `gs` equals `e`'s key exactly when it equals `f`'s
  rw [← hg]
  refine List.find?_congr fun x hx => Bool.eq_iff_iff.2 ⟨fun hxe => ?_, fun hxf => ?_⟩
  · exact hP.trans (hgs x hx).1 (hes e he).1 (hfs f hfmem).1 hxe hef
  · exact hP.trans (hgs x hx).1 (hfs f hfmem).1 (hes e he).1 hxf hfe

end Pairing

end Entries

/-! ### Lists item by item -/

namespace Tokens

section Items

variable {P : Token → Prop} {xs ys zs : List Token}

theorem equal_symm (hP : Token.EquivOn P) (hxs : ∀ x ∈ xs, P x) (hys : ∀ y ∈ ys, P y)
    (h : Tokens.equal xs ys = true) : Tokens.equal ys xs = true := by
  induction xs generalizing ys with
  | nil => cases ys <;> simp_all [Tokens.equal]
  | cons x xs ih =>
    cases ys with
    | nil => simp [Tokens.equal] at h
    | cons y ys =>
      simp only [Tokens.equal, Bool.and_eq_true] at h ⊢
      exact ⟨hP.symm (hxs x List.mem_cons_self) (hys y List.mem_cons_self) h.1,
        ih (fun x hx => hxs x (List.mem_cons_of_mem _ hx))
          (fun y hy => hys y (List.mem_cons_of_mem _ hy)) h.2⟩

theorem equal_trans (hP : Token.EquivOn P) (hxs : ∀ x ∈ xs, P x) (hys : ∀ y ∈ ys, P y)
    (hzs : ∀ z ∈ zs, P z) (h₁ : Tokens.equal xs ys = true) (h₂ : Tokens.equal ys zs = true) :
    Tokens.equal xs zs = true := by
  induction xs generalizing ys zs with
  | nil => cases ys <;> cases zs <;> simp_all [Tokens.equal]
  | cons x xs ih =>
    cases ys with
    | nil => simp [Tokens.equal] at h₁
    | cons y ys =>
      cases zs with
      | nil => simp [Tokens.equal] at h₂
      | cons z zs =>
        simp only [Tokens.equal, Bool.and_eq_true] at h₁ h₂ ⊢
        exact ⟨hP.trans (hxs x List.mem_cons_self) (hys y List.mem_cons_self)
            (hzs z List.mem_cons_self) h₁.1 h₂.1,
          ih (fun x hx => hxs x (List.mem_cons_of_mem _ hx))
            (fun y hy => hys y (List.mem_cons_of_mem _ hy))
            (fun z hz => hzs z (List.mem_cons_of_mem _ hz)) h₁.2 h₂.2⟩

theorem equal_self (h : ∀ x ∈ xs, x.equal x = true) : Tokens.equal xs xs = true := by
  induction xs with
  | nil => rfl
  | cons x xs ih =>
    simp only [Tokens.equal, Bool.and_eq_true]
    exact ⟨h x List.mem_cons_self, ih fun y hy => h y (List.mem_cons_of_mem _ hy)⟩

theorem ordered_eq (H : Fnv) (acc : UInt64) (h : Tokens.equal xs ys = true)
    (hh : ∀ x ∈ xs, ∀ y ∈ ys, x.equal y = true → x.hash H = y.hash H) :
    Token.hash.ordered H acc xs = Token.hash.ordered H acc ys := by
  induction xs generalizing ys acc with
  | nil => cases ys <;> simp_all [Tokens.equal]
  | cons x xs ih =>
    cases ys with
    | nil => simp [Tokens.equal] at h
    | cons y ys =>
      simp only [Tokens.equal, Bool.and_eq_true] at h
      simp only [Token.hash.ordered, hh x List.mem_cons_self y List.mem_cons_self h.1]
      exact ih _ h.2 fun x hx y hy => hh x (List.mem_cons_of_mem _ hx) y (List.mem_cons_of_mem _ hy)

end Items

end Tokens

/-! ### The induction on size -/

namespace Token

/-- The well-keyed tokens smaller than `n`. -/
def Below (n : Nat) (t : Token) : Prop := sizeOf t < n ∧ t.wellKeyed = true

section Below

variable {n : Nat}

theorem below_items {xs : List Token} (h : Below (n + 1) (list xs)) : ∀ x ∈ xs, Below n x := by
  obtain ⟨hsize, hkeyed⟩ := h
  intro x hx
  have := List.sizeOf_lt_of_mem hx
  simp at hsize
  exact ⟨by omega, (wellKeyed_list xs).1 hkeyed x hx⟩

theorem below_entries {es : List (Token × Token)} (h : Below (n + 1) (map es)) :
    Entries.Within (Below n) es ∧ Entries.keysApart es = true := by
  obtain ⟨hsize, hkeyed⟩ := h
  obtain ⟨hes, hapart⟩ := (wellKeyed_map es).1 hkeyed
  refine ⟨fun e he => ⟨⟨?_, (hes e he).1⟩, ⟨?_, (hes e he).2⟩⟩, hapart⟩
  · have := sizeOf_fst_lt he
    simp at hsize; omega
  · have := sizeOf_snd_lt he
    simp at hsize; omega

theorem below_listCap {a b : Token} (h : Below (n + 1) (listCap a b)) : Below n a ∧ Below n b := by
  obtain ⟨hsize, hkeyed⟩ := h
  simp only [wellKeyed, Bool.and_eq_true] at hkeyed
  simp at hsize
  exact ⟨⟨by omega, hkeyed.1⟩, ⟨by omega, hkeyed.2⟩⟩

theorem below_mapCap {a b c : Token} (h : Below (n + 1) (mapCap a b c)) :
    Below n a ∧ Below n b ∧ Below n c := by
  obtain ⟨hsize, hkeyed⟩ := h
  simp only [wellKeyed, Bool.and_eq_true] at hkeyed
  simp at hsize
  exact ⟨⟨by omega, hkeyed.1.1⟩, ⟨by omega, hkeyed.1.2⟩, ⟨by omega, hkeyed.2⟩⟩

/-- Symmetry, one size up. -/
theorem symm_step (ih : EquivOn (Below n)) {x y : Token} (hx : Below (n + 1) x)
    (hy : Below (n + 1) y) (h : x.equal y = true) : y.equal x = true := by
  cases x with
  | num a =>
    obtain ⟨b, rfl, hab⟩ := equal_num_iff.1 h
    exact equal_num_iff.2 ⟨a, rfl, (Number.equal_comm b a).trans hab⟩
  | text s => obtain rfl := equal_text_iff.1 h; exact h
  | bool b => obtain rfl := equal_bool_iff.1 h; exact h
  | sym s => obtain rfl := equal_sym_iff.1 h; exact h
  | var m c => obtain rfl := equal_var_iff.1 h; exact h
  | list xs =>
    obtain ⟨ys, rfl, hxy⟩ := equal_list_iff.1 h
    exact equal_list_iff.2 ⟨xs, rfl, Tokens.equal_symm ih (below_items hx) (below_items hy) hxy⟩
  | map es =>
    obtain ⟨fs, rfl, hlen, hfound⟩ := equal_map_iff.1 h
    obtain ⟨hes, hapart⟩ := below_entries hx
    exact equal_map_iff.2 ⟨es, rfl, hlen.symm,
      Entries.found_symm ih hes (below_entries hy).1 hapart hlen hfound⟩
  | listCap a b =>
    obtain ⟨a', b', rfl, ha, hb⟩ := equal_listCap_iff.1 h
    obtain ⟨hxa, hxb⟩ := below_listCap hx
    obtain ⟨hya, hyb⟩ := below_listCap hy
    exact equal_listCap_iff.2 ⟨a, b, rfl, ih.symm hxa hya ha, ih.symm hxb hyb hb⟩
  | mapCap a b c =>
    obtain ⟨a', b', c', rfl, ha, hb, hc⟩ := equal_mapCap_iff.1 h
    obtain ⟨hxa, hxb, hxc⟩ := below_mapCap hx
    obtain ⟨hya, hyb, hyc⟩ := below_mapCap hy
    exact equal_mapCap_iff.2 ⟨a, b, c, rfl, ih.symm hxa hya ha, ih.symm hxb hyb hb,
      ih.symm hxc hyc hc⟩

/-- Transitivity, one size up. -/
theorem trans_step (ih : EquivOn (Below n)) {x y z : Token} (hx : Below (n + 1) x)
    (hy : Below (n + 1) y) (hz : Below (n + 1) z) (h₁ : x.equal y = true)
    (h₂ : y.equal z = true) : x.equal z = true := by
  cases x with
  | num a =>
    obtain ⟨b, rfl, hab⟩ := equal_num_iff.1 h₁
    obtain ⟨c, rfl, hbc⟩ := equal_num_iff.1 h₂
    exact equal_num_iff.2 ⟨c, rfl, Number.equal_trans hab hbc⟩
  | text s => obtain rfl := equal_text_iff.1 h₁; exact h₂
  | bool b => obtain rfl := equal_bool_iff.1 h₁; exact h₂
  | sym s => obtain rfl := equal_sym_iff.1 h₁; exact h₂
  | var m c => obtain rfl := equal_var_iff.1 h₁; exact h₂
  | list xs =>
    obtain ⟨ys, rfl, hxy⟩ := equal_list_iff.1 h₁
    obtain ⟨zs, rfl, hyz⟩ := equal_list_iff.1 h₂
    exact equal_list_iff.2 ⟨zs, rfl,
      Tokens.equal_trans ih (below_items hx) (below_items hy) (below_items hz) hxy hyz⟩
  | map es =>
    obtain ⟨fs, rfl, hlen₁, hf₁⟩ := equal_map_iff.1 h₁
    obtain ⟨gs, rfl, hlen₂, hf₂⟩ := equal_map_iff.1 h₂
    exact equal_map_iff.2 ⟨gs, rfl, hlen₁.trans hlen₂, Entries.found_trans ih
      (below_entries hx).1 (below_entries hy).1 (below_entries hz).1 hf₁ hf₂⟩
  | listCap a b =>
    obtain ⟨a', b', rfl, ha, hb⟩ := equal_listCap_iff.1 h₁
    obtain ⟨a'', b'', rfl, ha', hb'⟩ := equal_listCap_iff.1 h₂
    obtain ⟨hxa, hxb⟩ := below_listCap hx
    obtain ⟨hya, hyb⟩ := below_listCap hy
    obtain ⟨hza, hzb⟩ := below_listCap hz
    exact equal_listCap_iff.2 ⟨a'', b'', rfl, ih.trans hxa hya hza ha ha',
      ih.trans hxb hyb hzb hb hb'⟩
  | mapCap a b c =>
    obtain ⟨a', b', c', rfl, ha, hb, hc⟩ := equal_mapCap_iff.1 h₁
    obtain ⟨a'', b'', c'', rfl, ha', hb', hc'⟩ := equal_mapCap_iff.1 h₂
    obtain ⟨hxa, hxb, hxc⟩ := below_mapCap hx
    obtain ⟨hya, hyb, hyc⟩ := below_mapCap hy
    obtain ⟨hza, hzb, hzc⟩ := below_mapCap hz
    exact equal_mapCap_iff.2 ⟨a'', b'', c'', rfl, ih.trans hxa hya hza ha ha',
      ih.trans hxb hyb hzb hb hb', ih.trans hxc hyc hzc hc hc'⟩

end Below

theorem equivOn_below : ∀ n, EquivOn (Below n)
  | 0 => ⟨fun hx => absurd hx.1 (Nat.not_lt_zero _), fun hx => absurd hx.1 (Nat.not_lt_zero _)⟩
  | n + 1 => ⟨symm_step (equivOn_below n), trans_step (equivOn_below n)⟩

theorem equivOn_wellKeyed : EquivOn fun t => t.wellKeyed = true where
  symm {x y} hx hy := (equivOn_below (sizeOf x + sizeOf y + 1)).symm ⟨by omega, hx⟩ ⟨by omega, hy⟩
  trans {x y z} hx hy hz := (equivOn_below (sizeOf x + sizeOf y + sizeOf z + 1)).trans
    ⟨by omega, hx⟩ ⟨by omega, hy⟩ ⟨by omega, hz⟩

end Token

/-! ### Hashing and reflexivity -/

namespace Entries

theorem entrySum_eq_sum (H : Fnv) (es : List (Token × Token)) :
    Token.hash.entrySum H es = (es.map fun e => H.ofEntry (e.1.hash H) (e.2.hash H)).sum := by
  induction es with
  | nil => rfl
  | cons e es ih => simp [Token.hash.entrySum, ih]

theorem entrySum_eq (H : Fnv) {es fs : List (Token × Token)}
    (hes : Within (fun t => t.wellKeyed = true) es) (hfs : Within (fun t => t.wellKeyed = true) fs)
    (hapart : keysApart es = true) (hlen : es.length = fs.length) (h : found es fs = true)
    (hhash : ∀ e ∈ es, ∀ y, y.wellKeyed = true →
      (e.1.equal y = true → e.1.hash H = y.hash H) ∧ (e.2.equal y = true → e.2.hash H = y.hash H)) :
    Token.hash.entrySum H es = Token.hash.entrySum H fs := by
  have hP := Token.equivOn_wellKeyed
  obtain ⟨fs', hperm, hfor⟩ := exists_perm_of_covers hP hes hfs hapart hlen (covers_of_found h)
  have hmap : (es.map fun e => H.ofEntry (e.1.hash H) (e.2.hash H)) =
      fs'.map fun e => H.ofEntry (e.1.hash H) (e.2.hash H) := by
    refine map_eq_map_of_forall₂ hfor fun e he f hf ⟨hk, hv⟩ => ?_
    have hf' := hfs f (hperm.mem_iff.2 hf)
    rw [(hhash e he f.1 hf'.1).1 (hP.symm hf'.1 (hes e he).1 hk),
      (hhash e he f.2 hf'.2).2 (hP.symm hf'.2 (hes e he).2 hv)]
  rw [entrySum_eq_sum, entrySum_eq_sum, hmap]
  exact ((hperm.map _).sum_eq).symm

theorem find?_self {es : List (Token × Token)} (hapart : keysApart es = true)
    {e : Token × Token} (he : e ∈ es) (hrefl : e.1.equal e.1 = true) :
    es.find? (fun f => f.1.equal e.1) = some e := by
  induction es with
  | nil => simp at he
  | cons a rest ih =>
    simp only [keysApart, Bool.and_eq_true, List.all_eq_true, Bool.not_eq_eq_eq_not,
      Bool.not_true] at hapart
    rcases List.mem_cons.1 he with rfl | he'
    · simp [hrefl]
    · -- an earlier key is apart from `e`'s
      simp [hapart.1 e he', ih hapart.2 he']

end Entries

namespace Token

/-- Hashing respects equality, whatever the hash primitives. -/
theorem hash_eq_below (H : Fnv) : ∀ n (x y : Token), Below n x → y.wellKeyed = true →
    x.equal y = true → x.hash H = y.hash H
  | 0 => fun _ _ hx => absurd hx.1 (Nat.not_lt_zero _)
  | n + 1 => by
    intro x y hx hy h
    have ih := hash_eq_below H n
    cases x with
    | num a =>
      obtain ⟨b, rfl, hab⟩ := equal_num_iff.1 h
      simp [hash, Number.hashText_eq hab]
    | text s => obtain rfl := equal_text_iff.1 h; rfl
    | bool b => obtain rfl := equal_bool_iff.1 h; rfl
    | sym s => obtain rfl := equal_sym_iff.1 h; rfl
    | var m c => obtain rfl := equal_var_iff.1 h; rfl
    | list xs =>
      obtain ⟨ys, rfl, hxy⟩ := equal_list_iff.1 h
      simp only [hash]
      exact Tokens.ordered_eq H _ hxy fun x hx' y hy' =>
        ih x y (below_items hx x hx') ((wellKeyed_list ys).1 hy y hy')
    | map es =>
      obtain ⟨fs, rfl, hlen, hfound⟩ := equal_map_iff.1 h
      obtain ⟨hes, hapart⟩ := below_entries hx
      simp only [hash, hlen]
      congr 1
      refine Entries.entrySum_eq H (fun e he => ⟨(hes e he).1.2, (hes e he).2.2⟩)
        ((wellKeyed_map fs).1 hy).1 hapart hlen hfound fun e he y hy' => ⟨?_, ?_⟩
      · exact ih e.1 y (hes e he).1 hy'
      · exact ih e.2 y (hes e he).2 hy'
    | listCap a b =>
      obtain ⟨a', b', rfl, ha, hb⟩ := equal_listCap_iff.1 h
      obtain ⟨hxa, hxb⟩ := below_listCap hx
      simp only [wellKeyed, Bool.and_eq_true] at hy
      simp only [hash, ih a a' hxa hy.1 ha, ih b b' hxb hy.2 hb]
    | mapCap a b c =>
      obtain ⟨a', b', c', rfl, ha, hb, hc⟩ := equal_mapCap_iff.1 h
      obtain ⟨hxa, hxb, hxc⟩ := below_mapCap hx
      simp only [wellKeyed, Bool.and_eq_true] at hy
      simp only [hash, ih a a' hxa hy.1.1 ha, ih b b' hxb hy.1.2 hb, ih c c' hxc hy.2 hc]

theorem hash_eq_of_equal (H : Fnv) {x y : Token} (hx : x.wellKeyed = true)
    (hy : y.wellKeyed = true) (h : x.equal y = true) : x.hash H = y.hash H :=
  hash_eq_below H (sizeOf x + 1) x y ⟨by omega, hx⟩ hy h

/-- A well-keyed token without a NaN equals itself. -/
theorem equal_self_below : ∀ n (x : Token), Below n x → x.hasNaN = false → x.equal x = true
  | 0 => fun _ hx => absurd hx.1 (Nat.not_lt_zero _)
  | n + 1 => by
    intro x hx hnan
    have ih := equal_self_below n
    cases x with
    | num a => exact equal_num_iff.2 ⟨a, rfl, Number.equal_self hnan⟩
    | text s => exact equal_text_iff.2 rfl
    | bool b => exact equal_bool_iff.2 rfl
    | sym s => exact equal_sym_iff.2 rfl
    | var m c => exact equal_var_iff.2 rfl
    | list xs =>
      refine equal_list_iff.2 ⟨xs, rfl, Tokens.equal_self fun x hx' => ?_⟩
      exact ih x (below_items hx x hx') ((hasNaN_list xs).1 hnan x hx')
    | map es =>
      obtain ⟨hes, hapart⟩ := below_entries hx
      have hnan' := (hasNaN_map es).1 hnan
      refine equal_map_iff.2 ⟨es, rfl, rfl, Entries.found_iff.2 fun e he => ⟨e, ?_, ?_⟩⟩
      · exact Entries.find?_self hapart he (ih e.1 (hes e he).1 (hnan' e he).1)
      · exact ih e.2 (hes e he).2 (hnan' e he).2
    | listCap a b =>
      obtain ⟨hxa, hxb⟩ := below_listCap hx
      simp only [hasNaN, Bool.or_eq_false_iff] at hnan
      exact equal_listCap_iff.2 ⟨a, b, rfl, ih a hxa hnan.1, ih b hxb hnan.2⟩
    | mapCap a b c =>
      obtain ⟨hxa, hxb, hxc⟩ := below_mapCap hx
      simp only [hasNaN, Bool.or_eq_false_iff] at hnan
      exact equal_mapCap_iff.2 ⟨a, b, c, rfl, ih a hxa hnan.1.1, ih b hxb hnan.1.2, ih c hxc hnan.2⟩

/-- On well-keyed tokens, equality is
symmetric and transitive, every token without a NaN equals itself, and equal tokens hash
alike, whatever the primitives of the hash. -/
theorem equal_comm_trans_refl_hash (H : Fnv) {a b c : Token} (ha : a.wellKeyed = true)
    (hb : b.wellKeyed = true) (hc : c.wellKeyed = true) :
    a.equal b = b.equal a ∧ (a.equal b = true → b.equal c = true → a.equal c = true) ∧
      (a.hasNaN = false → a.equal a = true) ∧ (a.equal b = true → a.hash H = b.hash H) :=
  ⟨Bool.eq_iff_iff.2 ⟨equivOn_wellKeyed.symm ha hb, equivOn_wellKeyed.symm hb ha⟩,
    equivOn_wellKeyed.trans ha hb hc,
    fun hnan => equal_self_below (sizeOf a + 1) a ⟨by omega, ha⟩ hnan,
    hash_eq_of_equal H ha hb⟩

/-- FNV-1a over bytes: the 64-bit offset basis, then each byte mixed in and multiplied by the
64-bit prime; a word is added as its eight bytes from the most significant, a text as its UTF-8
bytes. -/
def fnv1a : Fnv where
  init := 14695981039346656037
  addWord h w := (List.range 8).foldl
    (fun h i => (h ^^^ ((w >>> (56 - 8 * i.toUInt64)) &&& 0xFF)) * 1099511628211) h
  addText h s := s.toUTF8.foldl (fun h b => (h ^^^ b.toUInt64) * 1099511628211) h

/-- Two maps with their entries in the other order are equal both ways and hash alike. -/
theorem equal_comm_trans_refl_hash_reordered :
    ((map [(text "a", bool true), (text "b", bool false)]).wellKeyed = true ∧
      (map [(text "b", bool false), (text "a", bool true)]).wellKeyed = true) ∧
    ((map [(text "a", bool true), (text "b", bool false)]).equal
        (map [(text "b", bool false), (text "a", bool true)]) =
      (map [(text "b", bool false), (text "a", bool true)]).equal
        (map [(text "a", bool true), (text "b", bool false)]) ∧
    ((map [(text "a", bool true), (text "b", bool false)]).equal
        (map [(text "b", bool false), (text "a", bool true)]) = true →
      (map [(text "b", bool false), (text "a", bool true)]).equal
        (map [(text "a", bool true), (text "b", bool false)]) = true →
      (map [(text "a", bool true), (text "b", bool false)]).equal
        (map [(text "a", bool true), (text "b", bool false)]) = true) ∧
    ((map [(text "a", bool true), (text "b", bool false)]).hasNaN = false →
      (map [(text "a", bool true), (text "b", bool false)]).equal
        (map [(text "a", bool true), (text "b", bool false)]) = true) ∧
    ((map [(text "a", bool true), (text "b", bool false)]).equal
        (map [(text "b", bool false), (text "a", bool true)]) = true →
      (map [(text "a", bool true), (text "b", bool false)]).hash fnv1a =
        (map [(text "b", bool false), (text "a", bool true)]).hash fnv1a)) := by
  have ha : (map [(text "a", bool true), (text "b", bool false)]).wellKeyed = true := by
    simp [wellKeyed, wellKeyed.allEntries, Entries.keysApart, equal]
  have hb : (map [(text "b", bool false), (text "a", bool true)]).wellKeyed = true := by
    simp [wellKeyed, wellKeyed.allEntries, Entries.keysApart, equal]
  exact ⟨⟨ha, hb⟩, equal_comm_trans_refl_hash fnv1a ha hb ha⟩

end Token

/-! ### Maps as the program builds them -/

namespace Entries

theorem keysApart_iff_keys {es : List (Token × Token)} :
    keysApart es = true ↔ (es.map Prod.fst).Pairwise fun a b => a.equal b = false := by
  rw [keysApart_iff, List.pairwise_map]

theorem map_fst_modify (es : List (Token × Token)) (i : Nat) (v : Token) :
    (es.modify i fun old => (old.1, v)).map Prod.fst = es.map Prod.fst := by
  induction es generalizing i with
  | nil => simp
  | cons e es ih => cases i <;> simp [ih]

theorem keysApart_insert {es : List (Token × Token)} (h : keysApart es = true)
    (e : Token × Token) : keysApart (insert es e) = true := by
  unfold insert
  cases hfind : findKey? es e.1 with
  | some i =>
    simp only
    rw [keysApart_iff_keys, map_fst_modify]
    exact keysApart_iff_keys.1 h
  | none =>
    simp only
    rw [keysApart_iff, List.pairwise_append]
    refine ⟨keysApart_iff.1 h, by simp, fun a ha b hb => ?_⟩
    rw [List.mem_singleton.1 hb]
    simpa [findKey?, List.findIdx?_eq_none_iff] using
      (List.findIdx?_eq_none_iff.1 hfind) a ha

theorem keysApart_foldl_insert (es : List (Token × Token)) {acc : List (Token × Token)}
    (h : keysApart acc = true) : keysApart (es.foldl insert acc) = true := by
  induction es generalizing acc with
  | nil => exact h
  | cons e es ih => exact ih (keysApart_insert h e)

/-- Every map built from entries has no key equal to a later one. -/
theorem build_keysApart (es : List (Token × Token)) : keysApart (build es) = true :=
  keysApart_foldl_insert es rfl

/-- A map only compares
a key with the keys of its hash; among well-keyed keys, an equal key has the same hash. -/
theorem get?_eq_indexed (H : Fnv) {es : List (Token × Token)} {key : Token}
    (hes : ∀ e ∈ es, e.1.wellKeyed = true) (hkey : key.wellKeyed = true) :
    get? es key = (es.find? fun e => e.1.hash H == key.hash H && e.1.equal key).map (·.2) := by
  unfold get?
  congr 1
  refine List.find?_congr fun e he => ?_
  cases h : e.1.equal key with
  | false => simp
  | true => simp [Token.hash_eq_of_equal H (hes e he) hkey h]

end Entries

end Reckon

import Reckon.Proofs.Pattern.Instantiate
import Reckon.Proofs.Pattern.Rebuild
import Reckon.Proofs.Brackets.Compile

/-!
# Compiled rules substitute bound placeholders only

A compiled rule rewrites into its replacement with the bindings of the first match substituted,
and the result is reduced on its own. The replacement names placeholders of the template only: a
placeholder word of the replacement that the pattern does not bind is refused when the rule is
compiled. Every way the template matches, whatever the workspace, binds every placeholder of the
template, and to a value, since every variable the compiler writes has category `any`. So the
body a compiled rule enters holds no placeholder on top (`Rule.compile_binds_body`).

Matching keeps one promise on every path (`Pattern.Bound`): the bindings only grow, and every
variable of the patterns matched is bound to a token its category accepts. The one way a pattern
could match without binding is a map pattern holding a placeholder, which is compared by
equality; the reader writes a map pattern as a literal map only when nothing in it is a
placeholder (`Compiler.finishMap`), so no map of a template holds one (`Token.plainMaps`).

Both facts of a template are facts of every token the reader builds, given its parts have them.
The reader's invariant is stated once for any such property (`Compiler.Reading.Holds`).
-/

namespace Reckon

namespace Token

/-- Whether every map in the token, at any depth, holds no placeholder. A map of a template is
compared by equality, so a placeholder in it would bind nothing. -/
def plainMaps : Token → Bool
  | .list xs => items xs
  | .map es => !(map es).hasPlaceholder
  | .listCap h t => plainMaps h && plainMaps t
  | .mapCap k v r => plainMaps k && plainMaps v && plainMaps r
  | _ => true
where
  /-- Whether every map in the items holds no placeholder. -/
  items : List Token → Bool
    | [] => true
    | x :: xs => plainMaps x && items xs

theorem plainMaps_list (xs : List Token) :
    (list xs).plainMaps = true ↔ ∀ x ∈ xs, x.plainMaps = true := by
  simp only [plainMaps]
  induction xs with
  | nil => simp [plainMaps.items]
  | cons x xs ih => simp [plainMaps.items, ih]

theorem plainMaps_of_hasPlaceholder {t : Token} (h : t.hasPlaceholder = false) :
    t.plainMaps = true := by
  revert h
  apply Compiler.varNames.induct (fun t => t.hasPlaceholder = false → t.plainMaps = true)
    (fun _ => True) (fun xs => (list xs).hasPlaceholder = false → (list xs).plainMaps = true)
  case case4 => exact fun _ ih => ih
  case case5 => exact fun es _ h => by simp [plainMaps, h]
  case case6 =>
    intro t hvar hlc hmc hlist hmap _
    cases t with
    | var => exact absurd rfl (hvar _ _)
    | listCap => exact absurd rfl (hlc _ _)
    | mapCap => exact absurd rfl (hmc _ _ _)
    | list => exact absurd rfl (hlist _)
    | map => exact absurd rfl (hmap _)
    | num | text | bool | sym => rfl
  -- an item without placeholders, and the items after it
  case case8 =>
    intro x xs ihx ihxs h
    simp only [hasPlaceholder, hasPlaceholder.anyItem, Bool.or_eq_false_iff] at h
    simp only [plainMaps, plainMaps.items, ihx h.1]
    exact ihxs (by simpa [hasPlaceholder] using h.2)
  all_goals intros; simp_all [hasPlaceholder, plainMaps, plainMaps.items]

/-- Whether every variable in the token, at any depth, has category `any`. -/
def AnyVars (t : Token) : Prop := ∀ q ∈ t.vars, q.2 = .any

theorem hasPlaceholder_of_isAtom {t : Token} (h : t.isAtom = true) : t.hasPlaceholder = false := by
  cases t <;> simp_all [isAtom, hasPlaceholder]

theorem isPlaceholder_of_isAtom {t : Token} (h : t.isAtom = true) : t.isPlaceholder = false := by
  cases t <;> simp_all [isAtom, isPlaceholder, kind]

theorem isPlaceholder_of_isValue {t : Token} (h : t.isValue = true) : t.isPlaceholder = false := by
  cases t <;> simp_all [isValue, isPlaceholder, kind]

end Token

namespace Compiler

/-! ### The reader's invariant, for any property of template tokens -/

/-- A property of template tokens that every token the reader builds has when its parts have it:
an atom, a variable of category `any`, a list of items, a list capture, the map pattern of
entries and a rest, and the empty map. -/
structure Keeps (P : Token → Prop) : Prop where
  atom : ∀ t, t.isAtom = true → P t
  var : ∀ s, P (.var s .any)
  list : ∀ xs, (∀ x ∈ xs, P x) → P (.list xs)
  listCap : ∀ h t, P h → P t → P (.listCap h t)
  finishMap : ∀ es rest, (∀ e ∈ es, P e.1 ∧ P e.2) → P rest → P (finishMap es rest)
  emptyMap : P (.map [])

/-- A list pattern still open keeps its tail once read. -/
def ListPhase.Holds (P : Token → Prop) : ListPhase → Prop
  | .afterTail t => P t
  | _ => True

/-- A map pattern still open keeps a key read, or its rest once read. -/
def MapPhase.Holds (P : Token → Prop) : MapPhase → Prop
  | .afterKey k | .value k | .afterRest k => P k
  | _ => True

/-- What an open bracket holds has the property: its items or entries, and what its phase keeps. -/
def Frame.Holds (P : Token → Prop) : Frame → Prop
  | .list items phase => (∀ x ∈ items, P x) ∧ phase.Holds P
  | .map es phase => (∀ e ∈ es, P e.1 ∧ P e.2) ∧ phase.Holds P

/-- The invariant of reading a pattern of atoms: every template token so far, and everything an
open bracket holds, has the property. -/
structure Reading.Holds (P : Token → Prop) (r : Reading) : Prop where
  out : ∀ t ∈ r.out, P t
  stack : ∀ f ∈ r.stack, f.Holds P

section Holds

variable {P : Token → Prop}

theorem Keeps.placeholder (hP : Keeps P) {t : Token} (ht : t.isAtom = true) :
    P (placeholder t) := by
  unfold Compiler.placeholder
  split
  · split
    · exact hP.var _
    · exact hP.atom _ ht
  · exact hP.atom _ ht

theorem Keeps.foldr_listCap (hP : Keeps P) {items : List Token} (hitems : ∀ x ∈ items, P x)
    {tail : Token} (htail : P tail) : P (items.foldr (fun h acc => .listCap h acc) tail) := by
  induction items with
  | nil => exact htail
  | cons x items ih =>
    exact hP.listCap _ _ (hitems x List.mem_cons_self)
      (ih fun y hy => hitems y (List.mem_cons_of_mem _ hy))

theorem Reading.Holds.emit {r : Reading} (hr : r.Holds P) {i : Token} (hi : P i) (n : Nat) :
    ({ out := r.out ++ [i], parens := n, stack := r.stack } : Reading).Holds P :=
  ⟨List.forall_mem_append.2 ⟨hr.out, List.forall_mem_singleton.2 hi⟩, hr.stack⟩

theorem Reading.Holds.push {r : Reading} (hr : r.Holds P) {f : Frame} (hf : f.Holds P)
    {fs : List Frame} (hfs : ∀ g ∈ fs, g.Holds P) :
    ({ r with stack := f :: fs } : Reading).Holds P :=
  ⟨hr.out, List.forall_mem_cons.2 ⟨hf, hfs⟩⟩

theorem deliver_holds {i : Token} {r r' : Reading} (hr : r.Holds P) (hi : P i)
    (h : deliver i r = .ok r') : r'.Holds P := by
  unfold deliver at h
  split at h
  · cases h
    exact hr.emit hi _
  · rename_i f fs hst
    have hstack := hr.stack
    rw [hst] at hstack
    obtain ⟨hf, hfs⟩ := List.forall_mem_cons.1 hstack
    -- the item joins the items or the entries, becomes a key, a tail or a rest, or is dropped
    split at h <;> (try split at h) <;> first
      | (cases h
         refine hr.push ?_ hfs
         exact ⟨List.forall_mem_append.2 ⟨hf.1, List.forall_mem_singleton.2 hi⟩, trivial⟩)
      | (cases h; refine hr.push ?_ hfs; exact ⟨hf.1, hi⟩)
      | (cases h
         refine hr.push ?_ hfs
         exact ⟨List.forall_mem_append.2 ⟨hf.1, List.forall_mem_singleton.2 ⟨hf.2, hi⟩⟩, trivial⟩)
      | (cases h; exact hr)
      | (simp only [reduceCtorEq] at h)

theorem openItem_holds (hP : Keeps P) {t : Token} {r r' : Reading} (hr : r.Holds P)
    (ht : t.isAtom = true) (h : openItem t r = .ok r') : r'.Holds P := by
  unfold openItem at h
  split at h
  · cases h
    refine hr.push ?_ hr.stack
    exact ⟨by simp, trivial⟩
  · split at h
    · cases h
      refine hr.push ?_ hr.stack
      exact ⟨by simp, trivial⟩
    · dsimp only at h
      split at h
      · exact deliver_holds hr (hP.placeholder ht) h
      · simp at h

/-- Reading one atom keeps the invariant. -/
theorem step_holds (hP : Keeps P) {r r' : Reading} {t : Token} (hr : r.Holds P)
    (ht : t.isAtom = true) (h : step r t = .ok r') : r'.Holds P := by
  unfold step at h
  split at h
  · -- outside brackets a bracket opens, and any other token joins the template as read
    split at h
    · exact openItem_holds hP hr ht h
    repeat' split at h
    all_goals first
      | (cases h; exact hr.emit (hP.atom t ht) _)
      | (cases h; exact hr.emit (hP.placeholder ht) _)
      | (simp only [reduceCtorEq] at h)
  · rename_i f fs hst
    have hstack := hr.stack
    rw [hst] at hstack
    obtain ⟨hf, hfs⟩ := List.forall_mem_cons.1 hstack
    have hclosed : ({ r with stack := fs } : Reading).Holds P := ⟨hr.out, hfs⟩
    have hnil : P (.list []) := hP.list [] (by simp)
    -- a closing bracket hands over what the frame built; anything else opens an item or
    -- moves the frame on
    split at h <;> (repeat' split at h) <;> first
      | exact deliver_holds hclosed hnil h
      | exact deliver_holds hclosed hP.emptyMap h
      | exact openItem_holds hP hr ht h
      | exact deliver_holds hclosed (hP.list _ hf.1) h
      | exact deliver_holds hclosed (hP.foldr_listCap hf.1 hf.2) h
      | exact deliver_holds hclosed (hP.finishMap _ _ hf.1 hP.emptyMap) h
      | exact deliver_holds hclosed (hP.finishMap _ _ hf.1 hf.2) h
      | (cases h; refine hr.push ?_ hfs; exact ⟨hf.1, trivial⟩)
      | (cases h; refine hr.push ?_ hfs; exact ⟨hf.1, hf.2⟩)
      | (simp only [reduceCtorEq] at h)

/-- Reading a pattern of atoms keeps the invariant. -/
theorem foldlM_step_holds (hP : Keeps P) (pat : List Token) (hpat : ∀ t ∈ pat, t.isAtom = true)
    {r r' : Reading} (hr : r.Holds P) (h : pat.foldlM step r = .ok r') : r'.Holds P := by
  induction pat generalizing r with
  | nil =>
    cases h
    exact hr
  | cons t pat ih =>
    rw [List.foldlM_cons] at h
    cases hstep : step r t with
    | error e => simp only [hstep, bind, Except.bind, reduceCtorEq] at h
    | ok r₁ =>
      rw [hstep] at h
      exact ih (fun u hu => hpat u (List.mem_cons_of_mem _ hu))
        (step_holds hP hr (hpat t List.mem_cons_self) hstep) h

theorem template_holds (hP : Keeps P) {pat tmpl : List Token} (hpat : ∀ t ∈ pat, t.isAtom = true)
    (h : template pat = .ok tmpl) : ∀ p ∈ tmpl, P p := by
  unfold template at h
  cases hfold : pat.foldlM step ⟨[], 0, []⟩ with
  | error e => simp only [hfold, bind, Except.bind, reduceCtorEq] at h
  | ok r =>
    have hr := foldlM_step_holds hP pat hpat ⟨by simp, by simp⟩ hfold
    rw [hfold] at h
    simp only [bind, Except.bind] at h
    split at h
    · simp at h
    · split at h
      · cases h
        exact hr.out
      · simp at h

end Holds

/-! ### Two properties the reader keeps -/

theorem finishMap_of {P : Token → Prop} (hlit : ∀ t, t.hasPlaceholder = false → P t)
    (hcap : ∀ k v r, P k → P v → P r → P (.mapCap k v r)) {es : List (Token × Token)}
    (hes : ∀ e ∈ es, P e.1 ∧ P e.2) {rest : Token} (hrest : P rest) : P (finishMap es rest) := by
  rcases finishMap_cases es rest with hph | h
  · exact hlit _ hph
  · rw [h]
    clear h
    induction es with
    | nil => exact hrest
    | cons e es ih =>
      obtain ⟨k, v⟩ := e
      exact hcap _ _ _ (hes _ List.mem_cons_self).1 (hes _ List.mem_cons_self).2
        (ih fun f hf => hes f (List.mem_cons_of_mem _ hf))

theorem keeps_plainMaps : Keeps fun t => t.plainMaps = true where
  atom _ ht := Token.plainMaps_of_hasPlaceholder (Token.hasPlaceholder_of_isAtom ht)
  var _ := rfl
  list xs h := (Token.plainMaps_list xs).2 h
  listCap h t hh ht := by simp [Token.plainMaps, hh, ht]
  finishMap _ _ hes hrest := finishMap_of (P := fun t => t.plainMaps = true)
    (fun _ hph => Token.plainMaps_of_hasPlaceholder hph)
    (fun k v r hk hv hr => by simp [Token.plainMaps, hk, hv, hr]) hes hrest
  emptyMap := rfl

theorem keeps_anyVars : Keeps Token.AnyVars where
  atom t ht := by simp [Token.AnyVars, Token.vars_eq_nil (Token.hasPlaceholder_of_isAtom ht)]
  var _ := by simp [Token.AnyVars, Token.vars]
  list xs h := by
    intro q hq
    obtain ⟨x, hx, hq⟩ := Token.mem_vars_items.1 hq
    exact h x hx q hq
  listCap h t hh ht := by
    intro q hq
    rcases List.mem_append.1 hq with hq | hq
    exacts [hh q hq, ht q hq]
  finishMap _ _ hes hrest := by
    refine finishMap_of (fun _ hph => by simp [Token.AnyVars, Token.vars_eq_nil hph]) ?_ hes hrest
    intro k v r hk hv hr q hq
    simp only [Token.vars, List.mem_append] at hq
    rcases hq with (hq | hq) | hq
    exacts [hk q hq, hv q hq, hr q hq]
  emptyMap := by simp [Token.AnyVars, Token.vars, Token.vars.entries]

/-! ### The replacement -/

theorem replacement_bound {bound : List String} {repl body : List Token} {aw : List String}
    (h : replacement bound repl aw = .ok body) (hrepl : ∀ t ∈ repl, t.isAtom = true) :
    ∀ u ∈ body, u.isAtom = true ∨ ∃ s ∈ bound, u = .var s .any := by
  induction repl generalizing aw body with
  | nil =>
    cases aw with
    | nil =>
      cases h
      simp
    | cons => simp [replacement] at h
  | cons t ts ih =>
    have hts : ∀ u ∈ ts, u.isAtom = true := fun u hu => hrepl u (List.mem_cons_of_mem _ hu)
    -- the head goes through as it is, or as a variable the pattern names
    have hhead : ∀ {u aw'}, (u.isAtom = true ∨ ∃ s ∈ bound, u = .var s .any) →
        (u :: ·) <$> replacement bound ts aw' = .ok body →
        ∀ u ∈ body, u.isAtom = true ∨ ∃ s ∈ bound, u = .var s .any := by
      intro u aw' hu hmap
      obtain ⟨body', hbody', rfl⟩ := eq_ok_of_map_cons hmap
      exact List.forall_mem_cons.2 ⟨hu, ih hbody' hts⟩
    have ht : t.isAtom = true ∨ ∃ s ∈ bound, t = .var s .any := .inl (hrepl t List.mem_cons_self)
    unfold replacement at h
    split at h
    · split at h
      · split at h
        · rename_i s _ hs
          exact hhead (.inr ⟨s, by simpa using hs, rfl⟩) h
        · simp at h
      · repeat' split at h
        all_goals first
          | exact hhead ht h
          | (simp only [reduceCtorEq] at h)
    · exact hhead ht h

end Compiler

/-! ### Matching binds every variable -/

namespace Pattern

/-- What every way of matching promises, whatever the tokens matched: the bindings only grow,
and every variable of the patterns is bound to a token its category accepts. -/
structure Bound (binds b : Bindings) (pairs : List (Token × Token)) : Prop where
  added : ∃ more, b = binds ++ more
  accepts : ∀ p ∈ pairs, ∀ q ∈ p.1.vars, ∃ t, b.lookup q.1 = some t ∧ Token.accepts q.2 t = true

namespace Bound

variable {binds b b₁ : Bindings} {pairs qs : List (Token × Token)}

theorem nil : Bound binds binds [] := ⟨⟨[], by simp⟩, by simp⟩

theorem append (h₁ : Bound binds b₁ pairs) (h₂ : Bound b₁ b qs) : Bound binds b (pairs ++ qs) := by
  obtain ⟨m₁, rfl⟩ := h₁.added
  obtain ⟨m₂, rfl⟩ := h₂.added
  refine ⟨⟨m₁ ++ m₂, by simp⟩, fun p hp q hq => ?_⟩
  rcases List.mem_append.1 hp with hp | hp
  · obtain ⟨t, ht, hacc⟩ := h₁.accepts p hp q hq
    exact ⟨t, by rw [List.lookup_append, ht]; rfl, hacc⟩
  · exact h₂.accepts p hp q hq

theorem var_new {name : String} {cat : Kind} {val : Token} (hacc : Token.accepts cat val = true)
    (hnone : binds.lookup name = none) :
    Bound binds (binds ++ [(name, val)]) [(.var name cat, val)] := by
  refine ⟨⟨_, rfl⟩, fun p hp q hq => ?_⟩
  rw [List.mem_singleton.1 hp] at hq
  rw [List.mem_singleton.1 hq]
  exact ⟨val, by rw [List.lookup_append, hnone]; simp, hacc⟩

theorem var_bound {name : String} {cat : Kind} {val prev : Token}
    (hacc : Token.accepts cat val = true) (hprev : binds.lookup name = some prev)
    (heq : prev.equal val = true) : Bound binds binds [(.var name cat, val)] :=
  ⟨⟨[], by simp⟩, by simp [Token.vars, hprev, Token.accepts_eq_of_equal heq, hacc]⟩

theorem literal {pat val : Token} (hph : pat.hasPlaceholder = false) :
    Bound binds binds [(pat, val)] :=
  ⟨⟨[], by simp⟩, by simp [Token.vars_eq_nil hph]⟩

theorem of_parts {pat val : Token} (hm : Bound binds b pairs)
    (hvars : ∀ q ∈ pat.vars, ∃ p ∈ pairs, q ∈ p.1.vars) : Bound binds b [(pat, val)] := by
  refine ⟨hm.added, fun p hp q hq => ?_⟩
  rw [List.mem_singleton.1 hp] at hq
  obtain ⟨p', hp', hq'⟩ := hvars q hq
  exact hm.accepts p' hp' q hq'

end Bound

/-- Each way patterns whose maps hold no placeholder match
any tokens satisfies `Bound`. The induction follows the matcher, a list pattern handing its
items to `matchAll`. -/
theorem bound_of_mem :
    (∀ pat val binds, pat.plainMaps = true →
      ∀ b ∈ matchOne pat val binds, Bound binds b [(pat, val)]) ∧
    (∀ pairs binds, (∀ p ∈ pairs, p.1.plainMaps = true) →
      ∀ b ∈ matchAll pairs binds, Bound binds b pairs) := by
  apply matchOne.mutual_induct
    (fun pat val binds => pat.plainMaps = true →
      ∀ b ∈ matchOne pat val binds, Bound binds b [(pat, val)])
    (fun pairs binds => (∀ p ∈ pairs, p.1.plainMaps = true) →
      ∀ b ∈ matchAll pairs binds, Bound binds b pairs)
  -- a variable
  case case2 =>
    intro val binds name cat hacc prev hprev heq _ b hb
    rw [matchOne_var, if_neg hacc, hprev] at hb
    simp only [heq, if_true, List.mem_singleton] at hb
    subst hb
    exact Bound.var_bound (by simpa using hacc) hprev heq
  case case4 =>
    intro val binds name cat hacc hnone _ b hb
    rw [matchOne_var, if_neg hacc, hnone] at hb
    simp only [List.mem_singleton] at hb
    subst hb
    exact Bound.var_new (by simpa using hacc) hnone
  -- a list capture: the head against the first item, the tail against the others
  case case5 =>
    intro binds h t x xs iht ihh hp b hb
    simp only [Token.plainMaps, Bool.and_eq_true] at hp
    rw [matchOne_listCap] at hb
    obtain ⟨b₁, hb₁, hb⟩ := List.mem_flatMap.1 hb
    refine ((ihh hp.1 b₁ hb₁).append (iht b₁ hp.2 b hb)).of_parts fun q hq => ?_
    simpa [Token.vars] using hq
  -- a map capture: the key and value against one entry, the rest against the others
  case case7 =>
    intro binds k v r es ihr ihv ihk hp b hb
    simp only [Token.plainMaps, Bool.and_eq_true] at hp
    rw [matchOne_mapCap] at hb
    obtain ⟨p, -, hb⟩ := List.mem_flatMap.1 hb
    obtain ⟨b₂, hb₂, hb⟩ := List.mem_flatMap.1 hb
    obtain ⟨b₁, hb₁, hb₂⟩ := List.mem_flatMap.1 hb₂
    have hm := ((ihk p hp.1.1 b₁ hb₁).append (ihv p b₁ hp.1.2 b₂ hb₂)).append (ihr p b₂ hp.2 b hb)
    refine hm.of_parts fun q hq => ?_
    simpa [Token.vars, or_assoc] using hq
  -- a list without placeholders, or a token that is no placeholder, binds nothing
  case case9 =>
    intro val binds ps hlit heq _ b hb
    rw [matchOne_list, if_pos hlit, if_pos heq, List.mem_singleton] at hb
    subst hb
    exact Bound.literal (by simpa using hlit)
  case case14 =>
    intro pat val binds heq hvar hlc hmc hlist hp b hb
    rw [matchOne_of_literal hvar hlc hmc hlist, if_pos heq, List.mem_singleton] at hb
    subst hb
    -- a map of the pattern holds no placeholder, and no other such token does
    have hph : pat.hasPlaceholder = false := by
      cases pat with
      | var => exact absurd rfl (hvar _ _)
      | listCap => exact absurd rfl (hlc _ _)
      | mapCap => exact absurd rfl (hmc _ _ _)
      | list => exact absurd rfl (hlist _)
      | map es => simpa [Token.plainMaps] using hp
      | num | text | bool | sym => rfl
    exact Bound.literal hph
  -- a list pattern: its items against the items of a list as long
  case case11 =>
    intro binds ps hph xs hlen ih hp b hb
    rw [matchOne_list, if_neg hph] at hb
    simp only [hlen, if_true] at hb
    have hfst : (ps.zip xs).map Prod.fst = ps := List.map_fst_zip (by simp at hlen; omega)
    refine (ih (fun p hp' => (Token.plainMaps_list ps).1 hp _ (List.of_mem_zip hp').1) b hb).of_parts
      fun q hq => ?_
    obtain ⟨pat, hpat, hq⟩ := Token.mem_vars_items.1 hq
    rw [← hfst] at hpat
    obtain ⟨pair, hpair, rfl⟩ := List.mem_map.1 hpat
    exact ⟨pair, hpair, hq⟩
  -- pairs one after the other
  case case16 =>
    intro binds _ b hb
    rw [matchAll_nil, List.mem_singleton] at hb
    subst hb
    exact Bound.nil
  case case17 =>
    intro binds pat val rest ihrest ih hpairs b hb
    rw [matchAll_cons] at hb
    obtain ⟨b₁, hb₁, hb⟩ := List.mem_flatMap.1 hb
    exact (ih (hpairs _ List.mem_cons_self) b₁ hb₁).append
      (ihrest b₁ (fun q hq => hpairs q (List.mem_cons_of_mem _ hq)) b hb)
  -- every other case answers nothing
  case case1 =>
    intro val binds name cat hrej _ b hb
    simp [matchOne_var, hrej] at hb
  case case3 =>
    intro val binds name cat hacc prev hprev hne _ b hb
    simp [matchOne_var, hacc, hprev, hne] at hb
  case case6 =>
    intro val binds h t hnot _ b hb
    simp [matchOne_listCap_of hnot] at hb
  case case8 =>
    intro val binds k v r hnot _ b hb
    cases val with
    | map es => exact absurd rfl (hnot es)
    | _ => simp [matchOne] at hb
  case case10 =>
    intro val binds ps hlit hne _ b hb
    simp [matchOne_list, hlit, hne] at hb
  case case12 =>
    intro binds ps hph xs hlen _ b hb
    simp [matchOne_list, hph, hlen] at hb
  case case13 =>
    intro val binds ps hph hnot _ b hb
    cases val with
    | list xs => exact absurd rfl (hnot xs)
    | _ => simp [matchOne_list, hph] at hb
  case case15 =>
    intro pat val binds hne hvar hlc hmc hlist _ b hb
    simp [matchOne_of_literal hvar hlc hmc hlist, hne] at hb

end Pattern

namespace Template

/-- Whatever the workspace, the first match of a template
whose maps hold no placeholder binds every variable of the template to a token its category
accepts. -/
theorem firstMatch_bound {tmpl ws : List Token} {pos : Int} {b : Bindings}
    (htmpl : ∀ t ∈ tmpl, t.plainMaps = true) (h : firstMatch tmpl ws pos = some b) :
    ∀ t ∈ tmpl, ∀ q ∈ t.vars, ∃ v, b.lookup q.1 = some v ∧ Token.accepts q.2 v = true := by
  rw [firstMatch_eq_head, allMatches] at h
  split at h
  · simp at h
  rename_i hfit
  have hlen : tmpl.length ≤ (ws.drop pos.toNat).length := by
    simp only [Bool.or_eq_true, decide_eq_true_eq, not_or, not_lt] at hfit
    simp only [List.length_drop]
    omega
  have hm := Pattern.bound_of_mem.2 _ [] (fun p hp => htmpl _ (List.of_mem_zip hp).1) b
    (List.mem_of_mem_head? h)
  -- the pairs of the match are the template against the tokens it covers
  have hfst : (tmpl.zip (ws.drop pos.toNat)).map Prod.fst = tmpl := List.map_fst_zip hlen
  intro t ht q hq
  rw [← hfst] at ht
  obtain ⟨p, hp, rfl⟩ := List.mem_map.1 ht
  exact hm.accepts p hp q hq

end Template

namespace Rule

theorem compile_eq_ok {pat repl : List Token} {r : Rule} (h : compile pat repl = .ok r) :
    ∃ tmpl body, Compiler.template pat = .ok tmpl ∧
      Compiler.replacement (Compiler.varNamesItems tmpl) repl [] = .ok body ∧
      r = ⟨Tokens.render pat ++ " = " ++ Tokens.render repl, tmpl, [], .rewrite body⟩ := by
  unfold compile at h
  split at h
  · simp at h
  split at h
  · simp at h
  split at h
  · simp at h
  · rename_i tmpl htmpl
    split at h
    · simp at h
    · split at h
      · simp at h
      · rename_i body hbody
        cases h
        exact ⟨tmpl, body, htmpl, hbody, rfl⟩

/-- What a rule promises the reduction it enters: it rewrites into a body whose placeholders the
template names, and wherever the template matches, the match binds every name of the template
and the rule enters the body with the match substituted, which holds no placeholder on top. -/
def BindsBody (r : Rule) : Prop :=
  ∃ body, r.action = .rewrite body ∧
    (∀ u ∈ body, ∀ x ∈ Compiler.varNames u, x ∈ Compiler.varNamesItems r.template) ∧
    ∀ ws (pos : Nat) b, Template.firstMatch r.template ws pos = some b →
      (∀ x ∈ Compiler.varNamesItems r.template, (b.lookup x).isSome) ∧
      r.fire ws pos = some (.entered r pos (b.instantiate body)) ∧
      ∀ u ∈ b.instantiate body, u.isPlaceholder = false

/-- A rule compiled from atoms, as a
definition line gives them, rewrites into a body whose placeholders its template names; every
match of its template, in any workspace, binds every placeholder of the template to a value; so
the body it enters holds no placeholder on top. -/
theorem compile_binds_body {pat repl : List Token} {r : Rule}
    (hatoms : ∀ t ∈ pat ++ repl, t.isAtom = true) (h : compile pat repl = .ok r) : r.BindsBody := by
  obtain ⟨tmpl, body, htmpl, hbody, rfl⟩ := compile_eq_ok h
  have hpat : ∀ t ∈ pat, t.isAtom = true := fun t ht => hatoms t (List.mem_append_left _ ht)
  have hrepl : ∀ t ∈ repl, t.isAtom = true := fun t ht => hatoms t (List.mem_append_right _ ht)
  have hplain := Compiler.template_holds Compiler.keeps_plainMaps hpat htmpl
  have hany := Compiler.template_holds Compiler.keeps_anyVars hpat htmpl
  have hforms := Compiler.replacement_bound hbody hrepl
  refine ⟨body, rfl, fun u hu x hx => ?_, fun ws pos b hb => ?_⟩
  · rcases hforms u hu with hatom | ⟨s, hs, rfl⟩
    · simp [Token.varNames_eq_map_fst, Token.vars_eq_nil (Token.hasPlaceholder_of_isAtom hatom)]
        at hx
    · simp only [Compiler.varNames, List.mem_singleton] at hx
      exact hx ▸ hs
  -- every name of the template is bound, and to a value, since its variables accept values
  have hvalue : ∀ x ∈ Compiler.varNamesItems tmpl, ∃ v, b.lookup x = some v ∧ v.isValue = true := by
    intro x hx
    obtain ⟨p, hp, hxp⟩ := Token.mem_varNamesItems.1 hx
    rw [Token.varNames_eq_map_fst] at hxp
    obtain ⟨q, hq, rfl⟩ := List.mem_map.1 hxp
    obtain ⟨v, hv, hacc⟩ := Template.firstMatch_bound hplain hb p hp q hq
    rw [hany p hp q hq] at hacc
    exact ⟨v, hv, by simpa [Token.accepts] using hacc⟩
  refine ⟨fun x hx => ?_, by simp [fire, hb], fun u hu => ?_⟩
  · obtain ⟨v, hv, -⟩ := hvalue x hx
    simp [hv]
  · -- an atom stays as it is, and a variable becomes the value it is bound to
    obtain ⟨w, hw, rfl⟩ := List.mem_map.1 hu
    rcases hforms w hw with hatom | ⟨s, hs, rfl⟩
    · rw [Bindings.substitute_of_hasPlaceholder (Token.hasPlaceholder_of_isAtom hatom)]
      exact Token.isPlaceholder_of_isAtom hatom
    · obtain ⟨v, hv, hval⟩ := hvalue s hs
      simp only [Bindings.substitute, hv]
      exact Token.isPlaceholder_of_isValue hval

/-- The rule `increment [H ... T] = [H + 1 ... increment T]` compiles, and substitutes bound
placeholders only. -/
theorem compile_binds_body_increment :
    let pat : List Token := [.sym "increment", .sym "[", .sym "H", .sym "...", .sym "T", .sym "]"]
    let repl : List Token := [.sym "[", .sym "H", .sym "+", .num (.exact 1), .sym "...",
      .sym "increment", .sym "T", .sym "]"]
    ∃ r, (∀ t ∈ pat ++ repl, t.isAtom = true) ∧ compile pat repl = .ok r ∧ r.BindsBody := by
  intro pat repl
  have hatoms : ∀ t ∈ pat ++ repl, t.isAtom = true := by
    simp [pat, repl, Token.isAtom]
  obtain ⟨r, hr⟩ : ∃ r, compile pat repl = .ok r :=
    ⟨_, by set_option maxRecDepth 8192 in with_unfolding_all rfl⟩
  exact ⟨r, hatoms, hr, compile_binds_body hatoms hr⟩

end Rule

end Reckon

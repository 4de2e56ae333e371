import Mathlib.Data.List.Sort
import Reckon.Rule.Library

/-!
# What the template index offers

The index answers a lookup with exactly the rules whose template has the shape of the workspace
at the position, in registration order (`Library.candidates_eq_filter`).

The trie is read through `Trie.collect`, the ids a depth-first walk along the workspace reaches.
The lookup's level-by-level walk reaches the same ids in another order (`Trie.walk_perm`).
Inserting a path adds its id once, exactly when the workspace carries the path
(`Trie.collect_insert`): the segments a token carries are distinct, so the walk takes the
changed child at most once. The index of a library therefore holds, up to order, the ids of the
rules whose template has the shape (`Library.collect_index`). Those ids come in ascending order
already, and the lookup's sort puts the walk's ids in that order.
-/

namespace Reckon

namespace Segment

theorem ofSubject_nodup (t : Token) : (ofSubject t).Nodup := by
  unfold ofSubject
  split
  · simp
  · split <;> simp

/-- Whether the tokens carry the path, one segment each. -/
def carries : List Segment → List Token → Bool
  | [], _ => true
  | _ :: _, [] => false
  | s :: path, t :: ts => (ofSubject t).contains s && carries path ts

theorem carries_map (tmpl ws : List Token) : carries (tmpl.map ofTemplate) ws =
    (decide (tmpl.length ≤ ws.length) &&
      (tmpl.zip ws).all fun (p, t) => (ofSubject t).contains (ofTemplate p)) := by
  induction tmpl generalizing ws with
  | nil => simp [carries]
  | cons p tmpl ih =>
    cases ws with
    | nil => simp [carries]
    | cons t ws =>
      simp only [List.map_cons, carries, ih, List.length_cons, Nat.add_le_add_iff_right,
        List.zip_cons_cons, List.all_cons]
      cases (ofSubject t).contains (ofTemplate p) <;> simp

theorem carries_map_ofTemplate (tmpl ws : List Token) (pos : Nat) :
    carries (tmpl.map ofTemplate) (ws.drop pos) = (tmpl.isEmpty || Library.fits tmpl ws pos) := by
  cases tmpl with
  | nil => simp [carries]
  | cons p tmpl =>
    rw [carries_map, Library.fits, List.length_drop]
    simp only [List.isEmpty_cons, Bool.false_or]
    congr 1
    simp only [List.length_cons, decide_eq_decide]
    omega

end Segment

namespace Trie

/-- The ids a depth-first walk along the workspace reaches from a node, its own first. -/
def collect : Trie → List Token → List Nat
  | t, [] => t.rules
  | t, w :: ws => t.rules ++
      (Segment.ofSubject w).flatMap fun s => ((t.child? s).map (collect · ws)).getD []

@[simp] theorem rules_node (rs : List Nat) (cs : List (Segment × Trie)) :
    (node rs cs).rules = rs := rfl

@[simp] theorem children_node (rs : List Nat) (cs : List (Segment × Trie)) :
    (node rs cs).children = cs := rfl

theorem lookup_cons (s s₀ : Segment) (c₀ : Trie) (cs : List (Segment × Trie)) :
    ((s₀, c₀) :: cs).lookup s = if s = s₀ then some c₀ else cs.lookup s := by
  by_cases h : s = s₀
  · subst h
    simp [List.lookup_cons_self]
  · have hne : (s == s₀) = false := beq_eq_false_iff_ne.2 h
    simp [List.lookup_cons, hne, h]

theorem child?_setChild (cs : List (Segment × Trie)) (s s' : Segment) (c : Trie) :
    (setChild cs s c).lookup s' = if s' = s then some c else cs.lookup s' := by
  induction cs with
  | nil => simp [setChild, lookup_cons, List.lookup_nil]
  | cons p cs ih =>
    obtain ⟨s₀, c₀⟩ := p
    by_cases h : s₀ = s
    · subst h
      by_cases h' : s' = s₀ <;> simp [setChild, lookup_cons, h']
    · simp only [setChild, h, if_false, lookup_cons, ih]
      by_cases h' : s' = s₀
      · subst h'
        simp [h]
      · simp [h']

theorem collect_empty (ws : List Token) : collect empty ws = [] := by
  cases ws <;> simp [collect, empty, child?, List.lookup_nil]

theorem collect_getD (t : Trie) (s : Segment) (ws : List Token) :
    ((t.child? s).map (collect · ws)).getD [] = collect ((t.child? s).getD empty) ws := by
  cases t.child? s <;> simp [collect_empty]

theorem flatMap_perm_of_eq_except {segs : List Segment} (hnd : segs.Nodup)
    {F G : Segment → List Nat} {s : Segment} (extra : List Nat) (hs : (G s).Perm (F s ++ extra))
    (hother : ∀ s', s' ≠ s → G s' = F s') :
    (segs.flatMap G).Perm (segs.flatMap F ++ if s ∈ segs then extra else []) := by
  induction segs with
  | nil => simp
  | cons s' segs ih =>
    obtain ⟨hnot, hnd⟩ := List.nodup_cons.1 hnd
    by_cases h : s' = s
    · subst h
      have hrest : segs.flatMap G = segs.flatMap F :=
        List.flatMap_congr fun x hx => hother x fun hx' => hnot (hx' ▸ hx)
      simp only [List.flatMap_cons, List.mem_cons, true_or, if_true, hrest, List.append_assoc]
      exact (hs.append_right _).trans (by simpa using List.perm_append_comm.append_left (F s'))
    · simp only [List.flatMap_cons, hother s' h, List.mem_cons, Ne.symm h, false_or,
        List.append_assoc]
      exact (ih hnd).append_left _

theorem collect_insert (t : Trie) (path : List Segment) (id : Nat) (ws : List Token) :
    (collect (t.insert path id) ws).Perm
      (collect t ws ++ if Segment.carries path ws then [id] else []) := by
  induction path generalizing t ws with
  | nil =>
    obtain ⟨rs, cs⟩ := t
    cases ws with
    | nil => simp [insert, collect, Segment.carries]
    | cons w ws =>
      simp only [insert, collect, rules_node, child?, children_node, Segment.carries, if_true,
        List.append_assoc]
      exact List.perm_append_comm.append_left rs
  | cons s path ih =>
    cases ws with
    | nil => simp [insert, collect, Segment.carries]
    | cons w ws =>
      -- only the child along `s` changes, and it collects `id` once more when `ws` carries `path`
      have hchild : ∀ s', (insert t (s :: path) id).child? s' =
          if s' = s then some (insert ((t.child? s).getD empty) path id) else t.child? s' := by
        intro s'
        simp only [insert, child?, children_node, child?_setChild]
      have hperm := flatMap_perm_of_eq_except (Segment.ofSubject_nodup w)
        (F := fun s' => ((t.child? s').map (collect · ws)).getD [])
        (G := fun s' => (((insert t (s :: path) id).child? s').map (collect · ws)).getD [])
        (s := s) (if Segment.carries path ws then [id] else [])
        (by simpa [hchild, collect_getD] using ih ((t.child? s).getD empty) ws)
        (fun s' hs' => by simp [hchild, hs'])
      simp only [collect, insert, rules_node, List.append_assoc]
      refine (hperm.append_left t.rules).trans ?_
      by_cases hs : s ∈ Segment.ofSubject w <;>
        simp [Segment.carries, hs]

theorem flatMap_filterMap {α β γ : Type} (l : List α) (f : α → Option β) (g : β → List γ) :
    (l.filterMap f).flatMap g = l.flatMap fun a => ((f a).map g).getD [] := by
  induction l with
  | nil => rfl
  | cons a l ih => cases h : f a <;> simp [h, ih]

theorem flatMap_append_perm {α β : Type} (l : List α) (f g : α → List β) :
    (l.flatMap fun a => f a ++ g a).Perm (l.flatMap f ++ l.flatMap g) := by
  induction l with
  | nil => simp
  | cons a l ih =>
    simp only [List.flatMap_cons, List.append_assoc]
    refine List.Perm.append_left (f a) ((ih.append_left (g a)).trans ?_)
    simpa only [List.append_assoc] using List.perm_append_comm.append_right (l.flatMap g)

theorem walk_perm (frontier : List Trie) (ws : List Token) :
    (frontier.flatMap rules ++ walk frontier ws).Perm (frontier.flatMap (collect · ws)) := by
  induction ws generalizing frontier with
  | nil => cases frontier <;> simp [walk, collect]
  | cons w ws ih =>
    cases frontier with
    | nil => simp [walk]
    | cons n ns =>
      -- the next frontier collects, from its nodes, what the frontier collects below its own
      have hnext : (step (Segment.ofSubject w) (n :: ns)).flatMap (collect · ws) =
          (n :: ns).flatMap fun t => (Segment.ofSubject w).flatMap fun s =>
            ((t.child? s).map (collect · ws)).getD [] := by
        simp only [step, List.flatMap_assoc, flatMap_filterMap]
      simp only [walk]
      refine ((ih _).append_left _).trans ?_
      rw [hnext]
      exact (flatMap_append_perm _ _ _).symm

theorem collect_foldl_insert {α : Type} (path : α → List Segment) (id : α → Nat) (ps : List α)
    (t : Trie) (ws : List Token) :
    (collect (ps.foldl (fun t p => t.insert (path p) (id p)) t) ws).Perm
      (collect t ws ++ (ps.filter fun p => Segment.carries (path p) ws).map id) := by
  induction ps generalizing t with
  | nil => simp
  | cons p ps ih =>
    refine (ih _).trans ?_
    refine ((collect_insert t (path p) (id p) ws).append_right _).trans ?_
    by_cases hp : Segment.carries (path p) ws <;> simp [hp]

theorem insertId_eq (n : Nat) (ns : List Nat) : insertId n ns = ns.orderedInsert (· ≤ ·) n := by
  induction ns with
  | nil => rfl
  | cons m ms ih => simp [insertId, ih]

theorem sortIds_eq (ns : List Nat) : sortIds ns = ns.insertionSort (· ≤ ·) := by
  induction ns with
  | nil => rfl
  | cons n ns ih => simp [sortIds, ih, insertId_eq]

theorem sortIds_of_perm {ns ms : List Nat} (hperm : ns.Perm ms) (hms : ms.Pairwise (· ≤ ·)) :
    sortIds ns = ms := by
  rw [sortIds_eq]
  exact List.Perm.eq_of_pairwise' (List.pairwise_insertionSort _ ns) hms
    ((List.perm_insertionSort _ ns).trans hperm)

theorem lookup_eq_sortIds (root : Trie) (ws : List Token) (pos : Nat) {ms : List Nat}
    (hperm : (collect root (ws.drop pos)).Perm ms) (hms : ms.Pairwise (· ≤ ·)) :
    root.lookup ws pos = ms := by
  apply sortIds_of_perm _ hms
  have hwalk := walk_perm [root] (ws.drop pos)
  simp only [List.flatMap_cons, List.flatMap_nil, List.append_nil] at hwalk
  exact hwalk.trans hperm

end Trie

namespace Library

theorem collect_index (lib : Library) (ws : List Token) :
    (lib.index.collect ws).Perm ((lib.rules.zipIdx.filter
      ((fun r : Rule => Segment.carries (r.template.map Segment.ofTemplate) ws) ∘ Prod.fst)).map
        Prod.snd) := by
  have h := Trie.collect_foldl_insert (fun p : Rule × Nat => p.1.template.map Segment.ofTemplate)
    Prod.snd lib.rules.zipIdx .empty ws
  rw [Trie.collect_empty, List.nil_append] at h
  exact h

theorem pairwise_snd_filter_zipIdx (lib : Library) (q : Rule × Nat → Bool) :
    ((lib.rules.zipIdx.filter q).map Prod.snd).Pairwise (· < ·) := by
  have hall : (lib.rules.zipIdx.map Prod.snd).Pairwise (· < ·) := by
    rw [List.zipIdx_map_snd]
    exact List.pairwise_lt_range' 1 (by omega)
  exact hall.sublist ((List.filter_sublist).map _)

theorem filterMap_getElem?_filter_zipIdx (rules : List Rule) (q : Rule → Bool) :
    ((rules.zipIdx.filter (q ∘ Prod.fst)).map Prod.snd).filterMap (rules[·]?) = rules.filter q := by
  have hget : ∀ p ∈ rules.zipIdx.filter (q ∘ Prod.fst), ((rules[·]?) ∘ Prod.snd) p = some p.1 := by
    intro p hp
    rw [Function.comp_apply]
    obtain ⟨-, hlt, heq⟩ := List.mem_zipIdx (List.mem_filter.1 hp).1
    simp only [Nat.zero_add, Nat.sub_zero] at hlt heq
    simp [hlt, heq]
  rw [List.filterMap_map, List.filterMap_eq_map_iff_forall_eq_some.2 hget, ← List.filter_map,
    List.zipIdx_map_fst]

/-- The candidates at a position are the
library's rules whose template has the shape of the workspace there, in registration order. -/
theorem candidates_eq_filter (lib : Library) (ws : List Token) (pos : Nat) :
    lib.candidates ws pos = lib.rules.filter fun r => r.template.isEmpty || fits r.template ws pos := by
  have hlookup := Trie.lookup_eq_sortIds lib.index ws pos (collect_index lib (ws.drop pos))
    ((pairwise_snd_filter_zipIdx lib _).imp Nat.le_of_lt)
  rw [candidates, hlookup, filterMap_getElem?_filter_zipIdx]
  simp only [Segment.carries_map_ofTemplate]

end Library

end Reckon

import Reckon.Proofs.Brackets.Builtin
import Reckon.Proofs.Rule.Definition

/-!
# Compiled rules keep a workspace bracketed

A definition line is read by the lexer into atoms: numbers, texts, booleans and symbols
(`Lexer.run_isAtom`). Compiling a pattern of atoms gives a template with two properties the
engine needs. No variable in it, at any depth, has the category `symbol`, since placeholder
words become variables of category `any`; so whatever it binds in a bracketed workspace is
inert. And its brackets balance: brackets and braces fold into list and map patterns, which are
single tokens, and the parentheses left as symbols are counted by the reader, which accepts a
pattern only when the count ends at zero (`Compiler.template_fine`). The replacement is checked
with a stack of awaited closers, the very machine of `Tokens.awaiting`, so it is well bracketed
(`Compiler.replacement_spec`), and substituting inert bindings for its variables keeps it so.

A rule compiled from atoms therefore enters a bracketed body, and whatever bracketed sequence
its nested reduction ends with goes over a balanced span (`Rule.compile_fine`).
-/

namespace Reckon

namespace Token

/-- Whether the token is an atom, as the lexer reads them: a number, a text, a boolean or a
symbol. -/
def isAtom : Token → Bool
  | .num _ | .text _ | .bool _ | .sym _ => true
  | _ => false

theorem noSymbolVars_of_isAtom {t : Token} (h : t.isAtom = true) : t.noSymbolVars = true := by
  cases t <;> simp_all [isAtom, noSymbolVars]

theorem bracketFreeMaps_of_isAtom {t : Token} (h : t.isAtom = true) : t.bracketFreeMaps = true := by
  cases t <;> simp_all [isAtom, bracketFreeMaps]

theorem noSymbolVars_map (es : List (Token × Token)) :
    (map es).noSymbolVars = true ↔
      Entries.All (fun k => k.noSymbolVars = true) (fun v => v.noSymbolVars = true) es := by
  simp only [noSymbolVars, Entries.All]
  induction es with
  | nil => simp [noSymbolVars.entries]
  | cons e es ih =>
    obtain ⟨k, v⟩ := e
    simp [noSymbolVars.entries, ih, and_assoc]

end Token

namespace Lexer

theorem run_isAtom (c : Cursor) (acc : List Token) {ts : List Token}
    (h : run c acc = .ok ts) (hacc : ∀ t ∈ acc, t.isAtom = true) :
    ∀ t ∈ ts, t.isAtom = true := by
  -- each branch stops with the tokens read, fails, or goes on with atoms in front
  fun_induction run c acc generalizing ts
  all_goals first
    | (simp only [Except.ok.injEq] at h
       subst h
       intro t ht
       exact hacc t (List.mem_reverse.1 ht))
    | (simp only [reduceCtorEq] at h)
    | (rename_i ih
       exact ih h hacc)
    | (rename_i ih
       exact ih h (List.forall_mem_cons.2 ⟨rfl, hacc⟩))
    | (rename_i ih
       exact ih h (List.forall_mem_cons.2 ⟨rfl, List.forall_mem_cons.2 ⟨rfl, hacc⟩⟩))
    | (rename_i ih
       refine ih h (List.forall_mem_cons.2 ⟨?_, hacc⟩)
       -- a word is a boolean or a symbol
       simp +zetaDelta only
       split <;> (try split) <;> rfl)

end Lexer

namespace Tokens

theorem lex_isAtom {text : String} {ts : List Token} (h : lex text = .ok ts) :
    ∀ t ∈ ts, t.isAtom = true :=
  Lexer.run_isAtom _ [] h (by simp)

theorem mem_of_splitDefinition_go_right {ts : List Token} {depth : Nat} {seen pat repl : List Token}
    (h : splitDefinition.go ts depth seen = some (pat, repl)) : ∀ t ∈ repl, t ∈ ts := by
  induction ts generalizing depth seen with
  | nil => simp [splitDefinition.go] at h
  | cons u ts ih =>
    rw [splitDefinition.go] at h
    -- the replacement is the rest after the `=`, or comes from the rest further on
    have hstep : ∀ {d s}, splitDefinition.go ts d s = some (pat, repl) → ∀ t ∈ repl, t ∈ u :: ts :=
      fun hgo t ht => List.mem_cons_of_mem _ (ih hgo t ht)
    split at h
    · exact hstep h
    · split at h
      · exact hstep h
      · split at h
        · obtain ⟨-, rfl⟩ := Prod.mk.inj (Option.some.inj h)
          exact fun t ht => List.mem_cons_of_mem _ ht
        · exact hstep h

theorem mem_of_splitDefinition_right {ts pat repl : List Token}
    (h : splitDefinition ts = some (pat, repl)) : ∀ t ∈ repl, t ∈ ts :=
  mem_of_splitDefinition_go_right h

end Tokens

namespace Compiler

open Tokens

/-! ### Reading a pattern of atoms -/

/-- A token the reader may hand over: no symbol variable in it at any depth, and no bracket. -/
def Item (i : Token) : Prop := i.noSymbolVars = true ∧ i.isBracket = false

/-- What a list pattern still open keeps that may reach the template as it is: its tail. -/
def ListPhase.Fine : ListPhase → Prop
  | .afterTail t => Item t
  | _ => True

/-- What a map pattern still open keeps besides its entries: a key read, or its rest. -/
def MapPhase.Fine : MapPhase → Prop
  | .afterKey k | .value k => k.noSymbolVars = true
  | .afterRest r => Item r
  | _ => True

/-- What an open bracket of a pattern of atoms holds: items, entries and keys without symbol
variables at any depth, and a tail or rest, which may reach the template as it is, that is no
bracket either. -/
def Frame.Fine : Frame → Prop
  | .list items phase => (∀ x ∈ items, x.noSymbolVars = true) ∧ phase.Fine
  | .map es phase =>
    Entries.All (fun k => k.noSymbolVars = true) (fun v => v.noSymbolVars = true) es ∧ phase.Fine

/-- The invariant of reading a pattern of atoms: the template so far has no symbol variable at
any depth and its brackets count up to the parentheses still open, and the open brackets are
fine. -/
structure Reading.Fine (r : Reading) : Prop where
  out : ∀ t ∈ r.out, t.noSymbolVars = true
  depth : depthAfter 0 r.out = some r.parens
  stack : ∀ f ∈ r.stack, f.Fine

theorem Reading.Fine.append {r : Reading} (hr : r.Fine) {i : Token} (hi : Item i) :
    ({ r with out := r.out ++ [i] } : Reading).Fine where
  out := List.forall_mem_append.2 ⟨hr.out, List.forall_mem_singleton.2 hi.1⟩
  depth := by
    simp only [depthAfter_append, hr.depth, Option.bind_some,
      depthAfter_cons_of_not_bracket hi.2, depthAfter_nil]
  stack := hr.stack

theorem Reading.Fine.push {r : Reading} (hr : r.Fine) (f : Frame) (hf : f.Fine)
    (fs : List Frame) (hfs : ∀ g ∈ fs, g.Fine) : ({ r with stack := f :: fs } : Reading).Fine :=
  ⟨hr.out, hr.depth, List.forall_mem_cons.2 ⟨hf, hfs⟩⟩

theorem item_placeholder {t : Token} (ht : t.isAtom = true)
    (h : ((placeholder t).isPlaceholder || (placeholder t).isValue) = true) :
    Item (placeholder t) := by
  refine ⟨?_, ?_⟩
  · unfold placeholder
    split
    · split
      · rfl
      · exact Token.noSymbolVars_of_isAtom ht
    · exact Token.noSymbolVars_of_isAtom ht
  · refine Token.isBracket_of_ne_sym ?_
    rintro s hs
    rw [hs] at h
    simp [Token.isPlaceholder, Token.isValue, Token.kind] at h

theorem deliver_fine {i : Token} {r r' : Reading} (hr : r.Fine) (hi : Item i)
    (h : deliver i r = .ok r') : r'.Fine := by
  unfold deliver at h
  split at h
  · cases h
    exact hr.append hi
  · rename_i f fs hst
    have hstack := hr.stack
    rw [hst] at hstack
    obtain ⟨hf, hfs⟩ := List.forall_mem_cons.1 hstack
    -- each kind of open bracket keeps the item in a frame of its own, or drops it
    split at h <;> (try split at h) <;> first
      | (cases h
         refine hr.push _ ?_ fs hfs
         exact ⟨List.forall_mem_append.2 ⟨hf.1, List.forall_mem_singleton.2 hi.1⟩, trivial⟩)
      | (cases h; refine hr.push _ ?_ fs hfs; exact ⟨hf.1, hi⟩)
      | (cases h; refine hr.push _ ?_ fs hfs; exact ⟨hf.1, hi.1⟩)
      | (cases h
         refine hr.push _ ?_ fs hfs
         refine ⟨fun e he => ?_, trivial⟩
         rcases List.mem_append.1 he with he | he
         · exact hf.1 e he
         · rw [List.mem_singleton.1 he]
           exact ⟨hf.2, hi.1⟩)
      | (cases h; exact hr)
      | (simp only [reduceCtorEq] at h)

theorem openItem_fine {t : Token} {r r' : Reading} (hr : r.Fine) (ht : t.isAtom = true)
    (h : openItem t r = .ok r') : r'.Fine := by
  unfold openItem at h
  split at h
  · cases h
    exact hr.push (.list [] .start) ⟨by simp, trivial⟩ _ hr.stack
  · split at h
    · cases h
      exact hr.push (.map [] .start) ⟨by simp [Entries.All], trivial⟩ _ hr.stack
    · dsimp only at h
      split at h
      · exact deliver_fine hr (item_placeholder ht (by assumption)) h
      · simp at h

theorem item_foldr_listCap {items : List Token} (hitems : ∀ x ∈ items, x.noSymbolVars = true)
    {tail : Token} (htail : Item tail) : Item (items.foldr (fun h acc => .listCap h acc) tail) := by
  induction items with
  | nil => exact htail
  | cons x items ih =>
    obtain ⟨hrest, -⟩ := ih fun y hy => hitems y (List.mem_cons_of_mem _ hy)
    exact ⟨by simp [Token.noSymbolVars, hitems x List.mem_cons_self, hrest], rfl⟩

theorem item_foldr_mapCap {es : List (Token × Token)}
    (hes : Entries.All (fun k => k.noSymbolVars = true) (fun v => v.noSymbolVars = true) es)
    {rest : Token} (hrest : Item rest) :
    Item (es.foldr (fun (k, v) acc => .mapCap k v acc) rest) := by
  induction es with
  | nil => exact hrest
  | cons e es ih =>
    obtain ⟨hrest', -⟩ := ih fun x hx => hes x (List.mem_cons_of_mem _ hx)
    obtain ⟨hk, hv⟩ := hes e List.mem_cons_self
    exact ⟨by simp [Token.noSymbolVars, hk, hv, hrest'], rfl⟩

theorem item_finishMap {es : List (Token × Token)}
    (hes : Entries.All (fun k => k.noSymbolVars = true) (fun v => v.noSymbolVars = true) es)
    {rest : Token} (hrest : Item rest) : Item (finishMap es rest) := by
  unfold finishMap
  dsimp only
  split
  · -- a literal map merges the entries into the map it ends with
    rename_i rs _
    have hrs := (Token.noSymbolVars_map rs).1 hrest.1
    exact ⟨(Token.noSymbolVars_map _).2 (Entries.All.merge (Entries.All.build hes) hrs), rfl⟩
  · exact item_foldr_mapCap hes hrest

/-- Reading one atom keeps the invariant. -/
theorem step_fine {r r' : Reading} {t : Token} (hr : r.Fine) (ht : t.isAtom = true)
    (h : step r t = .ok r') : r'.Fine := by
  unfold step at h
  split at h
  · rename_i hst
    -- outside brackets a parenthesis is counted, and any other token but a bracket joins the
    -- template, a placeholder word as a variable
    split at h
    · exact openItem_fine hr ht h
    · split at h
      · rename_i hopen
        cases h
        refine ⟨List.forall_mem_append.2 ⟨hr.out, by simp [Token.isSym_eq_true.1 hopen,
          Token.noSymbolVars]⟩, ?_, hr.stack⟩
        simp [depthAfter_append, hr.depth, Token.isSym_eq_true.1 hopen, depthAfter_cons,
          depthStep, opens, Token.isSym]
      · split at h
        · rename_i hclose
          split at h
          · simp at h
          · rename_i hpos
            cases h
            obtain ⟨p, hp⟩ : ∃ p, r.parens = p + 1 :=
              Nat.exists_eq_succ_of_ne_zero (by simpa using hpos)
            refine ⟨List.forall_mem_append.2 ⟨hr.out, by simp [Token.isSym_eq_true.1 hclose,
              Token.noSymbolVars]⟩, ?_, hr.stack⟩
            simp [depthAfter_append, hr.depth, hp, Token.isSym_eq_true.1 hclose, depthAfter_cons,
              depthStep, opens, closes, Token.isSym]
        · split at h
          · simp at h
          · split at h
            · simp at h
            · rename_i hbr hopen hclose hclose' hdots
              cases h
              refine hr.append ⟨?_, ?_⟩
              · unfold placeholder
                split
                · split
                  · rfl
                  · exact Token.noSymbolVars_of_isAtom ht
                · exact Token.noSymbolVars_of_isAtom ht
              · -- none of the brackets is left at this point
                simp only [Bool.or_eq_true, not_or] at hbr hclose'
                unfold placeholder
                split
                · split
                  · rfl
                  · simp_all [Token.isBracket, opens, closes, Token.isSym]
                · exact Token.isBracket_of_ne_sym (by assumption)
  · rename_i f fs hst
    have hstack := hr.stack
    rw [hst] at hstack
    obtain ⟨hf, hfs⟩ := List.forall_mem_cons.1 hstack
    have hclosed : ({ r with stack := fs } : Reading).Fine := ⟨hr.out, hr.depth, hfs⟩
    -- a closing bracket hands over what the frame built; anything else opens an item or
    -- moves the frame on
    split at h <;> (repeat' split at h) <;> first
      | exact deliver_fine hclosed ⟨rfl, rfl⟩ h
      | exact deliver_fine hclosed ⟨(Token.noSymbolVars_list _).2 hf.1, rfl⟩ h
      | exact openItem_fine hr ht h
      | exact deliver_fine hclosed (item_foldr_listCap hf.1 hf.2) h
      | exact deliver_fine hclosed (item_finishMap hf.1 ⟨rfl, rfl⟩) h
      | exact deliver_fine hclosed (item_finishMap hf.1 hf.2) h
      | (cases h; refine hr.push _ ?_ fs hfs; exact ⟨hf.1, trivial⟩)
      | (cases h; refine hr.push _ ?_ fs hfs; exact ⟨hf.1, hf.2⟩)
      | (simp only [reduceCtorEq] at h)

/-- Reading a pattern of atoms keeps the invariant. -/
theorem foldlM_step_fine (pat : List Token) (hpat : ∀ t ∈ pat, t.isAtom = true) {r r' : Reading}
    (hr : r.Fine) (h : pat.foldlM step r = .ok r') : r'.Fine := by
  induction pat generalizing r with
  | nil =>
    cases h
    exact hr
  | cons t pat ih =>
    rw [List.foldlM_cons] at h
    cases hstep : step r t with
    | error e => simp only [hstep, bind, Except.bind, reduceCtorEq] at h
    | ok r₁ =>
      rw [hstep] at h
      exact ih (fun u hu => hpat u (List.mem_cons_of_mem _ hu))
        (step_fine hr (hpat t List.mem_cons_self) hstep) h

/-- The template of a pattern of atoms has no symbol variable at any depth, and its brackets
balance. -/
theorem template_fine {pat tmpl : List Token} (hpat : ∀ t ∈ pat, t.isAtom = true)
    (h : template pat = .ok tmpl) : (∀ p ∈ tmpl, p.noSymbolVars = true) ∧ Balanced tmpl := by
  unfold template at h
  cases hfold : pat.foldlM step ⟨[], 0, []⟩ with
  | error e => simp only [hfold, bind, Except.bind, reduceCtorEq] at h
  | ok r =>
    have hr := foldlM_step_fine pat hpat ⟨by simp, rfl, by simp⟩ hfold
    rw [hfold] at h
    simp only [bind, Except.bind] at h
    split at h
    · simp at h
    · split at h
      · rename_i hparens
        cases h
        refine ⟨hr.out, ?_⟩
        unfold Tokens.Balanced
        rw [hr.depth]
        simpa using hparens
      · simp at h

/-! ### The replacement -/

theorem eq_ok_of_map_cons {e : Except Malformed (List Token)} {t : Token} {body : List Token}
    (h : (t :: ·) <$> e = .ok body) : ∃ body', e = .ok body' ∧ body = t :: body' := by
  cases e with
  | error => simp [Functor.map, Except.map] at h
  | ok body' =>
    simp only [Functor.map, Except.map, Except.ok.injEq] at h
    exact ⟨body', rfl, h.symm⟩

/-- A replacement of atoms that compiles, read on top of the closers it
awaits, closes them all, and the compiled body keeps its atoms but for placeholder words, which
become variables of category `any`. -/
theorem replacement_spec {bound : List String} {repl body : List Token} {aw : List String}
    (h : replacement bound repl aw = .ok body) (hrepl : ∀ t ∈ repl, t.isAtom = true) :
    awaiting aw body = some [] ∧ ∀ u ∈ body, u.isAtom = true ∨ ∃ s, u = .var s .any := by
  induction repl generalizing aw body with
  | nil =>
    cases aw with
    | nil =>
      cases h
      exact ⟨rfl, by simp⟩
    | cons => simp [replacement] at h
  | cons t ts ih =>
    have hts : ∀ u ∈ ts, u.isAtom = true := fun u hu => hrepl u (List.mem_cons_of_mem _ hu)
    have ht := hrepl t List.mem_cons_self
    -- each token goes through as it is, or as a variable; the stack moves as it does in
    -- `awaiting`
    have hkeep : ∀ {aw'}, awaitStep aw t = some aw' → (t :: ·) <$> replacement bound ts aw' =
        .ok body → awaiting aw body = some [] ∧ ∀ u ∈ body, u.isAtom = true ∨ ∃ s, u = .var s .any := by
      intro aw' hstep hmap
      obtain ⟨body', hbody', rfl⟩ := eq_ok_of_map_cons hmap
      obtain ⟨hawait, hforms⟩ := ih hbody' hts
      refine ⟨by rw [awaiting_cons, hstep, Option.bind_some]; exact hawait, ?_⟩
      exact List.forall_mem_cons.2 ⟨.inl ht, hforms⟩
    unfold replacement at h
    split at h
    · rename_i s
      split at h
      · split at h
        · obtain ⟨body', hbody', rfl⟩ := eq_ok_of_map_cons h
          obtain ⟨hawait, hforms⟩ := ih hbody' hts
          refine ⟨by rw [awaiting_cons_of_not_bracket rfl]; exact hawait, ?_⟩
          exact List.forall_mem_cons.2 ⟨.inr ⟨s, rfl⟩, hforms⟩
        · simp at h
      · split at h
        · rename_i c hc
          exact hkeep (by simp [awaitStep, closerOf?, Token.symName?, hc]) h
        · rename_i hc
          split at h
          · rename_i hcl
            split at h
            · rename_i c rest
              split at h
              · rename_i hcs
                refine hkeep ?_ h
                have hclose : closes (.sym s) = true := by
                  simpa [closes, Token.isSym] using hcl
                simp only [awaitStep, closerOf?, Token.symName?, Option.bind_some, hc, hclose,
                  if_true, Token.isSym]
                simp_all
              · simp at h
            · simp at h
          · rename_i hcl
            refine hkeep ?_ h
            have hclose : closes (.sym s) = false := by
              simpa [closes, Token.isSym] using hcl
            simp [awaitStep, closerOf?, Token.symName?, hc, hclose]
    · rename_i hsym
      refine hkeep (awaitStep_of_not_bracket (Token.isBracket_of_ne_sym hsym) aw) h

end Compiler

theorem Bindings.instantiate_bracketed {b : Bindings} (hb : b.Inert) {body : List Token}
    (hbody : ∀ u ∈ body, u.isAtom = true ∨ ∃ s, u = .var s .any)
    (hwb : Tokens.WellBracketed body) : Tokens.Bracketed (b.instantiate body) := by
  -- an atom stays as it is, and a variable becomes an inert binding or stays a variable
  have hsub : ∀ u ∈ body, Tokens.SameBracket u (b.substitute u) ∧
      (b.substitute u).bracketFreeMaps = true := by
    intro u hu
    rcases hbody u hu with hatom | ⟨s, rfl⟩
    · have hself : b.substitute u = u := by
        cases u <;> simp_all [Token.isAtom, Bindings.substitute]
      rw [hself]
      exact ⟨.inl rfl, Token.bracketFreeMaps_of_isAtom hatom⟩
    · cases hlook : b.lookup s with
      | none => simp [Bindings.substitute, hlook, Tokens.SameBracket, Token.isBracket, Tokens.opens,
          Tokens.closes, Token.isSym, Token.bracketFreeMaps]
      | some t =>
        have ht := hb.lookup hlook
        simp only [Bindings.substitute, hlook]
        exact ⟨.inr ⟨rfl, ht.1⟩, ht.2⟩
  refine ⟨?_, ?_⟩
  · unfold Tokens.WellBracketed Bindings.instantiate
    rw [← Tokens.awaiting_congr (List.forall₂_map_right_iff.2
      (List.forall₂_same.2 fun u hu => (hsub u hu).1))]
    exact hwb
  · intro t ht
    obtain ⟨u, hu, rfl⟩ := List.mem_map.1 ht
    exact (hsub u hu).2

namespace Rule

/-- A rule compiled from atoms rewrites with a template that has no symbol
variable at any depth and whose brackets balance, into a well-bracketed body of atoms and
variables of category `any`. -/
theorem compile_fine {pat repl : List Token} {r : Rule}
    (hatoms : ∀ t ∈ pat ++ repl, t.isAtom = true) (h : compile pat repl = .ok r) :
    (∀ p ∈ r.template, p.noSymbolVars = true) ∧ Tokens.Balanced r.template ∧
      ∃ body, r.action = .rewrite body ∧ Tokens.WellBracketed body ∧
        ∀ u ∈ body, u.isAtom = true ∨ ∃ s, u = .var s .any := by
  have hpat : ∀ t ∈ pat, t.isAtom = true := fun t ht => hatoms t (List.mem_append_left _ ht)
  have hrepl : ∀ t ∈ repl, t.isAtom = true := fun t ht => hatoms t (List.mem_append_right _ ht)
  unfold compile at h
  split at h
  · simp at h
  split at h
  · simp at h
  split at h
  · simp at h
  · rename_i tmpl htmpl
    split at h
    · simp at h
    · split at h
      · simp at h
      · rename_i body hbody
        cases h
        obtain ⟨hvars, hbal⟩ := Compiler.template_fine hpat htmpl
        obtain ⟨hwb, hforms⟩ := Compiler.replacement_spec hbody hrepl
        exact ⟨hvars, hbal, body, rfl, hwb, hforms⟩

end Rule

end Reckon

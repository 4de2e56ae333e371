import Reckon.Proofs.Rule.Screen
import Reckon.Proofs.Session.Ledger

/-!
# Definitions compile to rules a session can hold

The candidate screen is exact off the folds for rules whose template holds no variable of
category `symbol` (`Rule.Coherent`). A definition line never yields one: the lexer reads no
placeholder at all (`Lexer.run_isPlaceholder`), and compiling a pattern only turns words into
variables of category `any` and builds lists, maps and captures around the items it reads
(`Compiler.template_noSymbolVar`). Entering a line therefore keeps every rule of a session's
library one the screen is exact for (`Session.enter_coherent`).
-/

namespace Reckon

namespace Lexer

theorem run_isPlaceholder (c : Cursor) (acc : List Token) {ts : List Token}
    (h : run c acc = .ok ts) (hacc : ∀ t ∈ acc, t.isPlaceholder = false) :
    ∀ t ∈ ts, t.isPlaceholder = false := by
  -- each branch stops with the tokens read, fails, or goes on with tokens of a fixed kind
  fun_induction run c acc generalizing ts
  all_goals first
    | (simp only [Except.ok.injEq] at h
       subst h
       intro t ht
       exact hacc t (List.mem_reverse.1 ht))
    | (simp only [reduceCtorEq] at h)
    | (rename_i ih
       exact ih h hacc)
    | (rename_i ih
       exact ih h (List.forall_mem_cons.2 ⟨rfl, hacc⟩))
    | (rename_i ih
       exact ih h (List.forall_mem_cons.2 ⟨rfl, List.forall_mem_cons.2 ⟨rfl, hacc⟩⟩))
    | (rename_i ih
       refine ih h (List.forall_mem_cons.2 ⟨?_, hacc⟩)
       -- a word is a boolean or a symbol
       simp +zetaDelta only
       split <;> (try split) <;> rfl)

end Lexer

namespace Tokens

theorem lex_isPlaceholder {text : String} {ts : List Token} (h : lex text = .ok ts) :
    ∀ t ∈ ts, t.isPlaceholder = false :=
  Lexer.run_isPlaceholder _ [] h (by simp)

theorem mem_of_splitDefinition_go {ts : List Token} {depth : Nat} {seen pat repl : List Token}
    (h : splitDefinition.go ts depth seen = some (pat, repl)) : ∀ t ∈ pat, t ∈ ts ∨ t ∈ seen := by
  induction ts generalizing depth seen with
  | nil => simp [splitDefinition.go] at h
  | cons u ts ih =>
    rw [splitDefinition.go] at h
    -- the tokens passed go onto `seen`; at the `=` the pattern is `seen` read back
    have hstep : ∀ {d}, splitDefinition.go ts d (u :: seen) = some (pat, repl) →
        ∀ t ∈ pat, t ∈ u :: ts ∨ t ∈ seen := by
      intro d hgo t ht
      rcases ih hgo t ht with h | h
      · exact .inl (List.mem_cons_of_mem _ h)
      · rcases List.mem_cons.1 h with rfl | h
        · exact .inl List.mem_cons_self
        · exact .inr h
    split at h
    · exact hstep h
    · split at h
      · exact hstep h
      · split at h
        · obtain ⟨rfl, -⟩ := Prod.mk.inj (Option.some.inj h)
          intro t ht
          exact .inr (List.mem_reverse.1 ht)
        · exact hstep h

theorem mem_of_splitDefinition {ts pat repl : List Token}
    (h : splitDefinition ts = some (pat, repl)) : ∀ t ∈ pat, t ∈ ts := by
  intro t ht
  simpa using mem_of_splitDefinition_go h t ht

end Tokens

namespace Compiler

/-- A token that is no variable of category `symbol`. -/
def NoSymbolVar (t : Token) : Prop := ∀ n, t ≠ .var n .symbol

theorem noSymbolVar_of_isPlaceholder {t : Token} (h : t.isPlaceholder = false) :
    NoSymbolVar t := by
  rintro n rfl
  simp [Token.isPlaceholder, Token.kind] at h

theorem noSymbolVar_placeholder {t : Token} (h : NoSymbolVar t) : NoSymbolVar (placeholder t) := by
  unfold placeholder
  split
  · split
    · simp [NoSymbolVar]
    · exact h
  · exact h

/-- What an open bracket keeps that may reach the template as it is: the tail of a list pattern
and the rest of a map pattern. -/
def Frame.Sound : Frame → Prop
  | .list _ (.afterTail tail) => NoSymbolVar tail
  | .map _ (.afterRest rest) => NoSymbolVar rest
  | _ => True

/-- The invariant of reading a pattern: the template so far and what the open brackets keep
hold no variable of category `symbol`. -/
def Reading.Sound (r : Reading) : Prop :=
  (∀ t ∈ r.out, NoSymbolVar t) ∧ ∀ f ∈ r.stack, f.Sound

theorem noSymbolVar_foldr_listCap (items : List Token) {tail : Token} (h : NoSymbolVar tail) :
    NoSymbolVar (items.foldr (fun h acc => .listCap h acc) tail) := by
  cases items with
  | nil => exact h
  | cons => simp [NoSymbolVar]

theorem noSymbolVar_finishMap (entries : List (Token × Token)) {rest : Token}
    (h : NoSymbolVar rest) : NoSymbolVar (finishMap entries rest) := by
  unfold finishMap
  dsimp only
  split
  · simp [NoSymbolVar]
  · cases entries with
    | nil => exact h
    | cons => simp [NoSymbolVar]

theorem noSymbolVar_list (xs : List Token) : NoSymbolVar (.list xs) := by
  simp [NoSymbolVar]

theorem noSymbolVar_map (es : List (Token × Token)) : NoSymbolVar (.map es) := by
  simp [NoSymbolVar]

theorem noSymbolVar_append {out : List Token} (hout : ∀ t ∈ out, NoSymbolVar t) {i : Token}
    (hi : NoSymbolVar i) : ∀ t ∈ out ++ [i], NoSymbolVar t :=
  List.forall_mem_append.2 ⟨hout, List.forall_mem_singleton.2 hi⟩

theorem Reading.sound_cons {r : Reading} {f : Frame} {fs : List Frame} (hst : r.stack = f :: fs)
    (hstack : ∀ f ∈ r.stack, f.Sound) : f.Sound ∧ ∀ f ∈ fs, f.Sound := by
  rw [hst] at hstack
  exact List.forall_mem_cons.1 hstack

theorem deliver_sound {i : Token} {r r' : Reading} (hr : r.Sound) (hi : NoSymbolVar i)
    (h : deliver i r = .ok r') : r'.Sound := by
  obtain ⟨hout, hstack⟩ := hr
  unfold deliver at h
  split at h
  · cases h
    exact ⟨noSymbolVar_append hout hi, hstack⟩
  · rename_i f fs hst
    have hfs := (Reading.sound_cons hst hstack).2
    -- each kind of open bracket keeps the item in a frame of its own, or drops it
    split at h <;> (try split at h) <;> first
      | (cases h; exact ⟨hout, List.forall_mem_cons.2 ⟨trivial, hfs⟩⟩)
      | (cases h; exact ⟨hout, List.forall_mem_cons.2 ⟨hi, hfs⟩⟩)
      | (cases h; exact ⟨hout, hstack⟩)
      | (simp only [reduceCtorEq] at h)

theorem openItem_sound {t : Token} {r r' : Reading} (hr : r.Sound) (ht : NoSymbolVar t)
    (h : openItem t r = .ok r') : r'.Sound := by
  unfold openItem at h
  split at h
  · cases h
    exact ⟨hr.1, List.forall_mem_cons.2 ⟨trivial, hr.2⟩⟩
  · split at h
    · cases h
      exact ⟨hr.1, List.forall_mem_cons.2 ⟨trivial, hr.2⟩⟩
    · dsimp only at h
      split at h
      · exact deliver_sound hr (noSymbolVar_placeholder ht) h
      · simp at h

/-- Reading one pattern token keeps the invariant. -/
theorem step_sound {r r' : Reading} {t : Token} (hr : r.Sound) (ht : NoSymbolVar t)
    (h : step r t = .ok r') : r'.Sound := by
  obtain ⟨hout, hstack⟩ := hr
  unfold step at h
  split at h
  · -- outside brackets a token joins the template, a placeholder word as a variable
    repeat' split at h
    all_goals first
      | exact openItem_sound ⟨hout, hstack⟩ ht h
      | (cases h; exact ⟨noSymbolVar_append hout ht, hstack⟩)
      | (cases h; exact ⟨noSymbolVar_append hout (noSymbolVar_placeholder ht), hstack⟩)
      | (simp only [reduceCtorEq] at h)
  · rename_i f fs hst
    obtain ⟨hf, hfs⟩ := Reading.sound_cons hst hstack
    have hclosed : ({ r with stack := fs } : Reading).Sound := ⟨hout, hfs⟩
    -- a closing bracket hands over what the frame built; anything else opens an item or
    -- moves the frame on
    split at h <;> (repeat' split at h) <;> first
      | exact deliver_sound hclosed (noSymbolVar_list _) h
      | exact deliver_sound hclosed (noSymbolVar_map _) h
      | exact openItem_sound ⟨hout, hstack⟩ ht h
      | exact deliver_sound hclosed (noSymbolVar_foldr_listCap _ hf) h
      | exact deliver_sound hclosed (noSymbolVar_finishMap _ (noSymbolVar_map _)) h
      | exact deliver_sound hclosed (noSymbolVar_finishMap _ hf) h
      | (cases h; exact ⟨hout, List.forall_mem_cons.2 ⟨trivial, hfs⟩⟩)
      | (simp only [reduceCtorEq] at h)

/-- Reading a pattern of tokens that are no symbol variables keeps the
invariant. -/
theorem foldlM_step_sound (pat : List Token) (hpat : ∀ t ∈ pat, NoSymbolVar t) {r r' : Reading}
    (hr : r.Sound) (h : pat.foldlM step r = .ok r') : r'.Sound := by
  induction pat generalizing r with
  | nil =>
    cases h
    exact hr
  | cons t pat ih =>
    rw [List.foldlM_cons] at h
    cases hstep : step r t with
    | error e => simp only [hstep, bind, Except.bind, reduceCtorEq] at h
    | ok r₁ =>
      rw [hstep] at h
      exact ih (fun u hu => hpat u (List.mem_cons_of_mem _ hu))
        (step_sound hr (hpat t List.mem_cons_self) hstep) h

theorem template_noSymbolVar {pat tmpl : List Token} (hpat : ∀ t ∈ pat, NoSymbolVar t)
    (h : template pat = .ok tmpl) : ∀ n, Token.var n .symbol ∉ tmpl := by
  unfold template at h
  cases hfold : pat.foldlM step ⟨[], 0, []⟩ with
  | error e => simp only [hfold, bind, Except.bind, reduceCtorEq] at h
  | ok r =>
    have hr := foldlM_step_sound pat hpat ⟨by simp, by simp⟩ hfold
    rw [hfold] at h
    simp only [bind, Except.bind] at h
    split at h
    · simp at h
    · split at h
      · cases h
        intro n hn
        exact hr.1 _ hn n rfl
      · simp at h

end Compiler

namespace Rule

theorem compile_coherent {pat repl : List Token} {r : Rule}
    (hpat : ∀ t ∈ pat, Compiler.NoSymbolVar t) (h : compile pat repl = .ok r) : r.Coherent := by
  unfold compile at h
  split at h
  · simp at h
  split at h
  · simp at h
  split at h
  · simp at h
  · rename_i tmpl htmpl
    split at h
    · simp at h
    · split at h
      · simp at h
      · cases h
        exact .inr ⟨⟨_, rfl⟩, Compiler.template_noSymbolVar hpat htmpl⟩

end Rule

namespace Session

/-- A definition line registers a rule the
screen is exact for; any other line leaves the library as it is. -/
theorem enter_coherent (s : Session) (hs : ∀ r ∈ s.library.rules, r.Coherent) (text : String) :
    ∀ r ∈ (s.enter text).2.library.rules, r.Coherent := by
  unfold enter
  split
  · exact hs
  · rename_i ts hlex
    split
    · rename_i pat repl hsplit
      unfold define
      split
      · exact hs
      · rename_i r hr
        have hpat : ∀ t ∈ pat, Compiler.NoSymbolVar t := fun t ht =>
          Compiler.noSymbolVar_of_isPlaceholder
            (Tokens.lex_isPlaceholder hlex t (Tokens.mem_of_splitDefinition hsplit t ht))
        exact Library.register_coherent hs (Rule.compile_coherent hpat hr)
    · rw [library_evaluate]
      exact hs

end Session

end Reckon

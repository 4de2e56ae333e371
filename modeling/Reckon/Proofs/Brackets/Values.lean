import Mathlib.Data.List.Forall2
import Reckon.Proofs.Brackets.Basic
import Reckon.Proofs.Rule.Screen

/-!
# Tokens that keep brackets where they are

A rule takes tokens out of a workspace and puts them back elsewhere: bindings of its template,
items of a list, values of a map. Only the lookup `get K from M` brings up a token that was
inside another one without asking it to be a value: the value of a map entry. A map that holds
a bracket symbol as a value, which only a sequence of tokens given as they are can carry, would
bring that bracket up into the workspace. `Token.bracketFreeMaps` says that no map, at any
depth, holds one; a token is inert when it is no bracket and is free of such maps.

A workspace is bracketed when it is well bracketed and free of such maps (`Tokens.Bracketed`).
Main statements: replacing a balanced span of a bracketed workspace by a bracketed sequence
keeps it bracketed (`Tokens.Bracketed.splice`); a template without variables of category
`symbol`, matched against the tokens of such a workspace, binds inert tokens only
(`Template.inert_of_firstMatch`); and where its template fits, the span it covers has the
template's brackets (`Library.balanced_slice_of_fits`).
-/

namespace Reckon

namespace Token

/-- Whether no map in the token, at any depth, holds a bracket symbol as a value. -/
def bracketFreeMaps : Token → Bool
  | .list xs => items xs
  | .map es => entries es
  | .listCap h t => bracketFreeMaps h && bracketFreeMaps t
  | .mapCap k v r => bracketFreeMaps k && bracketFreeMaps v && bracketFreeMaps r
  | _ => true
where
  /-- Whether every item is free of bracket values. -/
  items : List Token → Bool
    | [] => true
    | x :: xs => bracketFreeMaps x && items xs
  /-- Whether every key and value is free of bracket values, and no value is a bracket. -/
  entries : List (Token × Token) → Bool
    | [] => true
    | (k, v) :: es => bracketFreeMaps k && bracketFreeMaps v && !v.isBracket && entries es

/-- A token that can stand anywhere in a workspace without touching its brackets: no bracket
itself, and free of maps with bracket values. -/
def Inert (t : Token) : Prop := t.isBracket = false ∧ t.bracketFreeMaps = true

end Token

namespace Entries

/-- Entries whose every key satisfies `P` and every value `Q`. -/
def All (P Q : Token → Prop) (es : List (Token × Token)) : Prop := ∀ e ∈ es, P e.1 ∧ Q e.2

/-- Entries whose keys are free of maps with bracket values and whose values are inert. -/
def Inert (es : List (Token × Token)) : Prop :=
  All (fun k => k.bracketFreeMaps = true) Token.Inert es

end Entries

namespace Token

theorem bracketFreeMaps_list (xs : List Token) :
    (list xs).bracketFreeMaps = true ↔ ∀ x ∈ xs, x.bracketFreeMaps = true := by
  simp only [bracketFreeMaps]
  induction xs with
  | nil => simp [bracketFreeMaps.items]
  | cons x xs ih => simp [bracketFreeMaps.items, ih]

theorem bracketFreeMaps_map (es : List (Token × Token)) :
    (map es).bracketFreeMaps = true ↔ Entries.Inert es := by
  simp only [bracketFreeMaps, Inert, Entries.Inert, Entries.All]
  induction es with
  | nil => simp [bracketFreeMaps.entries]
  | cons e es ih =>
    obtain ⟨k, v⟩ := e
    simp [bracketFreeMaps.entries, ih, and_assoc, and_comm]

theorem inert_list {xs : List Token} (h : ∀ x ∈ xs, x.bracketFreeMaps = true) : (list xs).Inert :=
  ⟨rfl, (bracketFreeMaps_list xs).2 h⟩

theorem inert_map {es : List (Token × Token)} (h : Entries.Inert es) : (map es).Inert :=
  ⟨rfl, (bracketFreeMaps_map es).2 h⟩

theorem isBracket_of_ne_sym {t : Token} (h : ∀ s, t ≠ .sym s) : t.isBracket = false := by
  cases t with
  | sym s => exact absurd rfl (h s)
  | _ => rfl

theorem isBracket_of_isValue {t : Token} (h : t.isValue = true) : t.isBracket = false :=
  isBracket_of_ne_sym (by rintro s rfl; simp [isValue, kind] at h)

theorem isBracket_of_accepts {cat : Kind} {t : Token} (hcat : cat ≠ .symbol)
    (h : accepts cat t = true) : t.isBracket = false := by
  unfold accepts at h
  split at h
  · exact isBracket_of_isValue h
  · refine isBracket_of_ne_sym ?_
    rintro s rfl
    simp only [kind, beq_iff_eq] at h
    exact hcat h.symm

end Token

namespace Entries

theorem forall_mem_modify {R : Token × Token → Prop} {l : List (Token × Token)}
    {f : Token × Token → Token × Token} (hl : ∀ x ∈ l, R x) (hf : ∀ x ∈ l, R (f x)) (i : Nat) :
    ∀ x ∈ l.modify i f, R x := by
  induction l generalizing i with
  | nil => simp
  | cons y l ih =>
    have hl' : ∀ x ∈ l, R x := fun x hx => hl x (List.mem_cons_of_mem _ hx)
    have hf' : ∀ x ∈ l, R (f x) := fun x hx => hf x (List.mem_cons_of_mem _ hx)
    cases i with
    | zero =>
      rw [List.modify_zero_cons]
      exact List.forall_mem_cons.2 ⟨hf y List.mem_cons_self, hl'⟩
    | succ i =>
      rw [List.modify_succ_cons]
      exact List.forall_mem_cons.2 ⟨hl y List.mem_cons_self, ih hl' hf' i⟩

variable {P Q : Token → Prop}

theorem All.insert {es : List (Token × Token)} {e : Token × Token} (hes : All P Q es)
    (he : P e.1 ∧ Q e.2) : All P Q (Entries.insert es e) := by
  unfold Entries.insert
  split
  · refine forall_mem_modify hes ?_ _
    intro x hx
    exact ⟨(hes x hx).1, he.2⟩
  · intro x hx
    rcases List.mem_append.1 hx with hx | hx
    · exact hes x hx
    · rw [List.mem_singleton.1 hx]
      exact he

theorem All.build {es : List (Token × Token)} (hes : All P Q es) : All P Q (Entries.build es) := by
  unfold Entries.build
  -- the accumulator only ever holds what the entries read so far hold
  have key : ∀ (acc : List (Token × Token)), All P Q acc → All P Q (es.foldl Entries.insert acc) := by
    induction es with
    | nil => exact fun acc hacc => hacc
    | cons e es ih =>
      intro acc hacc
      exact ih (fun x hx => hes x (List.mem_cons_of_mem _ hx)) _
        (hacc.insert (hes e List.mem_cons_self))
  exact key [] (by simp [All])

theorem All.eraseAt {es : List (Token × Token)} (hes : All P Q es) (i : Nat) :
    All P Q (Entries.eraseAt es i) :=
  All.build fun x hx => hes x (List.mem_of_mem_eraseIdx hx)

theorem All.merge {es fs : List (Token × Token)} (hes : All P Q es) (hfs : All P Q fs) :
    All P Q (Entries.merge es fs) :=
  All.build fun x hx => (List.mem_append.1 hx).elim (hes x) (hfs x)

theorem mem_of_get? {es : List (Token × Token)} {key v : Token} (h : get? es key = some v) :
    ∃ k, (k, v) ∈ es := by
  obtain ⟨e, he, rfl⟩ := Option.map_eq_some_iff.1 h
  exact ⟨e.1, List.mem_of_find?_eq_some he⟩

end Entries

namespace Tokens

/-- A bracketed workspace: well bracketed, and no map in it, at any depth, holds a bracket
symbol as a value. -/
def Bracketed (ws : List Token) : Prop :=
  WellBracketed ws ∧ ∀ t ∈ ws, t.bracketFreeMaps = true

instance : DecidablePred Bracketed :=
  fun ws => inferInstanceAs (Decidable (WellBracketed ws ∧ ∀ t ∈ ws, t.bracketFreeMaps = true))

@[simp] theorem bracketed_nil : Bracketed [] := ⟨rfl, by simp⟩

theorem bracketed_singleton {t : Token} (h : t.Inert) : Bracketed [t] :=
  ⟨by simp [WellBracketed, awaiting_cons_of_not_bracket h.1], by simpa using h.2⟩

theorem Bracketed.parenthesized {ts : List Token} (h : Bracketed ts) :
    Bracketed (.sym "(" :: ts ++ [.sym ")"]) := by
  refine ⟨?_, ?_⟩
  · unfold WellBracketed
    rw [List.cons_append, awaiting_cons, awaitStep]
    simp only [closerOf?, Token.symName?, Option.bind_some, Compiler.closerOf]
    simp [awaiting_append, h.1.awaiting, awaiting_cons, awaitStep, closerOf?, Token.symName?,
      Compiler.closerOf, closes, Token.isSym]
  · intro t ht
    simp only [List.mem_cons, List.mem_append, List.not_mem_nil, or_false] at ht
    rcases ht with (rfl | ht) | rfl
    · rfl
    · exact h.2 t ht
    · rfl

theorem Bracketed.append {xs ys : List Token} (hx : Bracketed xs) (hy : Bracketed ys) :
    Bracketed (xs ++ ys) := by
  refine ⟨?_, ?_⟩
  · unfold WellBracketed
    rw [awaiting_append, hx.1, Option.bind_some]
    exact hy.1
  · intro t ht
    exact (List.mem_append.1 ht).elim (hx.2 t) (hy.2 t)

/-- Replacing a balanced span of a bracketed
workspace by a bracketed sequence gives a bracketed workspace. -/
theorem Bracketed.splice {pre span post xs : List Token} (h : Bracketed (pre ++ span ++ post))
    (hspan : Balanced span) (hxs : Bracketed xs) : Bracketed (pre ++ xs ++ post) := by
  refine ⟨h.1.splice hspan hxs.1, ?_⟩
  intro t ht
  simp only [List.mem_append] at ht
  rcases ht with (ht | ht) | ht
  · exact h.2 t (by simp [ht])
  · exact hxs.2 t ht
  · exact h.2 t (by simp [ht])

theorem Bracketed.mid {pre span post : List Token} (h : Bracketed (pre ++ span ++ post))
    (hspan : Balanced span) : Bracketed span :=
  ⟨h.1.mid hspan, fun t ht => h.2 t (by simp [ht])⟩

theorem drop_add_of_drop_eq {ws span rest : List Token} {i : Nat} (h : ws.drop i = span ++ rest) :
    ws.drop (i + span.length) = rest := by
  rw [← List.drop_drop, h, List.drop_left]

theorem drop_eq_slice_append (ws : List Token) {start stop : Nat} (hle : start ≤ stop) :
    ws.drop start = Builtin.slice ws start stop ++ ws.drop stop := by
  have h := List.take_append_drop (stop - start) (ws.drop start)
  rw [List.drop_drop, Nat.add_sub_cancel' hle] at h
  exact h.symm

/-- Replacing a balanced span at the start of the tokens from `pos` on by a
bracketed sequence keeps a workspace bracketed. -/
theorem Bracketed.rewrite {ws span rest xs : List Token} {pos : Nat} (h : Bracketed ws)
    (hdrop : ws.drop pos = span ++ rest) (hspan : Balanced span) (hxs : Bracketed xs) :
    Bracketed (ws.take pos ++ xs ++ rest) := by
  have hws : ws.take pos ++ span ++ rest = ws := by
    rw [List.append_assoc, ← hdrop, List.take_append_drop]
  rw [← hws] at h
  exact h.splice hspan hxs

theorem Bracketed.splice_at {ws xs : List Token} {start stop : Nat} (h : Bracketed ws)
    (hle : start ≤ stop) (hspan : Balanced (Builtin.slice ws start stop)) (hxs : Bracketed xs) :
    Bracketed (Tokens.splice ws start stop xs) :=
  h.rewrite (drop_eq_slice_append ws hle) hspan hxs

/-! ### Sequences with the same brackets -/

/-- Two tokens that stand alike for the brackets: the same token, or two that are no bracket. -/
def SameBracket (a b : Token) : Prop := a = b ∨ (a.isBracket = false ∧ b.isBracket = false)

theorem depthStep_congr {a b : Token} (h : SameBracket a b) (d : Nat) :
    depthStep d a = depthStep d b := by
  rcases h with rfl | ⟨ha, hb⟩
  · rfl
  · rw [depthStep_of_not_bracket ha, depthStep_of_not_bracket hb]

theorem awaitStep_congr {a b : Token} (h : SameBracket a b) (aw : List String) :
    awaitStep aw a = awaitStep aw b := by
  rcases h with rfl | ⟨ha, hb⟩
  · rfl
  · rw [awaitStep_of_not_bracket ha, awaitStep_of_not_bracket hb]

theorem depthAfter_congr {xs ys : List Token} (h : List.Forall₂ SameBracket xs ys) (d : Nat) :
    depthAfter d xs = depthAfter d ys := by
  induction h generalizing d with
  | nil => rfl
  | cons hab _ ih =>
    rw [depthAfter_cons, depthAfter_cons, depthStep_congr hab]
    simp only [ih]

theorem awaiting_congr {xs ys : List Token} (h : List.Forall₂ SameBracket xs ys)
    (aw : List String) : awaiting aw xs = awaiting aw ys := by
  induction h generalizing aw with
  | nil => rfl
  | cons hab _ ih =>
    rw [awaiting_cons, awaiting_cons, awaitStep_congr hab]
    simp only [ih]

end Tokens

/-! ### What a template binds -/

namespace Token

/-- Whether no variable in the token, at any depth, has the category `symbol`. -/
def noSymbolVars : Token → Bool
  | .var _ c => c != .symbol
  | .list xs => items xs
  | .map es => entries es
  | .listCap h t => noSymbolVars h && noSymbolVars t
  | .mapCap k v r => noSymbolVars k && noSymbolVars v && noSymbolVars r
  | _ => true
where
  /-- Whether no item holds a symbol variable. -/
  items : List Token → Bool
    | [] => true
    | x :: xs => noSymbolVars x && items xs
  /-- Whether no key and no value holds a symbol variable. -/
  entries : List (Token × Token) → Bool
    | [] => true
    | (k, v) :: es => noSymbolVars k && noSymbolVars v && entries es

theorem noSymbolVars_list (xs : List Token) :
    (list xs).noSymbolVars = true ↔ ∀ x ∈ xs, x.noSymbolVars = true := by
  simp only [noSymbolVars]
  induction xs with
  | nil => simp [noSymbolVars.items]
  | cons x xs ih => simp [noSymbolVars.items, ih]

end Token

/-- Bindings of inert tokens only. -/
def Bindings.Inert (b : Bindings) : Prop := ∀ q ∈ b, q.2.Inert

namespace Pattern

theorem matchAll_inert {pairs : List (Token × Token)}
    (hone : ∀ p ∈ pairs, ∀ binds b, Bindings.Inert binds → b ∈ matchOne p.1 p.2 binds →
      Bindings.Inert b)
    {binds b : Bindings} (hbinds : binds.Inert) (hb : b ∈ matchAll pairs binds) : b.Inert := by
  induction pairs generalizing binds with
  | nil =>
    rw [matchAll_nil, List.mem_singleton] at hb
    rw [hb]
    exact hbinds
  | cons p pairs ih =>
    obtain ⟨pat, val⟩ := p
    rw [matchAll_cons] at hb
    obtain ⟨b₁, hb₁, hb⟩ := List.mem_flatMap.1 hb
    exact ih (fun q hq => hone q (List.mem_cons_of_mem _ hq))
      (hone _ List.mem_cons_self _ _ hbinds hb₁) hb

/-- A pattern without symbol variables, matched against a
token free of maps with bracket values, adds only inert bindings. The induction is on a bound
on the pattern's size, since a list pattern hands its items to `matchAll`. -/
theorem matchOne_inert (n : Nat) : ∀ (pat val : Token) (binds b : Bindings), sizeOf pat < n →
    pat.noSymbolVars = true → val.bracketFreeMaps = true → binds.Inert →
    b ∈ matchOne pat val binds → b.Inert := by
  induction n with
  | zero => intro pat _ _ _ hsize; omega
  | succ n ih =>
    intro pat val binds b hsize hpat hval hbinds hb
    cases pat with
    | var name cat =>
      have hcat : cat ≠ .symbol := by simpa [Token.noSymbolVars] using hpat
      rw [matchOne_var] at hb
      split at hb
      · simp at hb
      · rename_i hacc
        -- a fresh name binds the value, which its category keeps from being a bracket
        have hv : val.Inert :=
          ⟨Token.isBracket_of_accepts hcat (by simpa using hacc), hval⟩
        split at hb
        · split at hb
          · rw [List.mem_singleton.1 hb]
            exact hbinds
          · simp at hb
        · rw [List.mem_singleton.1 hb]
          intro q hq
          rcases List.mem_append.1 hq with hq | hq
          · exact hbinds q hq
          · rw [List.mem_singleton.1 hq]
            exact hv
    | listCap h t =>
      simp only [Token.noSymbolVars, Bool.and_eq_true] at hpat
      have hh : sizeOf h < n := by simp only [Token.listCap.sizeOf_spec] at hsize; omega
      have ht : sizeOf t < n := by simp only [Token.listCap.sizeOf_spec] at hsize; omega
      cases val with
      | list items =>
        cases items with
        | nil => simp [matchOne_listCap_of] at hb
        | cons x xs =>
          rw [Token.bracketFreeMaps_list] at hval
          rw [matchOne_listCap] at hb
          obtain ⟨b₁, hb₁, hb⟩ := List.mem_flatMap.1 hb
          have hb₁' := ih h x binds b₁ hh hpat.1 (hval x List.mem_cons_self) hbinds hb₁
          exact ih t _ b₁ b ht hpat.2
            ((Token.bracketFreeMaps_list xs).2 fun y hy => hval y (List.mem_cons_of_mem _ hy))
            hb₁' hb
      | _ => simp [matchOne_listCap_of] at hb
    | mapCap k v r =>
      simp only [Token.noSymbolVars, Bool.and_eq_true] at hpat
      obtain ⟨⟨hk, hv⟩, hr⟩ := hpat
      have hsk : sizeOf k < n := by simp only [Token.mapCap.sizeOf_spec] at hsize; omega
      have hsv : sizeOf v < n := by simp only [Token.mapCap.sizeOf_spec] at hsize; omega
      have hsr : sizeOf r < n := by simp only [Token.mapCap.sizeOf_spec] at hsize; omega
      cases val with
      | map es =>
        have hes : Entries.Inert es := (Token.bracketFreeMaps_map es).1 hval
        rw [matchOne_mapCap] at hb
        -- the chosen entry's key and value, and the map without it
        obtain ⟨p, hp, hb⟩ := List.mem_flatMap.1 hb
        have hpe := hes _ (List.fst_mem_of_mem_zipIdx hp)
        obtain ⟨b₂, hb₂, hb⟩ := List.mem_flatMap.1 hb
        obtain ⟨b₁, hb₁, hb₂⟩ := List.mem_flatMap.1 hb₂
        have h₁ := ih k _ binds b₁ hsk hk hpe.1 hbinds hb₁
        have h₂ := ih v _ b₁ b₂ hsv hv hpe.2.2 h₁ hb₂
        exact ih r _ b₂ b hsr hr
          ((Token.bracketFreeMaps_map _).2 (Entries.All.eraseAt hes p.2)) h₂ hb
      | _ => simp [matchOne] at hb
    | list ps =>
      rw [matchOne_list] at hb
      split at hb
      · split at hb
        · rw [List.mem_singleton.1 hb]
          exact hbinds
        · simp at hb
      · split at hb
        · rename_i xs
          split at hb
          · refine matchAll_inert (fun p hp binds' b' hbinds' hb' => ?_) hbinds hb
            -- each pair is an item of the pattern against an item of the value
            have hpin := List.of_mem_zip hp
            have hsp : sizeOf p.1 < n := by
              have := List.sizeOf_lt_of_mem hpin.1
              simp only [Token.list.sizeOf_spec] at hsize
              omega
            exact ih p.1 p.2 binds' b' hsp ((Token.noSymbolVars_list ps).1 hpat _ hpin.1)
              ((Token.bracketFreeMaps_list xs).1 hval _ hpin.2) hbinds' hb'
          · simp at hb
        · simp at hb
    | num _ | text _ | bool _ | sym _ | map _ =>
      rw [matchOne_of_literal (by simp) (by simp) (by simp) (by simp)] at hb
      split at hb
      · rw [List.mem_singleton.1 hb]
        exact hbinds
      · simp at hb

end Pattern

namespace Template

/-- The first match of a template without symbol variables
in a workspace free of maps with bracket values binds inert tokens only. -/
theorem inert_of_firstMatch {tmpl ws : List Token} {pos : Int} {bs : Bindings}
    (htmpl : ∀ p ∈ tmpl, p.noSymbolVars = true) (hws : ∀ t ∈ ws, t.bracketFreeMaps = true)
    (h : firstMatch tmpl ws pos = some bs) : bs.Inert := by
  rw [firstMatch_eq_head, allMatches] at h
  split at h
  · simp at h
  · refine Pattern.matchAll_inert (fun p hp binds b hbinds hb => ?_) (by simp [Bindings.Inert])
      (List.mem_of_mem_head? h)
    have hpin := List.of_mem_zip hp
    exact Pattern.matchOne_inert _ p.1 p.2 binds b (Nat.lt_succ_self _) (htmpl _ hpin.1)
      (hws _ (List.mem_of_mem_drop hpin.2)) hbinds hb

end Template

theorem Bindings.Inert.lookup {b : Bindings} (h : b.Inert) {name : String} {t : Token}
    (ht : b.lookup name = some t) : t.Inert := by
  obtain ⟨l₁, l₂, hb, -⟩ := List.lookup_eq_some_iff.1 ht
  exact h (name, t) (by simp [hb])

namespace Library

theorem sameBracket_of_fitsToken {p t : Token} (hp : ∀ n, p ≠ .var n .symbol)
    (h : fitsToken p t = true) : Tokens.SameBracket p t := by
  cases p with
  | sym s =>
    rw [fitsToken_sym, Token.isSym_eq_true] at h
    exact .inl h.symm
  | var n c =>
    have hc : c ≠ .symbol := fun hc => hp n (hc ▸ rfl)
    rw [fitsToken_var n hc] at h
    exact .inr ⟨rfl, Token.isBracket_of_accepts hc h⟩
  | _ =>
    refine .inr ⟨rfl, Token.isBracket_of_ne_sym ?_⟩
    rintro s rfl
    simp [fitsToken, Segment.ofSubject, Segment.ofTemplate, Token.kind] at h

theorem forall₂_sameBracket_of_fits {tmpl ws : List Token}
    (hsym : ∀ n, Token.var n .symbol ∉ tmpl) (h : fits tmpl ws 0 = true) :
    List.Forall₂ Tokens.SameBracket tmpl (ws.take tmpl.length) := by
  induction tmpl generalizing ws with
  | nil => simp
  | cons p tmpl ih =>
    cases ws with
    | nil => simp at h
    | cons t ws =>
      rw [fits_cons_cons, Bool.and_eq_true] at h
      have hp : ∀ n, p ≠ .var n .symbol := fun n hn => hsym n (hn ▸ List.mem_cons_self)
      exact .cons (sameBracket_of_fitsToken hp h.1)
        (ih (fun n hn => hsym n (List.mem_cons_of_mem _ hn)) h.2)

/-- Where a balanced template without symbol variables fits,
the span it covers is balanced. -/
theorem balanced_slice_of_fits {tmpl ws : List Token} {pos : Nat}
    (hsym : ∀ n, Token.var n .symbol ∉ tmpl) (hbal : Tokens.Balanced tmpl)
    (h : fits tmpl ws pos = true) :
    pos + tmpl.length ≤ ws.length ∧ Tokens.Balanced (Builtin.slice ws pos (pos + tmpl.length)) := by
  have hlen : tmpl.length + pos ≤ ws.length := by
    simp only [fits, Bool.and_eq_true, decide_eq_true_eq] at h
    exact h.1
  refine ⟨by omega, ?_⟩
  rw [fits_drop tmpl ws (by omega)] at h
  have hsame := forall₂_sameBracket_of_fits hsym h
  unfold Tokens.Balanced at hbal ⊢
  rw [Builtin.slice, Nat.add_sub_cancel_left, ← Tokens.depthAfter_congr hsame]
  exact hbal

end Library

end Reckon

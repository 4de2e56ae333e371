import Reckon.Rule.Compile

/-!
# Well-bracketed token sequences

The bracket symbols are `(` `)`, `[` `]` and `{` `}`. A sequence is well bracketed when they
nest and every closer is the one its opener awaits. `Tokens.awaiting` reads a sequence with the
stack of closers still awaited, innermost first, as the compiler checks a replacement; a
sequence is well bracketed when, read from no awaited closer, it ends awaiting none.

The built-in rules do not look at the kind of a bracket: they count openers up and closers
down alike (`Tokens.depthAfter`). A sequence whose count comes back to zero without going below
is balanced (`Tokens.Balanced`); a well-bracketed sequence is balanced, and a balanced one read
on top of any stack leaves that stack as it found it.

Main statements: replacing a balanced span of a well-bracketed sequence by a well-bracketed
sequence keeps it well bracketed (`Tokens.WellBracketed.splice`), and a balanced span of a
well-bracketed sequence is well bracketed itself (`Tokens.WellBracketed.mid`).
-/

namespace Reckon

/-- Whether the token is a bracket symbol. -/
def Token.isBracket (t : Token) : Bool := Tokens.opens t || Tokens.closes t

namespace Tokens

/-- The closer a token awaits when it opens a bracket. -/
def closerOf? (t : Token) : Option String := t.symName?.bind Compiler.closerOf

/-- One token read with the stack `aw` of closers awaited, innermost first: an opener pushes
its closer, and a closer must be the one on top and pops it. -/
def awaitStep (aw : List String) (t : Token) : Option (List String) :=
  match closerOf? t with
  | some c => some (c :: aw)
  | none =>
    if closes t then
      match aw with
      | c :: rest => if t.isSym c then some rest else none
      | [] => none
    else some aw

/-- The closers still awaited after the sequence, read on top of the stack `aw`; none when a
closer is not the one awaited. -/
def awaiting (aw : List String) (ts : List Token) : Option (List String) :=
  ts.foldlM awaitStep aw

/-- A well-bracketed sequence: read from no awaited closer, it ends awaiting none. -/
def WellBracketed (ts : List Token) : Prop := awaiting [] ts = some []

instance : DecidablePred WellBracketed :=
  fun ts => inferInstanceAs (Decidable (awaiting [] ts = some []))

/-- One token read at bracket depth `d`: an opener counts one up and a closer one down, of
whatever kind; none below zero. -/
def depthStep (d : Nat) (t : Token) : Option Nat :=
  if opens t then some (d + 1)
  else if closes t then
    match d with
    | 0 => none
    | d + 1 => some d
  else some d

/-- The bracket depth after the sequence, from depth `d`. -/
def depthAfter (d : Nat) (ts : List Token) : Option Nat :=
  ts.foldlM depthStep d

/-- A balanced sequence: its bracket count comes back to zero and never goes below. -/
def Balanced (ts : List Token) : Prop := depthAfter 0 ts = some 0

instance : DecidablePred Balanced :=
  fun ts => inferInstanceAs (Decidable (depthAfter 0 ts = some 0))

/-! ### Reading token by token -/

@[simp] theorem awaiting_nil (aw : List String) : awaiting aw [] = some aw := rfl

theorem awaiting_cons (aw : List String) (t : Token) (ts : List Token) :
    awaiting aw (t :: ts) = (awaitStep aw t).bind fun aw' => awaiting aw' ts := rfl

theorem awaiting_append (aw : List String) (xs ys : List Token) :
    awaiting aw (xs ++ ys) = (awaiting aw xs).bind fun aw' => awaiting aw' ys := by
  simp only [awaiting, List.foldlM_append]
  rfl

@[simp] theorem depthAfter_nil (d : Nat) : depthAfter d [] = some d := rfl

theorem depthAfter_cons (d : Nat) (t : Token) (ts : List Token) :
    depthAfter d (t :: ts) = (depthStep d t).bind fun e => depthAfter e ts := rfl

theorem depthAfter_append (d : Nat) (xs ys : List Token) :
    depthAfter d (xs ++ ys) = (depthAfter d xs).bind fun e => depthAfter e ys := by
  simp only [depthAfter, List.foldlM_append]
  rfl

theorem opens_eq_isSome (t : Token) : opens t = (closerOf? t).isSome := by
  cases t with
  | sym s =>
    simp only [opens, Token.isSym, closerOf?, Token.symName?, Option.bind_some, Compiler.closerOf]
    by_cases h1 : s = "(" <;> by_cases h2 : s = "[" <;> by_cases h3 : s = "\x7b" <;> simp_all
  | _ => rfl

theorem closerOf?_eq_none {t : Token} (h : opens t = false) : closerOf? t = none := by
  rw [opens_eq_isSome] at h
  simpa using h

theorem awaitStep_of_not_bracket {t : Token} (ht : t.isBracket = false) (aw : List String) :
    awaitStep aw t = some aw := by
  simp only [Token.isBracket, Bool.or_eq_false_iff] at ht
  simp [awaitStep, closerOf?_eq_none ht.1, ht.2]

theorem depthStep_of_not_bracket {t : Token} (ht : t.isBracket = false) (d : Nat) :
    depthStep d t = some d := by
  simp only [Token.isBracket, Bool.or_eq_false_iff] at ht
  simp [depthStep, ht.1, ht.2]

theorem awaiting_cons_of_not_bracket {t : Token} (ht : t.isBracket = false) (aw : List String)
    (ts : List Token) : awaiting aw (t :: ts) = awaiting aw ts := by
  rw [awaiting_cons, awaitStep_of_not_bracket ht]
  rfl

theorem depthAfter_cons_of_not_bracket {t : Token} (ht : t.isBracket = false) (d : Nat)
    (ts : List Token) : depthAfter d (t :: ts) = depthAfter d ts := by
  rw [depthAfter_cons, depthStep_of_not_bracket ht]
  rfl

theorem depthStep_of_awaitStep {aw aw' : List String} {t : Token}
    (h : awaitStep aw t = some aw') : depthStep aw.length t = some aw'.length := by
  unfold awaitStep at h
  cases hc : closerOf? t with
  | some c =>
    rw [hc] at h
    cases h
    have hop : opens t = true := by rw [opens_eq_isSome, hc]; rfl
    simp [depthStep, hop]
  | none =>
    rw [hc] at h
    have hop : opens t = false := by rw [opens_eq_isSome, hc]; rfl
    by_cases hcl : closes t = true
    · rw [if_pos hcl] at h
      cases aw with
      | nil => simp at h
      | cons c rest =>
        simp only at h
        split at h
        · cases h
          simp [depthStep, hop, hcl]
        · simp at h
    · rw [if_neg hcl] at h
      cases h
      simp [depthStep, hop, hcl]

theorem depthAfter_of_awaiting {aw aw' : List String} {ts : List Token}
    (h : awaiting aw ts = some aw') : depthAfter aw.length ts = some aw'.length := by
  induction ts generalizing aw with
  | nil =>
    cases h
    rfl
  | cons t ts ih =>
    rw [awaiting_cons] at h
    obtain ⟨aw₁, h₁, hrest⟩ := Option.bind_eq_some_iff.1 h
    rw [depthAfter_cons, depthStep_of_awaitStep h₁]
    exact ih hrest

theorem depthAfter_add {d e : Nat} {ts : List Token} (h : depthAfter d ts = some e) (k : Nat) :
    depthAfter (d + k) ts = some (e + k) := by
  induction ts generalizing d with
  | nil =>
    cases h
    rfl
  | cons t ts ih =>
    rw [depthAfter_cons] at h ⊢
    obtain ⟨d₁, h₁, hrest⟩ := Option.bind_eq_some_iff.1 h
    have hstep : depthStep (d + k) t = some (d₁ + k) := by
      unfold depthStep at h₁ ⊢
      split at h₁
      · cases h₁
        simp_all [Nat.add_right_comm]
      · split at h₁
        · rename_i hop hcl
          simp only [hop, hcl, Bool.false_eq_true, if_false, if_true]
          cases d with
          | zero => simp at h₁
          | succ d =>
            cases h₁
            rw [Nat.add_right_comm]
        · cases h₁
          simp_all
    rw [hstep]
    exact ih hrest

/-! ### Frames: a stack below the count -/

theorem awaitStep_append {top : List String} {t : Token} {e : Nat}
    (h : depthStep top.length t = some e) (aw : List String) :
    awaitStep (top ++ aw) t = (awaitStep top t).map (· ++ aw) := by
  unfold awaitStep
  cases hc : closerOf? t with
  | some c => rfl
  | none =>
    have hop : opens t = false := by rw [opens_eq_isSome, hc]; rfl
    by_cases hcl : closes t = true
    · simp only [hcl, if_true]
      cases top with
      | nil => simp [depthStep, hop, hcl] at h
      | cons c rest =>
        simp only [List.cons_append]
        split <;> rfl
    · simp [hcl]

theorem awaiting_frame {top : List String} {ts : List Token} {e : Nat}
    (h : depthAfter top.length ts = some e) (aw : List String) :
    awaiting (top ++ aw) ts = (awaiting top ts).map (· ++ aw) := by
  induction ts generalizing top with
  | nil => rfl
  | cons t ts ih =>
    rw [depthAfter_cons] at h
    obtain ⟨d₁, h₁, hrest⟩ := Option.bind_eq_some_iff.1 h
    rw [awaiting_cons, awaiting_cons, awaitStep_append h₁]
    cases hstep : awaitStep top t with
    | none => rfl
    | some top' =>
      -- the stack after the token is as deep as the count after it
      rw [depthStep_of_awaitStep hstep] at h₁
      cases h₁
      exact ih hrest

theorem WellBracketed.awaiting {ts : List Token} (h : WellBracketed ts) (aw : List String) :
    awaiting aw ts = some aw := by
  have hd := depthAfter_of_awaiting h
  have := @awaiting_frame [] ts 0 hd aw
  simpa [show Tokens.awaiting [] ts = some [] from h] using this

theorem WellBracketed.balanced {ts : List Token} (h : WellBracketed ts) : Balanced ts :=
  depthAfter_of_awaiting h

theorem Balanced.awaiting {ts : List Token} (h : Balanced ts) {aw aw' : List String}
    (h' : awaiting aw ts = some aw') : aw' = aw ∧ WellBracketed ts := by
  have hframe := @awaiting_frame [] ts 0 h aw
  rw [List.nil_append, h'] at hframe
  obtain ⟨m, hm, hm'⟩ := Option.map_eq_some_iff.1 hframe.symm
  have hlen : depthAfter 0 ts = some m.length := depthAfter_of_awaiting hm
  rw [show depthAfter 0 ts = some 0 from h] at hlen
  have hnil : m = [] := List.eq_nil_of_length_eq_zero (Option.some.inj hlen).symm
  subst hnil
  exact ⟨hm'.symm, hm⟩

/-! ### Splicing -/

/-- Replacing a balanced span of a well-bracketed sequence by a
well-bracketed sequence gives a well-bracketed sequence. -/
theorem WellBracketed.splice {pre span post xs : List Token}
    (h : WellBracketed (pre ++ span ++ post)) (hspan : Balanced span) (hxs : WellBracketed xs) :
    WellBracketed (pre ++ xs ++ post) := by
  unfold WellBracketed at h ⊢
  rw [List.append_assoc, awaiting_append] at h ⊢
  obtain ⟨st, hpre, hrest⟩ := Option.bind_eq_some_iff.1 h
  rw [awaiting_append] at hrest
  obtain ⟨st₂, hmid, hpost⟩ := Option.bind_eq_some_iff.1 hrest
  -- the span leaves the stack after `pre` as it found it, and so does `xs`
  obtain ⟨rfl, -⟩ := hspan.awaiting hmid
  rw [hpre, Option.bind_some, awaiting_append, hxs.awaiting, Option.bind_some]
  exact hpost

theorem WellBracketed.mid {pre span post : List Token} (h : WellBracketed (pre ++ span ++ post))
    (hspan : Balanced span) : WellBracketed span := by
  unfold WellBracketed at h
  rw [List.append_assoc, awaiting_append] at h
  obtain ⟨st, -, hrest⟩ := Option.bind_eq_some_iff.1 h
  rw [awaiting_append] at hrest
  obtain ⟨st₂, hmid, -⟩ := Option.bind_eq_some_iff.1 hrest
  exact (hspan.awaiting hmid).2

theorem WellBracketed.depthAfter_suffix {pre xs : List Token} (h : WellBracketed (pre ++ xs))
    {e : Nat} (hxs : depthAfter 0 xs = some e) : e = 0 := by
  have hb : depthAfter 0 (pre ++ xs) = some 0 := h.balanced
  rw [depthAfter_append] at hb
  obtain ⟨p, -, hp⟩ := Option.bind_eq_some_iff.1 hb
  have hshift := depthAfter_add hxs p
  rw [Nat.zero_add] at hshift
  rw [hshift] at hp
  have := Option.some.inj hp
  omega

end Tokens

end Reckon

import Mathlib.Tactic.Positivity
import Reckon.Proofs.Arith.Text

/-!
# The tokens a line lexes to

The lexer gives five kinds of token: exact numbers, texts, booleans, operator symbols, and
words, a word being a letter or an underscore followed by letters, digits and underscores,
and never `true` or `false`, which are booleans (`Lexer.Readable`).

A number it reads is never negative: its literal starts with a digit or a point
(`Lexer.scanNumber_nonneg`). So a negative number comes only from a minus sign read where an
operand starts, with no power after it: it starts the line or follows an opening symbol, and
neither `^` nor the word `to` comes right after it. `Lexer.ReadSoFar` states this of the
tokens read so far, last first, and every sequence a line lexes to satisfies it
(`Tokens.lex_readSoFar`). The proof follows the lexer's branches (`Lexer.run_readSoFar`).
-/

namespace Reckon

/-! ### Literals without a sign are not negative -/

namespace Literal

theorem mkRat_natCast_nonneg (n d : Nat) : 0 ≤ mkRat (n : Int) d := by
  rw [Rat.mkRat_eq_div]
  positivity

theorem scanSign_fst {cs : List Char} (h : cs.head? ≠ some '-') : (scanSign cs).1 = false := by
  rcases cs with _ | ⟨x, xs⟩
  · rfl
  · unfold scanSign
    split <;> simp_all

theorem readDecimal_nonneg {cs : List Char} {q : Rat} (h : readDecimal cs = some q)
    (hs : (scanSign cs).1 = false) : 0 ≤ q := by
  unfold readDecimal at h
  rcases hsign : scanSign cs with ⟨neg, r⟩
  rw [hsign] at h hs
  simp only at hs
  subst hs
  simp only [Option.bind_eq_bind, Option.bind_eq_some_iff, Bool.false_eq_true, if_false] at h
  obtain ⟨m, -, e, -, h⟩ := h
  -- every value it can give is `0` or a fraction of natural numbers
  split_ifs at h <;> simp only [Option.some.injEq] at h <;> subst h
  all_goals first | exact le_refl 0 | exact mkRat_natCast_nonneg _ _

theorem readFraction_nonneg {a b : List Char} {q : Rat} (h : readFraction a b = some q)
    (hs : (scanSign a).1 = false) : 0 ≤ q := by
  unfold readFraction at h
  rcases hsign : scanSign a with ⟨neg, r⟩
  rw [hsign] at h hs
  simp only at hs
  subst hs
  simp only [Option.bind_eq_bind, Bool.false_eq_true, if_false] at h
  split_ifs at h
  simp only [Option.bind_eq_some_iff] at h
  obtain ⟨p, -, m, -, h⟩ := h
  split_ifs at h
  simp only [Option.some.injEq] at h
  subst h
  exact mkRat_natCast_nonneg _ _

end Literal

theorem readNumber?_nonneg {s : String} {q : Rat} (h : readNumber? s = some q)
    (hs : s.toList.head? ≠ some '-') : 0 ≤ q := by
  unfold readNumber? at h
  dsimp only at h
  split_ifs at h with hempty
  split at h
  · rename_i i hi
    refine Literal.readFraction_nonneg h (Literal.scanSign_fst ?_)
    rcases i with _ | i
    · simp [Literal.readFraction, Literal.scanSign] at h
    · simpa [List.head?_take] using hs
  · exact Literal.readDecimal_nonneg h (Literal.scanSign_fst hs)

namespace Lexer

/-! ### Reading characters -/

namespace Cursor

@[simp] theorem advance_rest (c : Cursor) : c.advance.rest = c.rest.tail := by
  rcases c with ⟨_ | ⟨x, xs⟩, l, col⟩
  · rfl
  · simp only [advance]
    split <;> rfl

theorem takeWhile_spec (p : Char → Bool) (c : Cursor) (acc : List Char) :
    ∃ taken, (takeWhile p c acc).1 = acc.reverse ++ taken ∧
      c.rest = taken ++ (takeWhile p c acc).2.rest ∧ (∀ y ∈ taken, p y = true) ∧
      ∀ y ∈ (takeWhile p c acc).2.rest.head?, p y = false := by
  fun_induction takeWhile p c acc with
  | case1 c acc h => exact ⟨[], by simp, by simp [h], by simp, by simp [h]⟩
  | case2 c acc x tail h hx _ ih =>
    obtain ⟨taken, h₁, h₂, h₃, h₄⟩ := ih
    refine ⟨x :: taken, by simp [h₁], ?_, ?_, h₄⟩
    · rw [advance_rest, h] at h₂
      simp [h, ← h₂]
    · intro y hy
      rcases List.mem_cons.1 hy with rfl | hy
      · exact hx
      · exact h₃ y hy
  | case3 c acc x tail h hx => exact ⟨[], by simp, by simp, by simp, by simp [h, hx]⟩

end Cursor

theorem scanFraction_head (whole : List Char) (c : Cursor) :
    ∀ y ∈ (scanFraction whole c).1.head?, y = '0' ∨ y = '.' := by
  unfold scanFraction
  split
  · cases whole <;> simp
  · simp

theorem scanExponent_head (c : Cursor) : ∀ y ∈ (scanExponent c).1.head?, y = 'e' ∨ y = 'E' := by
  unfold scanExponent
  dsimp only
  split
  · rename_i h
    simp only [Bool.and_eq_true, Bool.or_eq_true, beq_iff_eq] at h
    simpa using h.1
  · simp

theorem scanNumber_nonneg {c c' : Cursor} {n : Number} (h : scanNumber c = .ok (n, c')) :
    ∃ q, n = .exact q ∧ 0 ≤ q := by
  unfold scanNumber at h
  dsimp only at h
  obtain ⟨whole, hw₁, -, hdig, -⟩ := Cursor.takeWhile_spec isDigit c []
  generalize Cursor.takeWhile isDigit c [] = r₁ at h hw₁
  have hfrac := scanFraction_head r₁.1 r₁.2
  generalize scanFraction r₁.1 r₁.2 = r₂ at h hfrac
  have hexpo := scanExponent_head r₂.2
  generalize scanExponent r₂.2 = r₃ at h hexpo
  have hdigit : ∀ y ∈ r₁.1, isDigit y = true := by simpa [hw₁] using hdig
  split at h
  · rename_i q hq
    simp only [Except.ok.injEq, Prod.mk.injEq] at h
    refine ⟨q, h.1.symm, readNumber?_nonneg hq ?_⟩
    rw [String.toList_ofList]
    -- the head is a digit, a `0` or point of the fraction, or an exponent mark
    intro hhead
    rcases hw : r₁.1 with _ | ⟨d, ds⟩
    · rw [hw, List.nil_append] at hhead
      rcases hr₂ : r₂.1 with _ | ⟨f, fs⟩
      · rw [hr₂, List.nil_append] at hhead
        rcases hexpo '-' hhead with h | h <;> cases h
      · rw [hr₂, List.cons_append, List.head?_cons, Option.some.injEq] at hhead
        subst hhead
        rcases hfrac '-' (by simp [hr₂]) with h | h <;> cases h
    · rw [hw, List.cons_append, List.cons_append, List.head?_cons, Option.some.injEq] at hhead
      subst hhead
      rw [hw] at hdigit
      exact absurd (hdigit '-' (List.mem_cons_self ..)) (by decide)
  · simp at h

/-! ### Whether a power follows -/

theorem powerFollows_advance {c : Cursor} {x : Char} {tail : List Char} (hc : c.rest = x :: tail)
    (hx : Text.isBlank x = true) : powerFollows c.advance = powerFollows c := by
  simp [powerFollows, hc, hx]

theorem powerFollows_caret {c : Cursor} {r : List Char} (hc : c.rest = '^' :: r) :
    powerFollows c = true := by
  simp [powerFollows, hc, (by decide : Text.isBlank '^' = false)]

theorem powerFollows_to {c : Cursor} {r : List Char} (hc : c.rest = 't' :: 'o' :: r)
    (hr : ∀ y ∈ r.head?, isWordChar y = false) : powerFollows c = true := by
  have hnul : isWordChar '\x00' = false := by
    set_option maxRecDepth 8192 in with_unfolding_all rfl
  simp only [powerFollows, hc, (by decide : Text.isBlank 't' = false), List.dropWhile_cons,
    Bool.false_eq_true, if_false, Bool.not_eq_eq_eq_not, Bool.not_true]
  cases r with
  | nil => exact hnul
  | cons y r => exact hr y rfl

/-! ### The tokens the lexer gives -/

/-- A word: a letter or an underscore, then letters, digits and underscores. -/
def IsWord (cs : List Char) : Prop :=
  ∃ x xs, cs = x :: xs ∧ isWordStart x = true ∧ ∀ y ∈ xs, isWordChar y = true

/-- A token the lexer gives: an exact number, a text, a boolean, an operator, or a word other
than `true` and `false`, which are read as booleans. -/
def Readable : Token → Prop
  | .num n => n.isExact = true
  | .text _ => True
  | .bool _ => True
  | .sym s => s ∈ operators ∨ (IsWord s.toList ∧ s ≠ "true" ∧ s ≠ "false")
  | _ => False

/-- Whether a token is a negative number. -/
def isNegative : Token → Bool
  | .num (.exact q) => decide (q < 0)
  | _ => false

/-- Tokens as the lexer reads them, last first: each is readable; a negative number starts the
line or follows an opening symbol; and neither `^` nor `to` stands right after a negative
number. -/
def ReadSoFar : List Token → Prop
  | [] => True
  | t :: acc => Readable t ∧ (isNegative t = true → startsOperand acc = true) ∧
      (∀ u ∈ acc.head?, isNegative u = true → t ≠ .sym "^" ∧ t ≠ .sym "to") ∧ ReadSoFar acc

theorem follows_of_ne_sym {t : Token} (h : ∀ s, t ≠ .sym s) (acc : List Token) :
    ∀ u ∈ acc.head?, isNegative u = true → t ≠ .sym "^" ∧ t ≠ .sym "to" :=
  fun _ _ _ => ⟨h _, h _⟩

theorem readSoFar_text {acc : List Token} (hacc : ReadSoFar acc) (s : String) :
    ReadSoFar (.text s :: acc) :=
  ⟨trivial, by simp [isNegative], follows_of_ne_sym (by simp) acc, hacc⟩

theorem readSoFar_unsigned {acc : List Token} (hacc : ReadSoFar acc) {q : Rat} (hq : 0 ≤ q) :
    ReadSoFar (.num (.exact q) :: acc) :=
  ⟨rfl, by simp [isNegative, not_lt.2 hq], follows_of_ne_sym (by simp) acc, hacc⟩

theorem operatorAt_spec {cs : List Char} {op : String} (h : operatorAt cs = some op) :
    op ∈ operators ∧ op.toList <+: cs := by
  unfold operatorAt at h
  have hp : op.toList.isPrefixOf cs = true := List.find?_some (p := fun o : String => o.toList.isPrefixOf cs) h
  exact ⟨List.mem_of_find?_eq_some h, List.isPrefixOf_iff_prefix.1 hp⟩

theorem word_spec {c : Cursor} {x : Char} {tail : List Char} (hc : c.rest = x :: tail) :
    ∃ taken, (Cursor.takeWhile isWordChar c.advance [x]).1 = x :: taken ∧
      c.rest = x :: taken ++ (Cursor.takeWhile isWordChar c.advance [x]).2.rest ∧
      (∀ y ∈ taken, isWordChar y = true) ∧
      ∀ y ∈ (Cursor.takeWhile isWordChar c.advance [x]).2.rest.head?, isWordChar y = false := by
  obtain ⟨taken, h₁, h₂, h₃, h₄⟩ := Cursor.takeWhile_spec isWordChar c.advance [x]
  refine ⟨taken, by simpa using h₁, ?_, h₃, h₄⟩
  rw [Cursor.advance_rest, hc, List.tail_cons] at h₂
  rw [hc, h₂, List.cons_append]

theorem readSoFar_word {c : Cursor} {acc : List Token} {x : Char} {tail : List Char}
    (hc : c.rest = x :: tail) (hx : isWordStart x = true) (hacc : ReadSoFar acc)
    (hpow : ∀ u ∈ acc.head?, isNegative u = true → powerFollows c = false) {w : List Char}
    (hw : (Cursor.takeWhile isWordChar c.advance [x]).1 = w) :
    ReadSoFar ((if w == ['t', 'r', 'u', 'e'] then Token.bool true
      else if w == ['f', 'a', 'l', 's', 'e'] then Token.bool false
      else Token.sym (String.ofList w)) :: acc) := by
  obtain ⟨taken, hw', hrest, htaken, hstop⟩ := word_spec hc
  rw [hw] at hw'
  subst hw'
  split
  · exact ⟨trivial, by simp [isNegative], follows_of_ne_sym (by simp) acc, hacc⟩
  split
  · exact ⟨trivial, by simp [isNegative], follows_of_ne_sym (by simp) acc, hacc⟩
  rename_i htrue hfalse
  have hws : (String.ofList (x :: taken)).toList = x :: taken := String.toList_ofList
  refine ⟨.inr ⟨⟨x, taken, hws, hx, htaken⟩, ?_, ?_⟩, by simp [isNegative], ?_, hacc⟩
  · intro h
    apply htrue
    rw [beq_iff_eq, ← hws, h]
    rfl
  · intro h
    apply hfalse
    rw [beq_iff_eq, ← hws, h]
    rfl
  · intro u hu hneg
    have hnot := hpow u hu hneg
    refine ⟨fun h => ?_, fun h => ?_⟩
    · -- a word never starts with `^`
      have hsym := Token.sym.inj h
      rw [← String.toList_inj, hws] at hsym
      obtain rfl : x = '^' := (List.cons.inj hsym).1
      revert hx
      set_option maxRecDepth 8192 in with_unfolding_all decide
    · -- the word `to` at the cursor is a power
      have hsym := Token.sym.inj h
      rw [← String.toList_inj, hws] at hsym
      obtain ⟨rfl, hto⟩ := List.cons.inj hsym
      obtain rfl : taken = ['o'] := hto
      rw [powerFollows_to hrest hstop] at hnot
      cases hnot

theorem readSoFar_operator {c : Cursor} {acc : List Token} {op : String}
    (h : operatorAt c.rest = some op) (hacc : ReadSoFar acc)
    (hpow : ∀ u ∈ acc.head?, isNegative u = true → powerFollows c = false) :
    ReadSoFar (.sym op :: acc) := by
  obtain ⟨hop, r, hr⟩ := operatorAt_spec h
  refine ⟨.inl hop, by simp [isNegative], ?_, hacc⟩
  intro u hu hneg
  have hnot := hpow u hu hneg
  refine ⟨fun h => ?_, fun h => ?_⟩
  · obtain rfl := Token.sym.inj h
    rw [powerFollows_caret (r := r) hr.symm] at hnot
    cases hnot
  · obtain rfl := Token.sym.inj h
    revert hop
    decide

/-- From readable tokens, where a power follows
the cursor only if the last token is not negative, every sequence the run returns is readable
in order. -/
theorem run_readSoFar {c : Cursor} {acc out : List Token} (hacc : ReadSoFar acc)
    (hpow : ∀ u ∈ acc.head?, isNegative u = true → powerFollows c = false)
    (h : run c acc = .ok out) : ReadSoFar out.reverse := by
  fun_induction run c acc with
  | case1 c acc hc =>
    -- the end of the line
    simp only [Except.ok.injEq] at h
    simpa [← h] using hacc
  | case2 c acc x tail hc _ hx ih =>
    -- a blank is skipped
    exact ih hacc (fun u hu hneg => by rw [powerFollows_advance hc hx]; exact hpow u hu hneg) h
  | case3 => simp at h
  | case4 c acc x tail hc _ _ _ s c' _ _ ih =>
    exact ih (readSoFar_text hacc s) (by simp [isNegative]) h
  | case5 | case8 | case12 =>
    simp only [Except.ok.injEq] at h
    simpa [← h] using hacc
  | case6 => simp at h
  | case7 c acc x tail hc _ _ _ _ n c' hn _ ih =>
    obtain ⟨q, rfl, hq⟩ := scanNumber_nonneg hn
    exact ih (readSoFar_unsigned hacc hq) (by simp [isNegative, not_lt.2 hq]) h
  | case9 => simp at h
  | case10 c acc x tail hc _ _ _ _ _ n c' hn _ _ ih =>
    -- a minus sign before a power stays a symbol, and the number after it is unsigned
    obtain ⟨q, rfl, hq⟩ := scanNumber_nonneg hn
    have hminus : ReadSoFar (.sym "-" :: acc) :=
      ⟨.inl (by decide), by simp [isNegative], fun _ _ _ => by simp, hacc⟩
    exact ih (readSoFar_unsigned hminus hq) (by simp [isNegative, not_lt.2 hq]) h
  | case11 c acc x tail hc _ _ _ _ hminus n c' hn _ hpow' ih =>
    -- a negative number where an operand starts and no power follows
    obtain ⟨q, rfl, hq⟩ := scanNumber_nonneg hn
    simp only [Bool.and_eq_true] at hminus
    refine ih ⟨rfl, fun _ => hminus.2, follows_of_ne_sym (by simp) acc, hacc⟩ ?_ h
    intro u hu _
    simp only [List.head?_cons, Option.mem_some_iff] at hu
    simpa using hpow'
  | case13 c acc x tail hc _ _ _ _ _ hx r _ w t ih =>
    -- a word is a symbol or a boolean, never a negative number
    have hneg : isNegative t = false := by
      simp only [t]
      split <;> (try split) <;> rfl
    exact ih (readSoFar_word hc hx hacc hpow rfl) (by simp [hneg]) h
  | case14 c acc x tail hc _ _ _ _ _ _ op hop c' _ ih =>
    exact ih (readSoFar_operator hop hacc hpow) (by simp [isNegative]) h
  | case15 =>
    simp only [Except.ok.injEq] at h
    simpa [← h] using hacc
  | case16 => simp at h

end Lexer

namespace Tokens

/-- Every sequence of tokens a line lexes to is readable in order:
exact numbers, texts, booleans, operators and words other than `true` and `false`, where a
negative number starts the line or follows an opening symbol and is followed by neither `^`
nor `to`. -/
theorem lex_readSoFar {s : String} {ts : List Token} (h : lex s = .ok ts) :
    Lexer.ReadSoFar ts.reverse := by
  simpa using Lexer.run_readSoFar (c := ⟨s.toList, 1, 1⟩) (show Lexer.ReadSoFar [] from trivial)
    (by simp) h

end Tokens

end Reckon

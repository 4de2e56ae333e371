import Reckon.Proofs.Arith.Text
import Reckon.Proofs.Logic.Formula

/-!
# The text of a formula

A formula is written as its tokens with a single space between two of them (`Formula.text`):
its numbers as decimal literals, its truth values as `true` and `false`, its comparisons as
`== != < > <= >=` and its negations and connectives as the words `not`, `and` and `or`. Such a
text lexes back to the tokens of the formula of its values (`Formula.lex_text`): a comparison is
the longest operator at its place, since a space follows it, and a word is read as the whole run
of its letters.
-/

namespace Reckon

namespace Lexer

/-- The first character of an operator or a word starts no blank, text, number or negative
number, and is no line break. -/
structure Lead (x : Char) : Prop where
  blank : Text.isBlank x = false
  quote : (x == '"' || x == '\'') = false
  digit : isDigit x = false
  dot : (x == '.') = false
  minus : (x == '-') = false
  newline : x ≠ '\n'

theorem Cursor.advanceBy_append {ys : List Char} (hys : ∀ y ∈ ys, y ≠ '\n') (rest : List Char)
    (l c : Nat) : (⟨ys ++ rest, l, c⟩ : Cursor).advanceBy ys.length = ⟨rest, l, c + ys.length⟩ := by
  induction ys generalizing c with
  | nil => rfl
  | cons y ys ih =>
    rw [List.length_cons, Cursor.advanceBy, List.cons_append,
      Cursor.advance_cons (hys y (List.mem_cons_self ..)),
      ih (fun y' h => hys y' (List.mem_cons_of_mem _ h))]
    simp only [Cursor.mk.injEq, true_and]
    omega

theorem run_word {x : Char} {ds : List Char} (hx : isWordStart x = true) (hlead : Lead x)
    (hds : ds.all (fun d => isWordChar d && d != '\n') = true) {rest : List Char}
    (hrest : ∀ y ∈ rest.head?, y = ' ') (l c : Nat) (acc : List Token) :
    run ⟨x :: (ds ++ rest), l, c⟩ acc =
      run ⟨rest, l, c + 1 + ds.length⟩
        ((if x :: ds == ['t', 'r', 'u', 'e'] then .bool true
          else if x :: ds == ['f', 'a', 'l', 's', 'e'] then .bool false
          else .sym (String.ofList (x :: ds))) :: acc) := by
  have hds' : ∀ d ∈ ds, isWordChar d = true ∧ d ≠ '\n' := fun d hd => by
    simpa using List.all_eq_true.1 hds d hd
  have htake := Cursor.takeWhile_append hds' (fun y hy => by rw [hrest y hy]; decide +kernel) l
    (c + 1) [x]
  rw [run]
  simp [Cursor.advance_cons hlead.newline, hlead.blank, hlead.quote, hlead.digit, hlead.dot,
    hlead.minus, hx, htake]

theorem lexes_word {w : String} {x : Char} {ds : List Char} (hw : w.toList = x :: ds)
    (hx : isWordStart x = true) (hlead : Lead x)
    (hds : ds.all (fun d => isWordChar d && d != '\n') = true)
    {t : Token}
    (ht : (if x :: ds == ['t', 'r', 'u', 'e'] then .bool true
      else if x :: ds == ['f', 'a', 'l', 's', 'e'] then .bool false
      else .sym (String.ofList (x :: ds))) = t) : Lexes w t := by
  intro rest l c acc hrest
  rw [hw, List.cons_append, run_word hx hlead hds hrest, ht, List.length_cons]
  congr 2
  omega

theorem lexes_symbol_word {w : String} {x : Char} {ds : List Char} (hw : w.toList = x :: ds)
    (hx : isWordStart x = true) (hlead : Lead x)
    (hds : ds.all (fun d => isWordChar d && d != '\n') = true)
    (hne : (x :: ds == ['t', 'r', 'u', 'e']) = false ∧ (x :: ds == ['f', 'a', 'l', 's', 'e']) = false) :
    Lexes w (.sym w) :=
  lexes_word hw hx hlead hds (by rw [hne.1, hne.2, ← hw, String.ofList_toList]; rfl)

theorem lexes_bool (b : Bool) : Lexes (if b then "true" else "false") (.bool b) := by
  cases b
  · exact lexes_word (by decide +kernel : "false".toList = 'f' :: ['a', 'l', 's', 'e'])
      (by decide +kernel) ⟨by decide +kernel, by decide, by decide +kernel, by decide, by decide,
        by decide⟩ (by decide +kernel) rfl
  · exact lexes_word (by decide +kernel : "true".toList = 't' :: ['r', 'u', 'e'])
      (by decide +kernel) ⟨by decide +kernel, by decide, by decide +kernel, by decide, by decide,
        by decide⟩ (by decide +kernel) rfl

theorem run_operator {s : String} {x : Char} {xs : List Char} (hs : s.toList = x :: xs)
    (hlead : Lead x) (hword : isWordStart x = false) (hnl : ∀ y ∈ xs, y ≠ '\n') {rest : List Char}
    (hop : operatorAt (x :: (xs ++ rest)) = some s) (l c : Nat) (acc : List Token) :
    run ⟨x :: (xs ++ rest), l, c⟩ acc = run ⟨rest, l, c + s.length⟩ (.sym s :: acc) := by
  have hlen : s.length = (x :: xs).length := by rw [← String.length_toList, hs]
  have hadv : (⟨x :: (xs ++ rest), l, c⟩ : Cursor).advanceBy s.length = ⟨rest, l, c + s.length⟩ := by
    rw [hlen, ← List.cons_append]
    exact Cursor.advanceBy_append (by
      rintro y (_ | ⟨_, hy⟩)
      · exact hlead.newline
      · exact hnl y hy) rest l c
  rw [run]
  simp only [hlead.blank, hlead.quote, hlead.digit, hlead.dot, hlead.minus, hword, hop, hadv,
    Bool.false_eq_true, Bool.false_and, Bool.false_or, if_false]
  rw [if_pos (by simp only [List.length_cons, List.length_append]; omega)]

theorem lexes_operator {s : String} {x : Char} {xs : List Char} (hs : s.toList = x :: xs)
    (hlead : Lead x) (hword : isWordStart x = false) (hnl : ∀ y ∈ xs, y ≠ '\n')
    (hop : ∀ rest : List Char, (∀ y ∈ rest.head?, y = ' ') →
      operatorAt (x :: (xs ++ rest)) = some s) : Lexes s (.sym s) := by
  intro rest l c acc hrest
  rw [hs, List.cons_append, run_operator hs hlead hword hnl (hop rest hrest),
    ← String.length_toList, hs]

end Lexer

namespace Logic

open Arith (Expr Numeral)

namespace Rel

theorem lexes (r : Rel) : Lexer.Lexes r.symbol (.sym r.symbol) := by
  -- after `<` or `>` a space or the end makes it no `<=` or `>=`
  have hshort : ∀ rest : List Char, (∀ y ∈ rest.head?, y = ' ') →
      rest = [] ∨ ∃ rest', rest = ' ' :: rest' := by
    rintro (_ | ⟨y, rest'⟩) hrest
    · exact .inl rfl
    · exact .inr ⟨rest', by rw [hrest y rfl]⟩
  have hlead : ∀ x ∈ ['=', '!', '<', '>'], Lexer.Lead x ∧ Lexer.isWordStart x = false := by
    intro x hx
    simp only [List.mem_cons, List.not_mem_nil, or_false] at hx
    rcases hx with rfl | rfl | rfl | rfl <;>
      exact ⟨⟨by decide +kernel, by decide, by decide +kernel, by decide, by decide, by decide⟩,
        by decide +kernel⟩
  cases r
  · exact Lexer.lexes_operator (by decide +kernel : "==".toList = '=' :: ['='])
      (hlead '=' (by simp)).1 (hlead '=' (by simp)).2 (by simp)
      (fun _ _ => by simp [Lexer.operatorAt, Lexer.operators, symbol])
  · exact Lexer.lexes_operator (by decide +kernel : "!=".toList = '!' :: ['='])
      (hlead '!' (by simp)).1 (hlead '!' (by simp)).2 (by simp)
      (fun _ _ => by simp [Lexer.operatorAt, Lexer.operators, symbol])
  · exact Lexer.lexes_operator (by decide +kernel : "<".toList = '<' :: [])
      (hlead '<' (by simp)).1 (hlead '<' (by simp)).2 (by simp)
      (fun rest hrest => by
        rcases hshort rest hrest with rfl | ⟨rest', rfl⟩ <;> simp [Lexer.operatorAt, Lexer.operators, symbol])
  · exact Lexer.lexes_operator (by decide +kernel : ">".toList = '>' :: [])
      (hlead '>' (by simp)).1 (hlead '>' (by simp)).2 (by simp)
      (fun rest hrest => by
        rcases hshort rest hrest with rfl | ⟨rest', rfl⟩ <;> simp [Lexer.operatorAt, Lexer.operators, symbol])
  · exact Lexer.lexes_operator (by decide +kernel : "<=".toList = '<' :: ['='])
      (hlead '<' (by simp)).1 (hlead '<' (by simp)).2 (by simp)
      (fun _ _ => by simp [Lexer.operatorAt, Lexer.operators, symbol])
  · exact Lexer.lexes_operator (by decide +kernel : ">=".toList = '>' :: ['='])
      (hlead '>' (by simp)).1 (hlead '>' (by simp)).2 (by simp)
      (fun _ _ => by simp [Lexer.operatorAt, Lexer.operators, symbol])

end Rel

theorem lexes_not : Lexer.Lexes "not" (.sym "not") :=
  Lexer.lexes_symbol_word (by decide +kernel : "not".toList = 'n' :: ['o', 't']) (by decide +kernel)
    ⟨by decide +kernel, by decide, by decide +kernel, by decide, by decide, by decide⟩
    (by decide +kernel) (by decide)

theorem Connective.lexes (c : Connective) : Lexer.Lexes c.symbol (.sym c.symbol) := by
  cases c
  · exact Lexer.lexes_symbol_word (by decide +kernel : "and".toList = 'a' :: ['n', 'd'])
      (by decide +kernel) ⟨by decide +kernel, by decide, by decide +kernel, by decide, by decide,
        by decide⟩ (by decide +kernel) (by decide)
  · exact Lexer.lexes_symbol_word (by decide +kernel : "or".toList = 'o' :: ['r'])
      (by decide +kernel) ⟨by decide +kernel, by decide, by decide +kernel, by decide, by decide,
        by decide⟩ (by decide +kernel) (by decide)

namespace Formula

/-- The words of the formula's text, one per token. -/
def words : Formula Numeral → List String
  | cmp r x y => x.words ++ r.symbol :: y.words
  | lit b => [if b then "true" else "false"]
  | paren f => "(" :: f.words ++ [")"]
  | not f => "not" :: f.words
  | conn c f g => f.words ++ c.symbol :: g.words

/-- The text of the formula: its words with a single space between two of them. -/
def text (f : Formula Numeral) : String := " ".intercalate f.words

/-- The formula of the values its literals denote, when the reader takes every one. -/
def read : Formula Numeral → Option (Formula Number)
  | cmp r x y => x.read.bind fun x' => y.read.map (cmp r x')
  | lit b => some (lit b)
  | paren f => f.read.map paren
  | not f => f.read.map not
  | conn c f g => f.read.bind fun f' => g.read.map (conn c f')

theorem read_eq_map {f : Formula Numeral} {fv : Formula Number} (h : f.read = some fv) :
    fv = f.map fun n => n.value?.getD (.exact 0) := by
  induction f generalizing fv with
  | cmp r x y =>
    obtain ⟨x', hx, hxy⟩ := Option.bind_eq_some_iff.1 h
    obtain ⟨y', hy, rfl⟩ := Option.map_eq_some_iff.1 hxy
    rw [Expr.read_eq_map hx, Expr.read_eq_map hy]
    rfl
  | lit b =>
    cases h
    rfl
  | paren f ih | not f ih =>
    obtain ⟨fv, hfv, rfl⟩ := Option.map_eq_some_iff.1 h
    rw [ih hfv]
    rfl
  | conn c f g ihf ihg =>
    obtain ⟨f', hf, hfg⟩ := Option.bind_eq_some_iff.1 h
    obtain ⟨g', hg, rfl⟩ := Option.map_eq_some_iff.1 hfg
    rw [ihf hf, ihg hg]
    rfl

theorem words_lexes (f : Formula Numeral) {fv : Formula Number} (h : f.read = some fv) :
    List.Forall₂ Lexer.Lexes f.words fv.tokens := by
  induction f generalizing fv with
  | cmp r x y =>
    obtain ⟨x', hx, hxy⟩ := Option.bind_eq_some_iff.1 h
    obtain ⟨y', hy, rfl⟩ := Option.map_eq_some_iff.1 hxy
    exact List.rel_append (Expr.words_lexes x hx) (.cons r.lexes (Expr.words_lexes y hy))
  | lit b =>
    cases h
    exact .cons (Lexer.lexes_bool b) .nil
  | paren f ih =>
    obtain ⟨fv, hfv, rfl⟩ := Option.map_eq_some_iff.1 h
    exact .cons (Lexer.lexes_symbol (by decide : ('(', "(") ∈ Lexer.symbolChars))
      (List.rel_append (ih hfv)
        (.cons (Lexer.lexes_symbol (by decide : (')', ")") ∈ Lexer.symbolChars)) .nil))
  | not f ih =>
    obtain ⟨fv, hfv, rfl⟩ := Option.map_eq_some_iff.1 h
    exact .cons lexes_not (ih hfv)
  | conn c f g ihf ihg =>
    obtain ⟨f', hf, hfg⟩ := Option.bind_eq_some_iff.1 h
    obtain ⟨g', hg, rfl⟩ := Option.map_eq_some_iff.1 hfg
    exact List.rel_append (ihf hf) (.cons c.lexes (ihg hg))

/-- The text of a formula whose literals are read lexes to the tokens
of the formula of their values. -/
theorem lex_text (f : Formula Numeral) {fv : Formula Number} (h : f.read = some fv) :
    Tokens.lex f.text = .ok fv.tokens := by
  rw [Tokens.lex, text, Lexer.run_intercalate (words_lexes f h)]
  rfl

end Formula

end Logic

end Reckon

import Mathlib.Data.List.Forall2
import Reckon.Proofs.Arith.Expr
import Reckon.Token.Lexer

/-!
# The text of an expression

An expression is written as its tokens with a single space between two of them
(`Expr.text`). Its numbers are non-negative decimal literals (`Numeral`): digits, then a point
and digits, then an exponent mark, a sign and digits, the last two parts optional. Such a
text lexes back to the tokens of the tree of its values (`Expr.lex_text`). Every word is
one token, the spaces are skipped, and a minus sign is never read into a number: a space
follows it.
-/

namespace Reckon

namespace Arith

open Lexer

/-- A nonempty run of decimal digits. -/
def Digits (cs : List Char) : Prop := cs ≠ [] ∧ ∀ c ∈ cs, isDigit c = true

/-- The exponent of a decimal literal: `e` or `E`, an optional sign and digits. -/
structure Exponent where
  mark : Char
  sign : Option Char
  digits : List Char
  mark_ok : mark = 'e' ∨ mark = 'E'
  sign_ok : sign = none ∨ sign = some '+' ∨ sign = some '-'
  digits_ok : Digits digits

/-- A non-negative decimal literal: digits, an optional fraction and an optional exponent. -/
structure Numeral where
  whole : List Char
  fraction : Option (List Char)
  exponent : Option Exponent
  whole_ok : Digits whole
  fraction_ok : ∀ ds, fraction = some ds → Digits ds

namespace Exponent

/-- The characters of the exponent. -/
def chars (x : Exponent) : List Char := x.mark :: (x.sign.toList ++ x.digits)

end Exponent

namespace Numeral

/-- The characters of the literal. -/
def chars (n : Numeral) : List Char :=
  n.whole ++ (n.fraction.map ('.' :: ·)).getD [] ++ (n.exponent.map Exponent.chars).getD []

/-- The text of the literal. -/
def text (n : Numeral) : String := String.ofList n.chars

/-- The number the literal denotes, when the reader takes it. -/
def value? (n : Numeral) : Option Number := (readNumber? n.text).map .exact

end Numeral

end Arith

/-! ### Reading characters -/

namespace Lexer

namespace Cursor

theorem advance_cons {x : Char} (hx : x ≠ '\n') (xs : List Char) (l c : Nat) :
    (⟨x :: xs, l, c⟩ : Cursor).advance = ⟨xs, l, c + 1⟩ := by
  simp [advance, hx]

theorem takeWhile_append {p : Char → Bool} {ds : List Char} (hds : ∀ d ∈ ds, p d = true ∧ d ≠ '\n')
    {rest : List Char} (hrest : ∀ x ∈ rest.head?, p x = false) (l c : Nat) (acc : List Char) :
    takeWhile p ⟨ds ++ rest, l, c⟩ acc = (acc.reverse ++ ds, ⟨rest, l, c + ds.length⟩) := by
  induction ds generalizing c acc with
  | nil =>
    rw [takeWhile]
    cases rest with
    | nil => simp
    | cons x rest => simp [hrest x rfl]
  | cons d ds ih =>
    obtain ⟨hd, hnl⟩ := hds d (List.mem_cons_self ..)
    rw [takeWhile]
    simp only [List.cons_append, hd, if_true, advance_cons hnl]
    rw [ih (fun d' h => hds d' (List.mem_cons_of_mem _ h))]
    simp only [List.reverse_cons, List.append_assoc, List.singleton_append, List.length_cons,
      Prod.mk.injEq, Cursor.mk.injEq, true_and]
    omega

end Cursor

theorem isDigit_ne_newline {d : Char} (h : isDigit d = true) : d ≠ '\n' := by
  rintro rfl
  simp [isDigit] at h

/-- A character after a decimal literal that leaves it whole: no digit, point or exponent mark,
which the reader would take as more of the literal. -/
def EndsNumeral (x : Char) : Prop := isDigit x = false ∧ x ≠ '.' ∧ x ≠ 'e' ∧ x ≠ 'E'

theorem endsNumeral_space : EndsNumeral ' ' := ⟨by decide, by decide, by decide, by decide⟩

theorem takeWhile_digits {ds : List Char} (hds : ∀ d ∈ ds, isDigit d = true) {rest : List Char}
    (hrest : ∀ x ∈ rest.head?, isDigit x = false) (l c : Nat) :
    Cursor.takeWhile isDigit ⟨ds ++ rest, l, c⟩ [] = (ds, ⟨rest, l, c + ds.length⟩) := by
  simpa using Cursor.takeWhile_append
    (fun d h => ⟨hds d h, isDigit_ne_newline (hds d h)⟩) hrest l c []

theorem scanFraction_none (whole : List Char) {rest : List Char}
    (hrest : ∀ x ∈ rest.head?, x ≠ '.') (l c : Nat) :
    scanFraction whole ⟨rest, l, c⟩ = ([], ⟨rest, l, c⟩) := by
  cases rest with
  | nil => simp [scanFraction, Cursor.peek]
  | cons x rest => simp [scanFraction, Cursor.peek, hrest x rfl]

theorem scanFraction_digits {whole : List Char} (hwhole : whole ≠ []) {ds : List Char}
    (hds : Arith.Digits ds) {rest : List Char} (hrest : ∀ x ∈ rest.head?, isDigit x = false)
    (l c : Nat) :
    scanFraction whole ⟨'.' :: (ds ++ rest), l, c⟩ =
      ('.' :: ds, ⟨rest, l, c + 1 + ds.length⟩) := by
  obtain ⟨d, ds', rfl⟩ := List.exists_cons_of_ne_nil hds.1
  have hd : isDigit d = true := hds.2 d (List.mem_cons_self ..)
  simp only [scanFraction, Cursor.peek, List.cons_append, List.getD_cons_zero,
    List.getD_cons_succ, hd, beq_self_eq_true, Bool.and_self, if_true,
    Cursor.advance_cons (by decide : '.' ≠ '\n')]
  rw [← List.cons_append, takeWhile_digits hds.2 hrest]
  simp [hwhole]

theorem scanExponent_none {rest : List Char} (hrest : ∀ x ∈ rest.head?, x ≠ 'e' ∧ x ≠ 'E')
    (l c : Nat) : scanExponent ⟨rest, l, c⟩ = ([], ⟨rest, l, c⟩) := by
  cases rest with
  | nil => simp [scanExponent, Cursor.peek]
  | cons x rest =>
    obtain ⟨he, hE⟩ := hrest x rfl
    simp [scanExponent, Cursor.peek, he, hE]

theorem scanExponent_exponent (x : Arith.Exponent) {rest : List Char}
    (hrest : ∀ y ∈ rest.head?, isDigit y = false) (l c : Nat) :
    scanExponent ⟨x.chars ++ rest, l, c⟩ = (x.chars, ⟨rest, l, c + x.chars.length⟩) := by
  obtain ⟨mark, sign, ds, hmark, hsign, hds⟩ := x
  obtain ⟨d, ds', rfl⟩ := List.exists_cons_of_ne_nil hds.1
  have hd : isDigit d = true := hds.2 d (List.mem_cons_self ..)
  have hdigits := takeWhile_digits hds.2 hrest
  simp only [List.cons_append] at hdigits
  have hsign' : d ≠ '+' ∧ d ≠ '-' := by
    constructor <;> rintro rfl <;> simp [isDigit] at hd
  rcases hmark with rfl | rfl <;> rcases hsign with rfl | rfl | rfl <;>
    simp [scanExponent, Arith.Exponent.chars, Cursor.peek, Cursor.advanceBy, Cursor.advance_cons,
      hd, hsign', hdigits] <;> omega

theorem scanNumber_numeral (n : Arith.Numeral) {q : Rat} (hq : readNumber? n.text = some q)
    {rest : List Char} (hrest : ∀ x ∈ rest.head?, EndsNumeral x) (l c : Nat) :
    scanNumber ⟨n.chars ++ rest, l, c⟩ = .ok (.exact q, ⟨rest, l, c + n.chars.length⟩) := by
  obtain ⟨W, F, E, hW, hF⟩ := n
  -- the characters after the digits, after the fraction and after the exponent
  have hspace : ∀ y ∈ rest.head?, isDigit y = false := fun y hy => (hrest y hy).1
  have hexpo : ∀ y ∈ ((E.map Arith.Exponent.chars).getD [] ++ rest).head?,
      isDigit y = false ∧ y ≠ '.' := by
    cases E with
    | none =>
      intro y hy
      have hy' := hrest y (by simpa using hy)
      exact ⟨hy'.1, hy'.2.1⟩
    | some x =>
      intro y hy
      simp only [Option.map_some, Option.getD_some, Arith.Exponent.chars, List.cons_append,
        List.head?_cons, Option.mem_some_iff] at hy
      subst hy
      rcases x.mark_ok with h | h <;> rw [h] <;> decide
  have hfrac : ∀ y ∈ ((F.map ('.' :: ·)).getD [] ++ (E.map Arith.Exponent.chars).getD [] ++
      rest).head?, isDigit y = false := by
    cases F with
    | none => simpa using fun y hy => (hexpo y hy).1
    | some ds =>
      intro y hy
      simp only [Option.map_some, Option.getD_some, List.cons_append, List.head?_cons,
        Option.mem_some_iff] at hy
      subst hy
      decide
  have hF' : scanFraction W ⟨(F.map ('.' :: ·)).getD [] ++ (E.map Arith.Exponent.chars).getD [] ++
      rest, l, c + W.length⟩ = ((F.map ('.' :: ·)).getD [],
        ⟨(E.map Arith.Exponent.chars).getD [] ++ rest, l,
          c + W.length + ((F.map ('.' :: ·)).getD []).length⟩) := by
    cases F with
    | none => simpa using scanFraction_none W (fun y hy => (hexpo y hy).2) l (c + W.length)
    | some ds =>
      simpa [Nat.add_assoc, Nat.add_comm 1] using scanFraction_digits hW.1 (hF ds rfl)
        (fun y hy => (hexpo y hy).1) l (c + W.length)
  have hE' : scanExponent ⟨(E.map Arith.Exponent.chars).getD [] ++ rest, l,
      c + W.length + ((F.map ('.' :: ·)).getD []).length⟩ =
        ((E.map Arith.Exponent.chars).getD [], ⟨rest, l, c + W.length +
          ((F.map ('.' :: ·)).getD []).length + ((E.map Arith.Exponent.chars).getD []).length⟩) := by
    cases E with
    | none => simpa using scanExponent_none (fun x hx => (hrest x hx).2.2) l _
    | some x => simpa using scanExponent_exponent x hspace l _
  simp only [Arith.Numeral.text, Arith.Numeral.chars] at hq ⊢
  simp only [scanNumber, List.append_assoc]
  rw [takeWhile_digits hW.2 (by simpa only [List.append_assoc] using hfrac)]
  simp only [← List.append_assoc]
  rw [hF', hE']
  simp only [hq, List.length_append, Nat.add_assoc]

/-! ### Reading words -/

theorem run_blank (rest : List Char) (l c : Nat) (acc : List Token) :
    run ⟨' ' :: rest, l, c⟩ acc = run ⟨rest, l, c + 1⟩ acc := by
  rw [run]
  simp [Cursor.advance, (by decide : Text.isBlank ' ' = true)]

/-- The symbols of arithmetic with their characters. -/
def symbolChars : List (Char × String) :=
  [('(', "("), (')', ")"), ('+', "+"), ('-', "-"), ('*', "*"), ('/', "/"), ('^', "^")]

theorem symbolChars_char {ch : Char} {s : String} (hs : (ch, s) ∈ symbolChars) :
    Text.isBlank ch = false ∧ (ch == '"' || ch == '\'') = false ∧ isDigit ch = false ∧
      (ch == '.') = false ∧ isWordStart ch = false ∧ (ch == '\n') = false ∧ s.length = 1 ∧
      s.toList = [ch] := by
  simp only [symbolChars, List.mem_cons, Prod.mk.injEq, List.not_mem_nil, or_false] at hs
  rcases hs with ⟨rfl, rfl⟩ | ⟨rfl, rfl⟩ | ⟨rfl, rfl⟩ | ⟨rfl, rfl⟩ | ⟨rfl, rfl⟩ | ⟨rfl, rfl⟩ |
    ⟨rfl, rfl⟩ <;> decide +kernel

theorem operatorAt_symbol {ch : Char} {s : String} (hs : (ch, s) ∈ symbolChars)
    (rest : List Char) : operatorAt (ch :: rest) = some s := by
  simp only [symbolChars, List.mem_cons, Prod.mk.injEq, List.not_mem_nil, or_false] at hs
  rcases hs with ⟨rfl, rfl⟩ | ⟨rfl, rfl⟩ | ⟨rfl, rfl⟩ | ⟨rfl, rfl⟩ | ⟨rfl, rfl⟩ | ⟨rfl, rfl⟩ |
    ⟨rfl, rfl⟩ <;> simp [operatorAt, operators]

theorem run_symbol {ch : Char} {s : String} (hs : (ch, s) ∈ symbolChars) {rest : List Char}
    (hrest : ∀ x ∈ rest.head?, x = ' ') (l c : Nat) (acc : List Token) :
    run ⟨ch :: rest, l, c⟩ acc = run ⟨rest, l, c + 1⟩ (.sym s :: acc) := by
  obtain ⟨hblank, hquote, hdigit, hdot, hword, hnl, hlen, -⟩ := symbolChars_char hs
  have hpeek : isDigit (rest[0]?.getD '\x00') = false := by
    cases rest with
    | nil => rfl
    | cons x r =>
      rw [hrest x rfl]
      rfl
  rw [run]
  simp [Cursor.advance, Cursor.advanceBy, Cursor.peek, hblank, hquote, hdigit, hdot, hword, hnl,
    hlen, hpeek, operatorAt_symbol hs]

theorem toNat_of_isDigit {d : Char} (h : isDigit d = true) : 48 ≤ d.toNat ∧ d.toNat ≤ 57 := by
  simp only [isDigit, Bool.and_eq_true, decide_eq_true_eq] at h
  obtain ⟨h1, h2⟩ := h
  rw [Char.le_def, UInt32.le_iff_toNat_le] at h1 h2
  exact ⟨h1, h2⟩

theorem isBlank_of_isDigit {d : Char} (h : isDigit d = true) : Text.isBlank d = false := by
  have hn := toNat_of_isDigit h
  unfold Text.isBlank
  generalize d.toNat = n at hn
  simp only [Bool.or_eq_false_iff, Bool.and_eq_false_iff, decide_eq_false_iff_not,
    beq_eq_false_iff_ne]
  omega

theorem quote_of_isDigit {d : Char} (h : isDigit d = true) : (d == '"' || d == '\'') = false := by
  have hn := toNat_of_isDigit h
  simp only [Bool.or_eq_false_iff, beq_eq_false_iff_ne]
  constructor <;> rintro rfl <;> simp at hn

theorem Numeral.exists_chars_eq_cons (n : Arith.Numeral) :
    ∃ w ws, n.chars = w :: ws ∧ isDigit w = true := by
  obtain ⟨w, W, hW⟩ := List.exists_cons_of_ne_nil n.whole_ok.1
  refine ⟨w, W ++ ((n.fraction.map ('.' :: ·)).getD [] ++
    (n.exponent.map Arith.Exponent.chars).getD []), by simp [Arith.Numeral.chars, hW],
    n.whole_ok.2 w (by simp [hW])⟩

theorem run_numeral (n : Arith.Numeral) {q : Rat} (hq : readNumber? n.text = some q)
    {rest : List Char} (hrest : ∀ x ∈ rest.head?, EndsNumeral x) (l c : Nat) (acc : List Token) :
    run ⟨n.chars ++ rest, l, c⟩ acc = run ⟨rest, l, c + n.chars.length⟩ (.num (.exact q) :: acc) := by
  obtain ⟨w, ws, hchars, hw⟩ := Numeral.exists_chars_eq_cons n
  rw [run, scanNumber_numeral n hq hrest]
  split
  · rename_i h
    simp [hchars] at h
  · rename_i x tail h
    obtain rfl : x = w := by
      rw [hchars, List.cons_append, List.cons.injEq] at h
      exact h.1.symm
    simp only [isBlank_of_isDigit hw, quote_of_isDigit hw, hw, Bool.false_eq_true, if_false,
      Bool.true_or, if_true, hchars, List.length_cons, List.length_append]
    rw [if_pos (by omega)]

theorem run_minus_numeral (n : Arith.Numeral) {q : Rat} (hq : readNumber? n.text = some q)
    {acc : List Token} (hstart : startsOperand acc = true) {rest : List Char}
    (hrest : ∀ x ∈ rest.head?, EndsNumeral x) (hpow : ∀ l c, powerFollows ⟨rest, l, c⟩ = false)
    (l c : Nat) :
    run ⟨'-' :: (n.chars ++ rest), l, c⟩ acc =
      run ⟨rest, l, c + n.chars.length + 1⟩ (.num (.exact (-q)) :: acc) := by
  obtain ⟨w, ws, hchars, hw⟩ := Numeral.exists_chars_eq_cons n
  have hscan := scanNumber_numeral n hq hrest l (c + 1)
  rw [hchars, List.cons_append] at hscan
  rw [hchars, List.cons_append, run]
  simp only [Cursor.advance_cons (by decide : '-' ≠ '\n'), hscan,
    (by decide : Text.isBlank '-' = false), Bool.false_eq_true, if_false,
    (by decide : ('-' == '"' || '-' == '\'') = false), (by decide : isDigit '-' = false),
    (by decide : ('-' == '.') = false), Bool.false_or, Bool.false_and, beq_self_eq_true,
    Bool.true_and, Cursor.peek, List.getD_cons_succ, List.getD_cons_zero, hw, hstart, if_true,
    hpow, List.length_cons, List.length_append, Number.neg]
  rw [if_pos (by omega)]
  congr 2
  omega

/-- The word `w` is read as the token `t` where a space or the end follows it. -/
def Lexes (w : String) (t : Token) : Prop :=
  ∀ (rest : List Char) (l c : Nat) (acc : List Token), (∀ x ∈ rest.head?, x = ' ') →
    run ⟨w.toList ++ rest, l, c⟩ acc = run ⟨rest, l, c + w.toList.length⟩ (t :: acc)

theorem lexes_symbol {ch : Char} {s : String} (hs : (ch, s) ∈ symbolChars) : Lexes s (.sym s) := by
  intro rest l c acc hrest
  rw [(symbolChars_char hs).2.2.2.2.2.2.2, List.singleton_append]
  exact run_symbol hs hrest l c acc

theorem lexes_numeral (n : Arith.Numeral) {q : Rat} (hq : readNumber? n.text = some q) :
    Lexes n.text (.num (.exact q)) := by
  intro rest l c acc hrest
  simpa only [Arith.Numeral.text, String.toList_ofList] using
    run_numeral n hq (fun x hx => hrest x hx ▸ endsNumeral_space) l c acc

theorem run_nil (l c : Nat) (acc : List Token) : run ⟨[], l, c⟩ acc = .ok acc.reverse := by
  rw [run]

theorem run_intercalate {ws : List String} {ts : List Token} (h : List.Forall₂ Lexes ws ts)
    (l c : Nat) (acc : List Token) :
    run ⟨(" ".intercalate ws).toList, l, c⟩ acc = .ok (acc.reverse ++ ts) := by
  induction h generalizing l c acc with
  | nil => simp [run_nil]
  | @cons w t ws ts hw hrest ih =>
    cases ws with
    | nil =>
      cases hrest
      have := hw [] l c acc (by simp)
      simp only [List.append_nil] at this
      rw [String.intercalate_singleton, this, run_nil]
      simp
    | cons w' ws' =>
      rw [String.intercalate_cons_cons, String.toList_append, String.toList_append,
        List.append_assoc, hw _ l c acc (by simp [(by decide : " ".toList = [' '])])]
      rw [show (" ".toList ++ (" ".intercalate (w' :: ws')).toList) =
        ' ' :: (" ".intercalate (w' :: ws')).toList by rfl, run_blank, ih]
      simp

end Lexer

namespace Arith

theorem BinOp.symbol_mem (op : BinOp) : ∃ ch, (ch, op.symbol) ∈ Lexer.symbolChars := by
  cases op
  · exact ⟨'^', by decide⟩
  · exact ⟨'*', by decide⟩
  · exact ⟨'/', by decide⟩
  · exact ⟨'+', by decide⟩
  · exact ⟨'-', by decide⟩

namespace Expr

/-- The words of the tree's text, one per token. -/
def words : Expr Numeral → List String
  | lit n => [n.text]
  | paren e => "(" :: e.words ++ [")"]
  | neg e => "-" :: e.words
  | bin op x y => x.words ++ op.symbol :: y.words

/-- The text of the tree: its words with a single space between two of them. -/
def text (e : Expr Numeral) : String := " ".intercalate e.words

/-- The tree of the values its literals denote, when the reader takes every one. -/
def read : Expr Numeral → Option (Expr Number)
  | lit n => n.value?.map lit
  | paren e => e.read.map paren
  | neg e => e.read.map neg
  | bin op x y => x.read.bind fun x' => y.read.map (bin op x')

theorem read_eq_map {e : Expr Numeral} {ev : Expr Number} (h : e.read = some ev) :
    ev = e.map fun n => n.value?.getD (.exact 0) := by
  induction e generalizing ev with
  | lit n =>
    obtain ⟨v, hv, rfl⟩ := Option.map_eq_some_iff.1 h
    simp [map, hv]
  | paren e ih | neg e ih =>
    obtain ⟨ev, hev, rfl⟩ := Option.map_eq_some_iff.1 h
    rw [ih hev]
    rfl
  | bin op x y ihx ihy =>
    obtain ⟨x', hx, hxy⟩ := Option.bind_eq_some_iff.1 h
    obtain ⟨y', hy, rfl⟩ := Option.map_eq_some_iff.1 hxy
    rw [ihx hx, ihy hy]
    rfl

theorem words_lexes (e : Expr Numeral) {ev : Expr Number} (h : e.read = some ev) :
    List.Forall₂ Lexer.Lexes e.words ev.tokens := by
  induction e generalizing ev with
  | lit n =>
    obtain ⟨v, hv, rfl⟩ := Option.map_eq_some_iff.1 h
    obtain ⟨q, hq, rfl⟩ := Option.map_eq_some_iff.1 hv
    exact List.Forall₂.cons (Lexer.lexes_numeral n hq) .nil
  | paren e ih =>
    obtain ⟨ev, hev, rfl⟩ := Option.map_eq_some_iff.1 h
    exact .cons (Lexer.lexes_symbol (by decide : ('(', "(") ∈ Lexer.symbolChars))
      (List.rel_append (ih hev)
        (.cons (Lexer.lexes_symbol (by decide : (')', ")") ∈ Lexer.symbolChars)) .nil))
  | neg e ih =>
    obtain ⟨ev, hev, rfl⟩ := Option.map_eq_some_iff.1 h
    exact .cons (Lexer.lexes_symbol (by decide : ('-', "-") ∈ Lexer.symbolChars)) (ih hev)
  | bin op x y ihx ihy =>
    obtain ⟨x', hx, hxy⟩ := Option.bind_eq_some_iff.1 h
    obtain ⟨y', hy, rfl⟩ := Option.map_eq_some_iff.1 hxy
    obtain ⟨ch, hch⟩ := op.symbol_mem
    exact List.rel_append (ihx hx) (.cons (Lexer.lexes_symbol hch) (ihy hy))

/-- The text of a tree whose literals are read lexes to the tokens
of the tree of their values. -/
theorem lex_text (e : Expr Numeral) {ev : Expr Number} (h : e.read = some ev) :
    Tokens.lex e.text = .ok ev.tokens := by
  rw [Tokens.lex, text, Lexer.run_intercalate (words_lexes e h)]
  rfl

end Expr

end Arith

end Reckon

import Mathlib.Data.List.Find
import Reckon.Proofs.Lexing.Readable
import Reckon.Proofs.Logic.Text

/-!
# Printing a lexed line and lexing it again

A sequence of tokens is printed as the tokens' texts with a single space between two of them
(`Tokens.render`). Where the numbers are integers and the texts hold printable characters,
newlines and tabs only, printing the tokens of a line and lexing the print gives back the same
tokens (`Tokens.lex_render_lex`).

Each token's text is read back as the token (`Lexer.run_token`): an integer is written in
digits, a text between double quotes with its quote, backslash, newline and tab escaped, a word
and an operator as they are, and the space after a text stops every word, number and operator.
The one token whose reading depends on its neighbours is a negative number: its minus sign
starts a number only where an operand starts and no power follows. Both hold in the print as in
the line it came from (`Lexer.ReadSoFar`), since the print keeps the tokens before and after it.
-/

namespace Reckon

/-- A number or text whose written form reads back as itself: an integer, and a text of
printable characters, newlines and tabs; the other escapes would read back as letters. -/
def Token.Reprintable : Token → Prop
  | .num n => n.isInt = true
  | .text s => ∀ c ∈ s.toList, Text.isPrintable c = true ∨ c = '\n' ∨ c = '\t'
  | _ => True

namespace Lexer

/-! ### Characters -/

set_option maxRecDepth 8192 in
theorem letters_below : (List.range 0x41).all (fun n => !Text.letters.contains n) = true := by
  with_unfolding_all rfl

set_option maxRecDepth 8192 in
theorem letters_blanks : [0x85, 0xA0, 0x1680, 0x2000, 0x2001, 0x2002, 0x2003, 0x2004, 0x2005,
    0x2006, 0x2007, 0x2008, 0x2009, 0x200A, 0x2028, 0x2029, 0x202F, 0x205F, 0x3000].all
    (fun n => !Text.letters.contains n) = true := by
  with_unfolding_all rfl

theorem isLetter_spec {x : Char} (h : Text.isLetter x = true) :
    0x41 ≤ x.toNat ∧ Text.isBlank x = false := by
  unfold Text.isLetter Text.CodeRanges.has at h
  have hlow : 0x41 ≤ x.toNat := by
    by_contra hlt
    have := List.all_eq_true.1 letters_below x.toNat (List.mem_range.2 (by omega))
    simp [h] at this
  refine ⟨hlow, ?_⟩
  by_contra hblank
  have hmem : x.toNat ∈ [0x85, 0xA0, 0x1680, 0x2000, 0x2001, 0x2002, 0x2003, 0x2004, 0x2005,
      0x2006, 0x2007, 0x2008, 0x2009, 0x200A, 0x2028, 0x2029, 0x202F, 0x205F, 0x3000] := by
    simp only [Text.isBlank, Bool.not_eq_false, Bool.or_eq_true, Bool.and_eq_true,
      decide_eq_true_eq, beq_iff_eq] at hblank
    simp only [List.mem_cons, List.not_mem_nil, or_false]
    omega
  have := List.all_eq_true.1 letters_blanks x.toNat hmem
  simp [h] at this

theorem Lead.of_isWordStart {x : Char} (h : isWordStart x = true) : Lead x := by
  simp only [isWordStart, Bool.or_eq_true, beq_iff_eq] at h
  rcases h with h | rfl
  · obtain ⟨hlow, hblank⟩ := isLetter_spec h
    refine ⟨hblank, ?_, ?_, ?_, ?_, ?_⟩
    · simp only [Bool.or_eq_false_iff, beq_eq_false_iff_ne]
      constructor <;> rintro rfl <;> simp at hlow
    · cases hd : isDigit x
      · rfl
      · have := (toNat_of_isDigit hd).2
        omega
    · simp only [beq_eq_false_iff_ne]
      rintro rfl
      simp at hlow
    · simp only [beq_eq_false_iff_ne]
      rintro rfl
      simp at hlow
    · rintro rfl
      simp at hlow
  · exact ⟨by decide, by decide, by decide, by decide, by decide, by decide⟩

theorem isWordChar_ne_newline {y : Char} (h : isWordChar y = true) : y ≠ '\n' := by
  simp only [isWordChar, Bool.or_eq_true] at h
  rcases h with h | h
  · exact (Lead.of_isWordStart h).newline
  · exact isDigit_ne_newline h

/-! ### Words -/

theorem wordChars_all {xs : List Char} (hxs : ∀ y ∈ xs, isWordChar y = true) :
    xs.all (fun d => isWordChar d && d != '\n') = true := by
  simp only [List.all_eq_true, Bool.and_eq_true, bne_iff_ne]
  exact fun d hd => ⟨hxs d hd, isWordChar_ne_newline (hxs d hd)⟩

theorem run_symbol_word {s : String} (hw : IsWord s.toList) (htrue : s ≠ "true")
    (hfalse : s ≠ "false") {rest : List Char} (hrest : ∀ x ∈ rest.head?, x = ' ') (l c : Nat)
    (acc : List Token) :
    run ⟨s.toList ++ rest, l, c⟩ acc = run ⟨rest, l, c + s.toList.length⟩ (.sym s :: acc) := by
  obtain ⟨x, xs, hx, hstart, hxs⟩ := hw
  have ht : (x :: xs == ['t', 'r', 'u', 'e']) = false := by
    rw [beq_eq_false_iff_ne, ← hx]
    intro h
    exact htrue (String.toList_inj.1 (by rw [h]; rfl))
  have hf : (x :: xs == ['f', 'a', 'l', 's', 'e']) = false := by
    rw [beq_eq_false_iff_ne, ← hx]
    intro h
    exact hfalse (String.toList_inj.1 (by rw [h]; rfl))
  exact lexes_symbol_word hx hstart (Lead.of_isWordStart hstart) (wordChars_all hxs) ⟨ht, hf⟩
    rest l c acc hrest

theorem run_bool (b : Bool) {rest : List Char} (hrest : ∀ x ∈ rest.head?, x = ' ') (l c : Nat)
    (acc : List Token) :
    run ⟨(Token.render (.bool b)).toList ++ rest, l, c⟩ acc =
      run ⟨rest, l, c + (Token.render (.bool b)).toList.length⟩ (.bool b :: acc) := by
  have h := lexes_bool b rest l c acc hrest
  cases b <;> exact h

/-! ### Operators -/

set_option maxRecDepth 8192 in
theorem operators_chars : operators.all (fun op => !op.toList.isEmpty &&
    op.toList.all (fun y => !isDigit y && !(y == '\n') && !(y == ' ')) &&
    op.toList.head?.all (fun x => !Text.isBlank x && !(x == '"' || x == '\'') &&
      !isWordStart x)) = true := by
  with_unfolding_all rfl

theorem operators_find_self :
    operators.all (fun op => operators.find? (fun o => o.toList.isPrefixOf op.toList) == some op) =
      true := by
  decide

theorem isPrefixOf_append_blank {o : List Char} (ho : ' ' ∉ o) (p : List Char) {rest : List Char}
    (hrest : ∀ x ∈ rest.head?, x = ' ') : o.isPrefixOf (p ++ rest) = o.isPrefixOf p := by
  induction o generalizing p with
  | nil => simp
  | cons y o ih =>
    have hy : y ≠ ' ' := fun h => ho (h ▸ List.mem_cons_self ..)
    cases p with
    | nil =>
      cases rest with
      | nil => rfl
      | cons z rest =>
        rw [hrest z rfl]
        simp [List.isPrefixOf, hy]
    | cons z p =>
      simp only [List.cons_append, List.isPrefixOf]
      rw [ih (fun h => ho (List.mem_cons_of_mem _ h)) p]

theorem operatorAt_append {op : String} (hop : op ∈ operators) {rest : List Char}
    (hrest : ∀ x ∈ rest.head?, x = ' ') : operatorAt (op.toList ++ rest) = some op := by
  -- no operator holds a space, so the blank after `op` changes no operator's match
  have hcongr : ∀ o ∈ operators,
      o.toList.isPrefixOf (op.toList ++ rest) = o.toList.isPrefixOf op.toList := by
    intro o ho
    have := List.all_eq_true.1 operators_chars o ho
    simp only [Bool.and_eq_true, List.all_eq_true, Bool.not_eq_eq_eq_not, Bool.not_true,
      beq_eq_false_iff_ne] at this
    exact isPrefixOf_append_blank (fun h => (this.1.2 ' ' h).2 rfl) _ hrest
  unfold operatorAt
  rw [List.find?_congr hcongr]
  simpa using List.all_eq_true.1 operators_find_self op hop

theorem run_operator_of_mem {op : String} (hop : op ∈ operators) {rest : List Char}
    (hrest : ∀ x ∈ rest.head?, x = ' ') (l c : Nat) (acc : List Token) :
    run ⟨op.toList ++ rest, l, c⟩ acc = run ⟨rest, l, c + op.toList.length⟩ (.sym op :: acc) := by
  have hchars := List.all_eq_true.1 operators_chars op hop
  simp only [Bool.and_eq_true, List.all_eq_true, List.isEmpty_eq_false_iff,
    Bool.not_eq_eq_eq_not, Bool.not_true, beq_eq_false_iff_ne] at hchars
  obtain ⟨⟨hne, hall⟩, hhead⟩ := hchars
  obtain ⟨x, xs, hx⟩ := List.exists_cons_of_ne_nil hne
  rw [hx] at hhead hall
  simp only [List.head?_cons, Option.all_some, Bool.and_eq_true, Bool.not_eq_true',
    Bool.or_eq_false_iff, beq_eq_false_iff_ne] at hhead
  obtain ⟨⟨hblank, hquote⟩, hword⟩ := hhead
  have hx' := hall x (List.mem_cons_self ..)
  -- the character after the first is no digit: it is the operator's or the space
  have hpeek : isDigit ((x :: (xs ++ rest)).getD 1 '\x00') = false := by
    cases xs with
    | cons y ys => simpa using (hall y (by simp)).1.1
    | nil =>
      cases rest with
      | nil => rfl
      | cons z r =>
        rw [hrest z rfl]
        rfl
  have hnl : ∀ d ∈ op.toList, d ≠ '\n' := fun d h => (hall d (hx ▸ h)).1.2
  have hlen : op.length = xs.length + 1 := by rw [← String.length_toList, hx, List.length_cons]
  have hadv : Cursor.advanceBy op.length ⟨x :: (xs ++ rest), l, c⟩ =
      ⟨rest, l, c + (xs.length + 1)⟩ := by
    rw [hlen]
    simpa [hx] using Cursor.advanceBy_append hnl rest l c
  have hop' : operatorAt (x :: (xs ++ rest)) = some op := by
    rw [← List.cons_append, ← hx]
    exact operatorAt_append hop hrest
  have hquote' : (x == '"' || x == '\'') = false := by simp [hquote.1, hquote.2]
  rw [hx, List.cons_append, run]
  simp only [hop', hblank, hquote', Bool.false_eq_true, if_false, hx'.1.1, Cursor.peek, hpeek,
    Bool.and_false, Bool.false_and, Bool.or_false, hword, hadv, List.length_cons,
    List.length_append]
  rw [if_pos (by omega)]

/-! ### Texts -/

theorem escapeChar_cases {ch : Char} (h : Text.isPrintable ch = true ∨ ch = '\n' ∨ ch = '\t') :
    (∃ e, Text.escapeChar '"' ch = ['\\', e] ∧ e ≠ '\n' ∧
      (if e == 'n' then '\n' else if e == 't' then '\t' else e) = ch) ∨
    (Text.escapeChar '"' ch = [ch] ∧ ch ≠ '"' ∧ ch ≠ '\\' ∧ ch ≠ '\n') := by
  by_cases hq : ch = '"' ∨ ch = '\\'
  · left
    refine ⟨ch, by simp [Text.escapeChar, hq], ?_, ?_⟩ <;> rcases hq with rfl | rfl <;> decide
  rcases h with h | rfl | rfl
  · right
    have hnl : ch ≠ '\n' := by
      rintro rfl
      revert h
      set_option maxRecDepth 8192 in with_unfolding_all decide
    push Not at hq
    exact ⟨by simp [Text.escapeChar, hq.1, hq.2, h], hq.1, hq.2, hnl⟩
  · exact .inl ⟨'n', by set_option maxRecDepth 8192 in with_unfolding_all rfl, by decide,
      by decide⟩
  · exact .inl ⟨'t', by set_option maxRecDepth 8192 in with_unfolding_all rfl, by decide,
      by decide⟩

theorem scanText_close (quote : Char) (l₀ c₀ : Nat) (r : List Char) (l c : Nat)
    (acc : List Char) :
    scanText quote l₀ c₀ ⟨quote :: r, l, c⟩ acc =
      .ok (String.ofList acc.reverse, (⟨quote :: r, l, c⟩ : Cursor).advance) := by
  rw [scanText]
  simp

theorem scanText_plain {quote x : Char} (hq : x ≠ quote) (hb : x ≠ '\\') (hnl : x ≠ '\n')
    (l₀ c₀ : Nat) (r : List Char) (l c : Nat) (acc : List Char) :
    scanText quote l₀ c₀ ⟨x :: r, l, c⟩ acc = scanText quote l₀ c₀ ⟨r, l, c + 1⟩ (x :: acc) := by
  rw [scanText]
  simp [hq, hb, Cursor.advance_cons hnl]

theorem scanText_escape {quote e : Char} (hq : quote ≠ '\\') (hnl : e ≠ '\n') (l₀ c₀ : Nat)
    (r : List Char) (l c : Nat) (acc : List Char) :
    scanText quote l₀ c₀ ⟨'\\' :: e :: r, l, c⟩ acc =
      scanText quote l₀ c₀ ⟨r, l, c + 2⟩
        ((if e == 'n' then '\n' else if e == 't' then '\t' else e) :: acc) := by
  rw [scanText]
  simp only [beq_iff_eq, Ne.symm hq, if_false, if_true]
  -- the character after the backslash, behind the dependent match of the definition
  split
  · rename_i h
    simp [Cursor.advance_cons (by decide : '\\' ≠ '\n')] at h
  · rename_i e' tail h
    simp only [Cursor.advance_cons (by decide : '\\' ≠ '\n'), List.cons.injEq] at h
    obtain ⟨rfl, rfl⟩ := h
    simp [Cursor.advance_cons (by decide : '\\' ≠ '\n'), Cursor.advance_cons hnl]

theorem scanText_escaped (l₀ c₀ : Nat) {cs : List Char}
    (hcs : ∀ ch ∈ cs, Text.isPrintable ch = true ∨ ch = '\n' ∨ ch = '\t') (rest : List Char)
    (l c : Nat) (acc : List Char) :
    scanText '"' l₀ c₀ ⟨cs.flatMap (Text.escapeChar '"') ++ '"' :: rest, l, c⟩ acc =
      .ok (String.ofList (acc.reverse ++ cs),
        ⟨rest, l, c + (cs.flatMap (Text.escapeChar '"')).length + 1⟩) := by
  induction cs generalizing c acc with
  | nil =>
    rw [List.flatMap_nil, List.nil_append, scanText_close]
    simp [Cursor.advance_cons (by decide : '"' ≠ '\n')]
  | cons ch cs ih =>
    have hrest := ih (fun c h => hcs c (List.mem_cons_of_mem _ h))
    rcases escapeChar_cases (hcs ch (List.mem_cons_self ..)) with
      ⟨e, he, hnl, hdec⟩ | ⟨he, hq, hb, hnl⟩
    · -- a backslash and the character it escapes
      simp only [List.flatMap_cons, he, List.cons_append, List.nil_append]
      rw [scanText_escape (by decide) hnl, hdec, hrest]
      simp only [List.reverse_cons, List.append_assoc, List.singleton_append, List.length_cons,
        Except.ok.injEq, Prod.mk.injEq, Cursor.mk.injEq, true_and]
      omega
    · -- the character itself
      simp only [List.flatMap_cons, he, List.cons_append, List.nil_append]
      rw [scanText_plain hq hb hnl, hrest]
      simp only [List.reverse_cons, List.append_assoc, List.singleton_append, List.length_cons,
        Except.ok.injEq, Prod.mk.injEq, Cursor.mk.injEq, true_and]
      omega

theorem run_quote {s : String} (hs : ∀ ch ∈ s.toList, Text.isPrintable ch = true ∨ ch = '\n' ∨
    ch = '\t') (rest : List Char) (l c : Nat) (acc : List Token) :
    run ⟨(Text.quote s).toList ++ rest, l, c⟩ acc =
      run ⟨rest, l, c + (Text.quote s).toList.length⟩ (.text s :: acc) := by
  have hscan := scanText_escaped l c hs rest l (c + 1) []
  have hquote : (Text.quote s).toList ++ rest =
      '"' :: (s.toList.flatMap (Text.escapeChar '"') ++ '"' :: rest) := by
    simp [Text.quote]
  have hlen : (Text.quote s).toList.length = (s.toList.flatMap (Text.escapeChar '"')).length + 2 := by
    simp [Text.quote]
  rw [hquote, hlen, run]
  simp only [Cursor.advance_cons (by decide : '"' ≠ '\n'), hscan,
    (by decide : Text.isBlank '"' = false), Bool.false_eq_true, if_false, beq_self_eq_true,
    Bool.true_or, if_true, List.reverse_nil, List.nil_append, String.ofList_toList,
    List.length_cons, List.length_append]
  rw [if_pos (by omega)]
  congr 2
  omega

/-! ### Numbers -/

theorem Digits.scan_digits (d : Literal.Digits) {ds : List Char}
    (hds : ∀ c ∈ ds, isDigit c = true) :
    Literal.Digits.scan 10 true d ds =
      (⟨Nat.ofDigitChars 10 ds d.value, d.count + ds.length, d.point,
        if ds = [] then d.prev else '0', d.misplaced⟩, []) := by
  induction ds generalizing d with
  | nil => simp [Literal.Digits.scan]
  | cons x ds ih =>
    have hx := hds x (List.mem_cons_self ..)
    have hn := toNat_of_isDigit hx
    have hdot : (x == '.') = false := by
      rw [beq_eq_false_iff_ne]
      rintro rfl
      simp at hn
    have hus : (x == '_') = false := by
      rw [beq_eq_false_iff_ne]
      rintro rfl
      simp at hn
    have hval : Literal.digitValue x = x.toNat - 48 := by
      unfold Literal.digitValue
      rw [if_pos ⟨by simpa [Char.le_def, UInt32.le_iff_toNat_le] using hn.1,
        by simpa [Char.le_def, UInt32.le_iff_toNat_le] using hn.2⟩]
      rfl
    rw [Literal.Digits.scan, if_neg (by simp [hdot]), if_neg (by simp [hus]), if_pos (by omega),
      ih _ (fun c h => hds c (List.mem_cons_of_mem _ h)), Nat.ofDigitChars_cons, hval]
    simp only [List.length_cons, reduceCtorEq, if_false]
    congr 2
    · rw [Nat.mul_comm]
      rfl
    · omega
    · simp

theorem readNumber?_digits {ds : List Char} (hne : ds ≠ []) (hds : ∀ c ∈ ds, isDigit c = true) :
    readNumber? (String.ofList ds) = some (Nat.ofDigitChars 10 ds 0 : Rat) := by
  obtain ⟨x, xs, rfl⟩ := List.exists_cons_of_ne_nil hne
  have hx := toNat_of_isDigit (hds x (List.mem_cons_self ..))
  have hslash : List.findIdx? (fun c => c == '/') (x :: xs) = none := by
    rw [List.findIdx?_eq_none_iff]
    intro c hc
    have := toNat_of_isDigit (hds c hc)
    rw [beq_eq_false_iff_ne]
    rintro rfl
    simp at this
  have hsign : Literal.scanSign (x :: xs) = (false, x :: xs) := by
    unfold Literal.scanSign
    split <;> simp_all
  -- the magnitude: a leading zero is a decimal digit like the others
  have hmag : Literal.scanMagnitude true (x :: xs) =
      some (⟨Nat.ofDigitChars 10 (x :: xs) 0, 10, 0⟩, []) := by
    unfold Literal.scanMagnitude
    split
    rename_i base prefixChar start rest heq
    split at heq
    · -- a leading zero and more digits: the zero is a decimal digit
      rename_i c r hcr
      obtain ⟨rfl, rfl⟩ : x = '0' ∧ xs = c :: r := by simpa using hcr
      have hc := toNat_of_isDigit (hds c (by simp))
      have hne : ∀ y : Char, 58 ≤ y.toNat → (c == y) = false := fun y hy => by
        rw [beq_eq_false_iff_ne]
        rintro rfl
        omega
      simp only [hne 'b' (by decide), hne 'B' (by decide), hne 'o' (by decide), hne 'O' (by decide),
        hne 'x' (by decide), hne 'X' (by decide), Bool.or_self, Bool.false_eq_true, if_false,
        Bool.not_true, Prod.mk.injEq] at heq
      obtain ⟨rfl, -, rfl, rfl⟩ := heq
      rw [Digits.scan_digits _ (fun d h => hds d (by simp [h]))]
      simp [Nat.ofDigitChars_cons]
    · -- a single zero
      rename_i r hnot hr
      obtain ⟨rfl, rfl⟩ : x = '0' ∧ xs = r := by simpa using hr
      obtain rfl : xs = [] := by
        cases xs with
        | nil => rfl
        | cons c r => exact (hnot c r rfl).elim
      simp only [if_true, Prod.mk.injEq] at heq
      obtain ⟨rfl, -, rfl, rfl⟩ := heq
      rfl
    · -- no leading zero
      simp only [Prod.mk.injEq] at heq
      obtain ⟨rfl, -, rfl, rfl⟩ := heq
      rw [Digits.scan_digits _ hds]
      simp
  unfold readNumber? Literal.readDecimal
  simp only [String.toList_ofList, List.isEmpty_cons, Bool.false_eq_true, if_false, hslash, hsign,
    hmag]
  simp [Literal.scanExponent]
  split_ifs with h0
  · simp [h0]
  · simp [Rat.mkRat_one]

theorem numeral_digits (n : Nat) :
    ∃ num : Arith.Numeral, num.chars = Nat.toDigits 10 n ∧ readNumber? num.text = some (n : Rat) := by
  have hdig : ∀ d ∈ Nat.toDigits 10 n, isDigit d = true :=
    fun d h => Nat.isDigit_of_mem_toDigits (by decide) (by decide) h
  let num : Arith.Numeral :=
    ⟨Nat.toDigits 10 n, none, none, ⟨Nat.toDigits_ne_nil, hdig⟩, fun _ h => by cases h⟩
  have hchars : num.chars = Nat.toDigits 10 n := by simp [num, Arith.Numeral.chars]
  refine ⟨num, hchars, ?_⟩
  rw [Arith.Numeral.text, hchars, readNumber?_digits Nat.toDigits_ne_nil hdig,
    Nat.ofDigitChars_ten_toDigits]

theorem run_natural (n : Nat) {rest : List Char} (hrest : ∀ x ∈ rest.head?, x = ' ') (l c : Nat)
    (acc : List Token) :
    run ⟨(Nat.toDigits 10 n) ++ rest, l, c⟩ acc =
      run ⟨rest, l, c + (Nat.toDigits 10 n).length⟩ (.num (.exact n) :: acc) := by
  obtain ⟨num, hchars, hq⟩ := numeral_digits n
  have := run_numeral num hq (fun x hx => hrest x hx ▸ endsNumeral_space) l c acc
  rwa [hchars] at this

theorem run_negative (n : Nat) {acc : List Token} (hstart : startsOperand acc = true)
    {rest : List Char} (hrest : ∀ x ∈ rest.head?, x = ' ')
    (hpow : ∀ l c, powerFollows ⟨rest, l, c⟩ = false) (l c : Nat) :
    run ⟨'-' :: (Nat.toDigits 10 (n + 1) ++ rest), l, c⟩ acc =
      run ⟨rest, l, c + (Nat.toDigits 10 (n + 1)).length + 1⟩
        (.num (.exact (-((n + 1 : Nat) : Int))) :: acc) := by
  obtain ⟨num, hchars, hq⟩ := numeral_digits (n + 1)
  have h := run_minus_numeral num hq hstart (fun x hx => hrest x hx ▸ endsNumeral_space) hpow l c
  rw [hchars] at h
  rw [h]
  push_cast
  rfl

theorem run_int (z : Int) {acc : List Token} (hstart : z < 0 → startsOperand acc = true)
    {rest : List Char} (hrest : ∀ x ∈ rest.head?, x = ' ')
    (hpow : z < 0 → ∀ l c, powerFollows ⟨rest, l, c⟩ = false) (l c : Nat) :
    run ⟨(toString z).toList ++ rest, l, c⟩ acc =
      run ⟨rest, l, c + (toString z).toList.length⟩ (.num (.exact z) :: acc) := by
  cases z with
  | ofNat n =>
    have htext : (toString (Int.ofNat n)).toList = Nat.toDigits 10 n := Nat.toList_repr
    rw [htext, run_natural n hrest]
    rfl
  | negSucc n =>
    have hneg : Int.negSucc n < 0 := Int.negSucc_lt_zero n
    have htext : (toString (Int.negSucc n)).toList = '-' :: Nat.toDigits 10 (n + 1) := by
      show (Int.repr (Int.negSucc n)).toList = _
      simp [Int.repr]
    rw [htext, List.cons_append, run_negative n (hstart hneg) hrest (hpow hneg)]
    simp only [List.length_cons, Nat.add_assoc]
    rfl

/-! ### Tokens -/

theorem render_int {q : Rat} (hq : q.den = 1) :
    Token.render (.num (.exact q)) = toString q.num := by
  simp [Token.render, Number.text, Number.ratText, hq]

/-- The text of a readable, reprintable token, followed by a space or
the end, is read as the token; a negative number asks that an operand start before it and no
power follow it. -/
theorem run_token {t : Token} (hread : Readable t) (hprint : t.Reprintable) {acc : List Token}
    (hstart : isNegative t = true → startsOperand acc = true) {rest : List Char}
    (hrest : ∀ x ∈ rest.head?, x = ' ')
    (hpow : isNegative t = true → ∀ l c, powerFollows ⟨rest, l, c⟩ = false) (l c : Nat) :
    run ⟨t.render.toList ++ rest, l, c⟩ acc =
      run ⟨rest, l, c + t.render.toList.length⟩ (t :: acc) := by
  cases t with
  | num n =>
    cases n with
    | real x => simp [Readable, Number.isExact] at hread
    | exact q =>
      have hden : q.den = 1 := by simpa [Token.Reprintable, Number.isInt] using hprint
      have hq : (q.num : Rat) = q := (Rat.den_eq_one_iff q).1 hden
      have hneg : q.num < 0 → isNegative (.num (.exact q)) = true := fun h => by
        have : q < 0 := by
          rw [← hq]
          exact_mod_cast h
        simp [isNegative, this]
      rw [render_int hden, run_int q.num (fun h => hstart (hneg h)) hrest
        (fun h => hpow (hneg h)), hq]
  | text s => exact run_quote hprint rest l c acc
  | bool b => exact run_bool b hrest l c acc
  | sym s =>
    rcases hread with hop | ⟨hw, htrue, hfalse⟩
    · exact run_operator_of_mem hop hrest l c acc
    · exact run_symbol_word hw htrue hfalse hrest l c acc
  | list | map | var | listCap | mapCap => exact hread.elim

/-! ### Whether a power follows a token -/

theorem powerFollows_eq_true_iff (c : Cursor) :
    powerFollows c = true ↔ (∃ r, c.rest.dropWhile Text.isBlank = '^' :: r) ∨
      ∃ r, c.rest.dropWhile Text.isBlank = 't' :: 'o' :: r ∧ isWordChar (r.headD '\x00') = false := by
  unfold powerFollows
  dsimp only
  split <;> simp_all

theorem toString_int_head (z : Int) :
    ∃ x xs, (toString z).toList = x :: xs ∧ (x = '-' ∨ isDigit x = true) := by
  cases z with
  | ofNat n =>
    obtain ⟨d, ds, hd⟩ := List.exists_cons_of_ne_nil (Nat.toDigits_ne_nil (n := n) (b := 10))
    refine ⟨d, ds, ?_, .inr ?_⟩
    · rw [← hd]
      exact Nat.toList_repr
    · exact Nat.isDigit_of_mem_toDigits (by decide) (by decide) (hd ▸ List.mem_cons_self ..)
  | negSucc n =>
    refine ⟨'-', Nat.toDigits 10 (n + 1), ?_, .inl rfl⟩
    show (Int.repr (Int.negSucc n)).toList = _
    simp [Int.repr]

theorem operators_head : operators.all (fun op => op.toList.head? != some 't' &&
    (op.toList.head? != some '^' || op == "^")) = true := by
  decide

theorem render_head {u : Token} (hread : Readable u) (hprint : u.Reprintable) :
    ∃ x xs, u.render.toList = x :: xs ∧ Text.isBlank x = false ∧ (x = '^' → u = .sym "^") ∧
      (x = 't' → ∃ w, u = .bool true ∨ u.render.toList = 't' :: w ∧ IsWord ('t' :: w) ∧
        u = .sym (String.ofList ('t' :: w))) := by
  cases u with
  | num n =>
    cases n with
    | real x => simp [Readable, Number.isExact] at hread
    | exact q =>
      have hden : q.den = 1 := by simpa [Token.Reprintable, Number.isInt] using hprint
      obtain ⟨x, xs, hx, hsign⟩ := toString_int_head q.num
      rw [render_int hden, hx]
      rcases hsign with rfl | hd
      · exact ⟨'-', xs, rfl, by decide, fun h => absurd h (by decide),
          fun h => absurd h (by decide)⟩
      · have hn := toNat_of_isDigit hd
        refine ⟨x, xs, rfl, isBlank_of_isDigit hd, ?_, ?_⟩ <;> rintro rfl <;> simp at hn
  | text s =>
    refine ⟨'"', (s.toList.flatMap (Text.escapeChar '"')) ++ ['"'], by simp [Token.render,
      Text.quote], by decide, fun h => absurd h (by decide), fun h => absurd h (by decide)⟩
  | bool b =>
    cases b
    · exact ⟨'f', ['a', 'l', 's', 'e'], rfl, by decide, fun h => absurd h (by decide),
        fun h => absurd h (by decide)⟩
    · exact ⟨'t', ['r', 'u', 'e'], rfl, by decide, fun h => absurd h (by decide),
        fun _ => ⟨[], .inl rfl⟩⟩
  | sym s =>
    rcases hread with hop | ⟨hw, htrue, hfalse⟩
    · have hchars := List.all_eq_true.1 operators_chars s hop
      have hhead := List.all_eq_true.1 operators_head s hop
      simp only [Bool.and_eq_true, List.isEmpty_eq_false_iff, Bool.not_eq_eq_eq_not,
        Bool.not_true] at hchars
      obtain ⟨x, xs, hx⟩ := List.exists_cons_of_ne_nil hchars.1.1
      simp only [hx, List.head?_cons, Option.all_some, Bool.and_eq_true, Bool.not_eq_true',
        Bool.or_eq_false_iff, bne_iff_ne, ne_eq, Option.some.injEq, Bool.or_eq_true,
        beq_iff_eq] at hchars hhead
      refine ⟨x, xs, hx, hchars.2.1.1, fun h => ?_, fun h => absurd h hhead.1⟩
      rcases hhead.2 with h' | rfl
      · exact absurd h h'
      · rfl
    · obtain ⟨x, xs, hx, hstart, hxs⟩ := hw
      have hblank := (Lead.of_isWordStart hstart).blank
      have hrender : (Token.sym s).render.toList = x :: xs := by simpa [Token.render] using hx
      refine ⟨x, xs, hrender, hblank, fun h => ?_, fun h => ⟨xs, .inr ⟨h ▸ hrender, ?_, ?_⟩⟩⟩
      · subst h
        exact absurd hstart (by set_option maxRecDepth 8192 in with_unfolding_all decide)
      · exact h ▸ ⟨x, xs, rfl, hstart, hxs⟩
      · rw [← h, ← hx, String.ofList_toList]
  | list | map | var | listCap | mapCap => exact hread.elim

theorem powerFollows_render {u : Token} (hread : Readable u) (hprint : u.Reprintable)
    (hcaret : u ≠ .sym "^") (hto : u ≠ .sym "to") {r : List Char}
    (hr : ∀ x ∈ r.head?, x = ' ') (l c : Nat) :
    powerFollows ⟨' ' :: (u.render.toList ++ r), l, c⟩ = false := by
  obtain ⟨x, xs, hx, hblank, hcaret', hto'⟩ := render_head hread hprint
  -- the space alone is skipped, and the token's text starts what is left
  have hdrop : (' ' :: (u.render.toList ++ r)).dropWhile Text.isBlank = x :: (xs ++ r) := by
    rw [hx]
    simp [hblank, (by decide : Text.isBlank ' ' = true)]
  rw [Bool.eq_false_iff]
  intro h
  rw [powerFollows_eq_true_iff] at h
  simp only [hdrop, List.cons.injEq] at h
  rcases h with ⟨r', rfl, -⟩ | ⟨r', ⟨rfl, hxs⟩, hword⟩
  · exact hcaret (hcaret' rfl)
  · obtain ⟨w, hbool | ⟨hw, hisword, rfl⟩⟩ := hto' rfl
    · -- `true` goes on with `r`, not `o`
      subst hbool
      simp [Token.render] at hx
      obtain ⟨-, rfl⟩ := hx
      simp at hxs
    · -- a word `t…` that is not `to` goes on with a word character after `to`
      rw [hx] at hw
      obtain rfl := (List.cons.inj hw).2
      obtain ⟨_, _, hcons, -, hchars⟩ := hisword
      obtain ⟨-, rfl⟩ := List.cons.inj hcons
      cases xs with
      | nil =>
        -- the word `t` is followed by a blank, not by `o`
        rw [List.nil_append] at hxs
        simp [hxs] at hr
      | cons o ws =>
        obtain ⟨rfl, rfl⟩ := List.cons.inj hxs
        cases ws with
        | nil =>
          apply hto
          rfl
        | cons y ys =>
          have hy : isWordChar y = true := hchars y (by simp)
          simp [hy] at hword

theorem readSoFar_append {xs ys : List Token} (h : ReadSoFar (xs ++ ys)) : ReadSoFar ys := by
  induction xs with
  | nil => exact h
  | cons x xs ih => exact ih h.2.2.2

theorem intercalate_cons_toList (w : String) (ws : List String) :
    ∃ r, (" ".intercalate (w :: ws)).toList = w.toList ++ r ∧ ∀ x ∈ r.head?, x = ' ' := by
  cases ws with
  | nil => exact ⟨[], by simp, by simp⟩
  | cons w' ws' =>
    refine ⟨' ' :: (" ".intercalate (w' :: ws')).toList, ?_, by simp⟩
    rw [String.intercalate_cons_cons, String.toList_append, String.toList_append,
      List.append_assoc]
    rfl

theorem run_render {ts acc : List Token} (hread : ReadSoFar (ts.reverse ++ acc))
    (hprint : ∀ t ∈ ts, t.Reprintable) (l c : Nat) :
    run ⟨(Tokens.render ts).toList, l, c⟩ acc = .ok (acc.reverse ++ ts) := by
  induction ts generalizing acc c with
  | nil => simp [Tokens.render, run_nil]
  | cons t ts ih =>
    have hts : ReadSoFar (ts.reverse ++ t :: acc) := by simpa using hread
    obtain ⟨ht, hneg, -, -⟩ := readSoFar_append hts
    have htp := hprint t List.mem_cons_self
    cases ts with
    | nil =>
      have hend : ∀ x ∈ ([] : List Char).head?, x = ' ' := by simp
      have hlast := run_token ht htp hneg hend (fun _ _ _ => rfl) l c
      rw [List.append_nil] at hlast
      simp [Tokens.render, hlast, run_nil]
    | cons u us =>
      -- the next token `u` stands after one space, and whatever follows it starts with one
      obtain ⟨r, hr, hrb⟩ := intercalate_cons_toList u.render (us.map Token.render)
      obtain ⟨hu, -, hfollow, -⟩ :=
        readSoFar_append (show ReadSoFar (us.reverse ++ u :: t :: acc) by simpa using hread)
      have hpow : isNegative t = true → ∀ l c,
          powerFollows ⟨' ' :: (" ".intercalate (u.render :: us.map Token.render)).toList, l, c⟩ =
            false := by
        intro htneg l c
        obtain ⟨hcaret, hto⟩ := hfollow t rfl htneg
        rw [hr]
        exact powerFollows_render hu (hprint u (by simp)) hcaret hto hrb l c
      have hspace : ∀ x ∈ (' ' :: (" ".intercalate (u.render :: us.map Token.render)).toList).head?,
          x = ' ' := by simp
      have hstep := run_token ht htp hneg hspace hpow l c
      rw [Tokens.render, List.map_cons, List.map_cons, String.intercalate_cons_cons,
        String.toList_append, String.toList_append, List.append_assoc]
      rw [show " ".toList ++ (" ".intercalate (u.render :: us.map Token.render)).toList =
        ' ' :: (" ".intercalate (u.render :: us.map Token.render)).toList by rfl, hstep, run_blank]
      rw [← List.map_cons, ← Tokens.render, ih hts (fun v hv => hprint v (by simp [hv]))]
      simp

end Lexer

namespace Tokens

/-- A line the lexer reads, whose numbers are all integers and
whose texts hold only printable characters, newlines and tabs, reads back as the same tokens
from the tokens' texts separated by single spaces. -/
theorem lex_render_lex {s : String} {ts : List Token} (h : lex s = .ok ts)
    (hts : ∀ t ∈ ts, t.Reprintable) : lex (render ts) = .ok ts := by
  have hread : Lexer.ReadSoFar (ts.reverse ++ []) := by simpa using lex_readSoFar h
  simpa [lex] using Lexer.run_render hread hts 1 1

/-- A line written without spaces, with negative numbers after `=` and after `^` and an escaped
quote in a text, reads back from its tokens printed with single spaces. -/
theorem lex_render_lex_unspaced :
    let ts : List Token := [.sym "x", .sym "=", .num (.exact (-3)), .sym "+", .text "a\"b",
      .sym "^", .num (.exact (-2))]
    lex "x=-3+\"a\\\"b\" ^ -2" = .ok ts ∧ lex (render ts) = .ok ts := by
  intro ts
  have h : lex "x=-3+\"a\\\"b\" ^ -2" = .ok ts := by
    set_option maxRecDepth 8192 in with_unfolding_all rfl
  refine ⟨h, lex_render_lex h ?_⟩
  simp only [ts, List.mem_cons, List.not_mem_nil, or_false, forall_eq_or_imp, forall_eq]
  refine ⟨trivial, trivial, rfl, trivial, ?_, trivial, rfl⟩
  -- the text's three characters are printable
  show ∀ c ∈ "a\"b".toList, Text.isPrintable c = true ∨ c = '\n' ∨ c = '\t'
  rw [show "a\"b".toList = ['a', '"', 'b'] by rfl]
  simp only [List.mem_cons, List.not_mem_nil, or_false, forall_eq_or_imp, forall_eq]
  refine ⟨.inl ?_, .inl ?_, .inl ?_⟩ <;> set_option maxRecDepth 8192 in with_unfolding_all rfl

end Tokens

end Reckon

import Reckon.Token.Basic
import Reckon.Number.Literal
import Reckon.Text.Letter
import Reckon.Text.Blank

/-!
# Reading a line into tokens

A line is read left to right into tokens, skipping blanks:

* a text between double or single quotes, in which `\n` and `\t` stand for a newline and a
  tab and a backslash before any other character stands for that character;
* a number: digits, then a point and digits when a digit follows the point, then an exponent
  `e` or `E` with an optional sign when a digit follows; a number may also start at a point
  followed by a digit. All numbers are exact;
* a minus sign followed by a digit, where an operand must start (at the beginning or after an
  opening symbol), starts a negative number, unless the number is raised to a power (`^` or
  the word `to` follows it): then the minus stays a symbol, so that `-2^2` is `-(2^2)`;
* a word of letters, digits and underscores that starts with a letter or an underscore;
  `true` and `false` are booleans and every other word a symbol;
* an operator symbol, the longest that fits.

Positions count characters from one, by line and column.
-/

namespace Reckon

/-- Why a line cannot be read into tokens, with the line and column where it went wrong. -/
inductive LexError where
  | unexpected (line col : Nat) (c : Char)
  | unterminated (line col : Nat)
  | escapeAtEnd (line col : Nat)
  | badNumber (line col : Nat) (literal : String)

/-- The text of a lexing error. -/
def LexError.message : LexError → String
  | .unexpected l c ch => "line " ++ toString l ++ " col " ++ toString c ++
      ": unexpected character " ++ Text.quoteChar ch
  | .unterminated l c => "line " ++ toString l ++ " col " ++ toString c ++
      ": string is not terminated"
  | .escapeAtEnd l c => "line " ++ toString l ++ " col " ++ toString c ++
      ": '\\' escape is at the end of input"
  | .badNumber l c s => "line " ++ toString l ++ " col " ++ toString c ++ ": " ++
      (LiteralError.mk s).message

namespace Lexer

/-- The operator symbols, longest first. -/
def operators : List String :=
  ["...", "==", "!=", "<=", ">=", "+", "-", "*", "/", "^", "(", ")", "[", "]", "\x7b", "\x7d",
    ",", ":", "=", "<", ">"]

/-- The symbols after which an operand starts, so that a minus sign there is part of a number. -/
def openers : List String :=
  ["+", "-", "*", "/", "^", "(", "[", "\x7b", ",", ":", "=", "==", "!=", "<", ">", "<=", ">=",
    "..."]

/-- Whether `c` is an ASCII digit. -/
def isDigit (c : Char) : Bool := '0' ≤ c && c ≤ '9'

/-- Whether a word may start with `c`. -/
def isWordStart (c : Char) : Bool := Text.isLetter c || c == '_'

/-- Whether a word may go on with `c`. -/
def isWordChar (c : Char) : Bool := isWordStart c || isDigit c

/-- The characters still to read, and the line and column of the first of them. -/
structure Cursor where
  rest : List Char
  line : Nat
  col : Nat

namespace Cursor

/-- The character `k` places ahead, or the null character past the end. -/
def peek (c : Cursor) (k : Nat) : Char := c.rest.getD k '\x00'

/-- Whether nothing is left. -/
def atEnd (c : Cursor) : Bool := c.rest.isEmpty

/-- Steps over one character; a newline starts the next line. -/
def advance : Cursor → Cursor
  | ⟨[], l, c⟩ => ⟨[], l, c⟩
  | ⟨x :: xs, l, c⟩ => if x == '\n' then ⟨xs, l + 1, 1⟩ else ⟨xs, l, c + 1⟩

theorem advance_le (c : Cursor) : c.advance.rest.length ≤ c.rest.length := by
  rcases c with ⟨_ | ⟨x, xs⟩, l, col⟩
  · simp [advance]
  · simp only [advance]; split <;> simp

theorem advance_lt (c : Cursor) (h : c.rest ≠ []) : c.advance.rest.length < c.rest.length := by
  rcases c with ⟨_ | ⟨x, xs⟩, l, col⟩
  · simp at h
  · simp only [advance]; split <;> simp

/-- Steps over `n` characters. -/
def advanceBy : Nat → Cursor → Cursor
  | 0, c => c
  | n + 1, c => advanceBy n c.advance

theorem advanceBy_le (n : Nat) (c : Cursor) : (c.advanceBy n).rest.length ≤ c.rest.length := by
  induction n generalizing c with
  | zero => simp [advanceBy]
  | succ n ih => exact Nat.le_trans (ih _) (advance_le c)

/-- Steps over the characters that satisfy `p`, collecting them. -/
def takeWhile (p : Char → Bool) (c : Cursor) (acc : List Char) : List Char × Cursor :=
  match h : c.rest with
  | [] => (acc.reverse, c)
  | x :: _ =>
    if p x then
      have : c.advance.rest.length < c.rest.length := advance_lt c (by simp [h])
      takeWhile p c.advance (x :: acc)
    else (acc.reverse, c)
termination_by c.rest.length

theorem takeWhile_le (p : Char → Bool) (c : Cursor) (acc : List Char) :
    (takeWhile p c acc).2.rest.length ≤ c.rest.length := by
  fun_induction takeWhile p c acc with
  | case1 => simp
  | case2 c acc x _ h _ _ ih => exact Nat.le_trans ih (advance_le c)
  | case3 => simp

end Cursor

/-- Reads the body of a text after its opening quote, up to the closing `quote`. The
position of the opening quote is reported when the text never ends. -/
def scanText (quote : Char) (line col : Nat) (c : Cursor) (acc : List Char) :
    Except LexError (String × Cursor) :=
  match h : c.rest with
  | [] => .error (.unterminated line col)
  | x :: _ =>
    have hlt : c.advance.rest.length < c.rest.length := Cursor.advance_lt c (by simp [h])
    let c₁ := c.advance
    if x == quote then .ok (String.ofList acc.reverse, c₁)
    else if x == '\\' then
      match h₁ : c₁.rest with
      | [] => .error (.escapeAtEnd c₁.line c₁.col)
      | e :: _ =>
        have h₂ : c₁.advance.rest.length < c₁.rest.length := Cursor.advance_lt c₁ (by simp [h₁])
        have : c.advance.advance.rest.length < c.rest.length := Nat.lt_trans h₂ hlt
        let ch := if e == 'n' then '\n' else if e == 't' then '\t' else e
        scanText quote line col c₁.advance (ch :: acc)
    else scanText quote line col c₁ (x :: acc)
termination_by c.rest.length

/-- Reads the fraction of a number after its digits `whole`: a point and digits, when a digit
follows the point. A number that starts at the point has the digit `0` put in front. -/
def scanFraction (whole : List Char) (c : Cursor) : List Char × Cursor :=
  if c.peek 0 == '.' && isDigit (c.peek 1) then
    let (ds, c₂) := c.advance.takeWhile isDigit []
    ((if whole.isEmpty then ['0'] else []) ++ '.' :: ds, c₂)
  else ([], c)

/-- Reads the exponent of a number: `e` or `E`, an optional sign and digits, when a digit
follows the mark or the sign. -/
def scanExponent (c : Cursor) : List Char × Cursor :=
  let e := c.peek 0
  let n := c.peek 1
  if (e == 'e' || e == 'E') && (isDigit n || ((n == '+' || n == '-') && isDigit (c.peek 2))) then
    let signPart := if n == '+' || n == '-' then [n] else []
    let c₃ := c.advanceBy (1 + signPart.length)
    let (ds, c₄) := c₃.takeWhile isDigit []
    (e :: signPart ++ ds, c₄)
  else ([], c)

/-- Reads a number at the cursor: digits, a fraction when a digit follows the point, and an
exponent when a digit follows it. -/
def scanNumber (c : Cursor) : Except LexError (Number × Cursor) :=
  let (whole, c₁) := c.takeWhile isDigit []
  let (frac, c₂) := scanFraction whole c₁
  let (expo, c₃) := scanExponent c₂
  let literal := String.ofList (whole ++ frac ++ expo)
  match readNumber? literal with
  | some q => .ok (.exact q, c₃)
  | none => .error (.badNumber c.line c.col literal)

/-- Whether a power follows: after blanks, `^` or the word `to`. -/
def powerFollows (c : Cursor) : Bool :=
  let rest := c.rest.dropWhile Text.isBlank
  match rest with
  | '^' :: _ => true
  | 't' :: 'o' :: r => !isWordChar (r.headD '\x00')
  | _ => false

/-- The longest operator at the start of `cs`. -/
def operatorAt (cs : List Char) : Option String :=
  operators.find? fun op => op.toList.isPrefixOf cs

/-- Whether an operand starts after the tokens read so far (given last first). -/
def startsOperand : List Token → Bool
  | [] => true
  | .sym s :: _ => openers.contains s
  | _ => false

/-- Reads the tokens from the cursor on; `acc` holds the tokens read so far, last first. -/
def run (c : Cursor) (acc : List Token) : Except LexError (List Token) :=
  match h : c.rest with
  | [] => .ok acc.reverse
  | x :: _ =>
    have hlt : c.advance.rest.length < c.rest.length := Cursor.advance_lt c (by simp [h])
    if Text.isBlank x then run c.advance acc
    else if x == '"' || x == '\'' then
      match scanText x c.line c.col c.advance [] with
      | .error e => .error e
      | .ok (s, c') =>
        if c'.rest.length < c.rest.length then run c' (.text s :: acc) else .ok acc.reverse
    else if isDigit x || (x == '.' && isDigit (c.peek 1)) then
      match scanNumber c with
      | .error e => .error e
      | .ok (n, c') =>
        if c'.rest.length < c.rest.length then run c' (.num n :: acc) else .ok acc.reverse
    else if x == '-' && isDigit (c.peek 1) && startsOperand acc then
      match scanNumber c.advance with
      | .error e => .error e
      | .ok (n, c') =>
        if c'.rest.length < c.rest.length then
          if powerFollows c' then run c' (.num n :: .sym "-" :: acc)
          else run c' (.num n.neg :: acc)
        else .ok acc.reverse
    else if isWordStart x then
      let r := c.advance.takeWhile isWordChar [x]
      have : r.2.rest.length < c.rest.length :=
        Nat.lt_of_le_of_lt (Cursor.takeWhile_le isWordChar c.advance [x]) hlt
      let w := r.1
      let t : Token := if w == ['t', 'r', 'u', 'e'] then .bool true
        else if w == ['f', 'a', 'l', 's', 'e'] then .bool false
        else .sym (String.ofList w)
      run r.2 (t :: acc)
    else
      match operatorAt c.rest with
      | some op =>
        let c' := c.advanceBy op.length
        if c'.rest.length < c.rest.length then run c' (.sym op :: acc)
        else .ok acc.reverse
      | none => .error (.unexpected c.line c.col x)
termination_by c.rest.length

end Lexer

namespace Tokens

/-- The tokens of a line. -/
def lex (s : String) : Except LexError (List Token) :=
  Lexer.run ⟨s.toList, 1, 1⟩ []

/-- Splits a definition `pattern = replacement` at its first `=` outside brackets; the depth
counts opening and closing brackets of all three kinds and never goes below zero. -/
def splitDefinition (ts : List Token) : Option (List Token × List Token) :=
  go ts 0 []
where
  /-- Scans with the bracket depth and the tokens passed so far, last first. -/
  go : List Token → Nat → List Token → Option (List Token × List Token)
    | [], _, _ => none
    | t :: rest, depth, seen =>
      if t.isSym "(" || t.isSym "[" || t.isSym "\x7b" then go rest (depth + 1) (t :: seen)
      else if t.isSym ")" || t.isSym "]" || t.isSym "\x7d" then go rest (depth - 1) (t :: seen)
      else if depth == 0 && t.isSym "=" then some (seen.reverse, rest)
      else go rest depth (t :: seen)

end Tokens

end Reckon

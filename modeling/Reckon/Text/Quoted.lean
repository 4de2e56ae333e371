import Reckon.Text.Printable

/-!
# Quoted text

Text is written between quotes. The quote itself and the backslash are preceded by a
backslash; printable characters stand as they are; the bell, backspace, form feed, newline,
carriage return, tab and vertical tab have their one-letter escapes; other controls below
the space, and the delete character, are written `\xNN`; any other character is written
`\uNNNN`, or `\UNNNNNNNN` beyond the basic plane. Hexadecimal digits are lower case.
-/

namespace Reckon.Text

/-- The `width` lower-case hexadecimal digits of `n`, most significant first. -/
def hexDigits (width n : Nat) : List Char :=
  (List.range width).reverse.map fun i => Nat.digitChar (n / Nat.pow 16 i % 16)

/-- How the character `c` is written inside text quoted with `quote`. -/
def escapeChar (quote c : Char) : List Char :=
  if c == quote || c == '\\' then ['\\', c]
  else if isPrintable c then [c]
  else
    match c.toNat with
    | 0x07 => ['\\', 'a']
    | 0x08 => ['\\', 'b']
    | 0x0C => ['\\', 'f']
    | 0x0A => ['\\', 'n']
    | 0x0D => ['\\', 'r']
    | 0x09 => ['\\', 't']
    | 0x0B => ['\\', 'v']
    | n =>
      if n < 0x20 || n == 0x7F then '\\' :: 'x' :: hexDigits 2 n
      else if n < 0x10000 then '\\' :: 'u' :: hexDigits 4 n
      else '\\' :: 'U' :: hexDigits 8 n

/-- The text `s` between double quotes, with its characters escaped. -/
def quote (s : String) : String :=
  String.ofList ('"' :: (s.toList.flatMap (escapeChar '"')) ++ ['"'])

/-- The single character `c` between single quotes, escaped as inside quoted text. -/
def quoteChar (c : Char) : String :=
  String.ofList ('\'' :: escapeChar '\'' c ++ ['\''])

end Reckon.Text

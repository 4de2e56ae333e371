/-!
# Binary data written as text

Base64 text carries bytes four characters to three bytes, over the alphabet `A-Z`, `a-z`,
`0-9`, `+`, `/`. The last group of four may end in one or two `=`, standing for the bytes it does
not carry; every other group is four characters of the alphabet. Line breaks may stand anywhere
and are ignored. The bits a padded group leaves over are not checked.

Bytes are read back as text by UTF-8; a byte that starts no valid encoding reads as U+FFFD and
reading goes on with the next byte.
-/

namespace Reckon.Text

/-- The value of a character of the base64 alphabet. -/
def sextet? (c : Char) : Option Nat :=
  if 'A' ≤ c && c ≤ 'Z' then some (c.toNat - 'A'.toNat)
  else if 'a' ≤ c && c ≤ 'z' then some (c.toNat - 'a'.toNat + 26)
  else if '0' ≤ c && c ≤ '9' then some (c.toNat - '0'.toNat + 52)
  else if c == '+' then some 62
  else if c == '/' then some 63
  else none

/-- The bytes of groups of four base64 characters without line breaks. -/
def base64Groups : List Char → Option (List UInt8)
  | [] => some []
  | [a, b, '=', '='] => do
    let v := (← sextet? a) * 64 + (← sextet? b)
    some [UInt8.ofNat (v / 16)]
  | [a, b, c, '='] => do
    let v := ((← sextet? a) * 64 + (← sextet? b)) * 64 + (← sextet? c)
    some [UInt8.ofNat (v / 1024), UInt8.ofNat (v / 4)]
  | a :: b :: c :: d :: rest => do
    let v := (((← sextet? a) * 64 + (← sextet? b)) * 64 + (← sextet? c)) * 64 + (← sextet? d)
    let tail ← base64Groups rest
    some (UInt8.ofNat (v / 65536) :: UInt8.ofNat (v / 256) :: UInt8.ofNat v :: tail)
  | _ => none

/-- The bytes that base64 text carries; `none` when the text is not base64. -/
def decodeBase64 (text : String) : Option (List UInt8) :=
  base64Groups (text.toList.filter fun c => c != '\n' && c != '\r')

/-- Whether a byte continues a UTF-8 encoding. -/
def isContinuation (b : UInt8) : Bool := 0x80 ≤ b && b ≤ 0xBF

/-- The character of the UTF-8 encoding that starts with the byte `b`, followed by `rest`, and
how many bytes of `rest` it takes. A byte that starts no valid encoding gives U+FFFD and takes
none. The second byte of an encoding is held to the range that keeps the encoding shortest and
below U+110000, outside the surrogates. -/
def utf8Step (b : UInt8) (rest : List UInt8) : Char × Nat :=
  if b < 0x80 then (Char.ofNat b.toNat, 0)
  else if 0xC2 ≤ b && b ≤ 0xDF then
    match rest with
    | c :: _ =>
      if isContinuation c then (Char.ofNat ((b.toNat - 0xC0) * 64 + (c.toNat - 0x80)), 1)
      else ('\uFFFD', 0)
    | [] => ('\uFFFD', 0)
  else if 0xE0 ≤ b && b ≤ 0xEF then
    let lo : UInt8 := if b == 0xE0 then 0xA0 else 0x80
    let hi : UInt8 := if b == 0xED then 0x9F else 0xBF
    match rest with
    | c :: d :: _ =>
      if lo ≤ c && c ≤ hi && isContinuation d then
        (Char.ofNat (((b.toNat - 0xE0) * 64 + (c.toNat - 0x80)) * 64 + (d.toNat - 0x80)), 2)
      else ('\uFFFD', 0)
    | _ => ('\uFFFD', 0)
  else if 0xF0 ≤ b && b ≤ 0xF4 then
    let lo : UInt8 := if b == 0xF0 then 0x90 else 0x80
    let hi : UInt8 := if b == 0xF4 then 0x8F else 0xBF
    match rest with
    | c :: d :: e :: _ =>
      if lo ≤ c && c ≤ hi && isContinuation d && isContinuation e then
        (Char.ofNat ((((b.toNat - 0xF0) * 64 + (c.toNat - 0x80)) * 64 + (d.toNat - 0x80)) * 64 +
          (e.toNat - 0x80)), 3)
      else ('\uFFFD', 0)
    | _ => ('\uFFFD', 0)
  else ('\uFFFD', 0)

/-- The characters that UTF-8 bytes encode, one encoding at a time. -/
def utf8Chars : List UInt8 → List Char
  | [] => []
  | b :: rest =>
    let step := utf8Step b rest
    step.1 :: utf8Chars (rest.drop step.2)
termination_by bs => bs.length
decreasing_by simp only [List.length_drop, List.length_cons]; omega

/-- The text that UTF-8 bytes encode, U+FFFD standing for each byte that starts no valid
encoding. -/
def ofUtf8 (bytes : List UInt8) : String := String.ofList (utf8Chars bytes)

end Reckon.Text

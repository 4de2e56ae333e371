import Reckon.Yaml.Resolve

/-!
# Writing YAML scalars

A text is written plain when it would read back as the same text and nothing in it needs
quoting; otherwise in single quotes when they can hold it; otherwise in double quotes with
escapes. A text with a line break is written as a literal block when the block can hold it.

A plain scalar must not begin with an indicator, must not hold `: ` or ` #`, and must not begin
or end with a blank; single quotes cannot hold tabs, characters outside the printable set, or a
blank next to a line break. Texts that would read back as another type (`true`, `10`, `~`),
sexagesimal numbers such as `1:20` and the old booleans such as `yes` are quoted.
-/

namespace Reckon.Yaml

namespace Emit

/-- Whether a character may be written as it is in a quoted or block scalar: the printable
characters of the basic plane and line feed, but no byte order mark and no surrogate. -/
def isPrintable (c : Char) : Bool :=
  let v := c.toNat
  v == 0x0A || (0x20 ≤ v && v ≤ 0x7E) || (0xA0 ≤ v && v ≤ 0xD7FF) ||
    (0xE000 ≤ v && v ≤ 0xFFFD && v != 0xFEFF)

/-- A space. -/
def isSpace (c : Char) : Bool := c == ' '

/-- A line break in the output sense. -/
def isBreakChar (c : Char) : Bool :=
  c == '\r' || c == '\n' || c == '\u0085' || c == '\u2028' || c == '\u2029'

/-- What a text allows when written as a scalar. -/
structure Analysis where
  multiline : Bool
  flowPlain : Bool
  blockPlain : Bool
  singleQuoted : Bool
  block : Bool

/-- The styles a text allows. -/
def analyze (value : String) : Analysis :=
  let cs := value.toList
  if cs.isEmpty then ⟨false, false, true, true, false⟩
  else
    let n := cs.length
    let triple := n ≥ 3 &&
      ((cs.take 3 == ['-', '-', '-']) || (cs.take 3 == ['.', '.', '.']))
    let init := (triple, triple, false, false, false, false, false, false, false, false,
      false, false, true, false)
    -- block, flow, breaks, special, tabs, leadSpace, leadBreak, trailSpace, trailBreak,
    -- breakSpace, spaceBreak, prevSpace, precededByWhitespace, prevBreak
    let step := fun (acc : Bool × Bool × Bool × Bool × Bool × Bool × Bool × Bool × Bool × Bool ×
        Bool × Bool × Bool × Bool) (ic : Nat × Char) =>
      let (i, c) := ic
      let (bi, fi, lb, sp, tb, ls, lbr, ts, tbr, bs, sb, ps, pw, pb) := acc
      let next := cs.getD (i + 1) '\x00'
      let followed := i + 1 ≥ n || next == ' ' || next == '\t'
      let (bi, fi) :=
        if i == 0 then
          if "#,[]\x7b\x7d&*!|>'\"%@`".contains c then (true, true)
          else if c == '?' || c == ':' then (bi || followed, true)
          else if c == '-' then (bi || followed, fi || followed)
          else (bi, fi)
        else
          if ",?[]\x7b\x7d".contains c then (bi, true)
          else if c == ':' then (bi || followed, true)
          else if c == '#' then (bi || pw, fi || pw)
          else (bi, fi)
      let (tb, sp) :=
        if c == '\t' then (true, sp)
        else if !isPrintable c then (tb, true)
        else (tb, sp)
      let (ls, lbr, ts, tbr, bs, sb, ps, pb, lb) :=
        if isSpace c then
          (ls || i == 0, lbr, ts || i + 1 == n, tbr, bs || pb, sb, true, false, lb)
        else if isBreakChar c then
          (ls, lbr || i == 0, ts, tbr || i + 1 == n, bs, sb || ps, false, true, true)
        else (ls, lbr, ts, tbr, bs, sb, false, false, lb)
      let pw := c == ' ' || c == '\t' || isBreakChar c
      (bi, fi, lb, sp, tb, ls, lbr, ts, tbr, bs, sb, ps, pw, pb)
    let (bi, fi, lb, sp, tb, ls, lbr, ts, tbr, bs, sb, _, _, _) :=
      (cs.zipIdx.map fun (c, i) => (i, c)).foldl step init
    let edges := ls || lbr || ts || tbr
    let flowPlain := !(edges || bs || sb || tb || sp || lb || fi)
    let blockPlain := !(edges || bs || sb || tb || sp || lb || bi)
    let singleQuoted := !(bs || sb || tb || sp)
    let block := !(ts || sb || sp)
    ⟨lb, flowPlain, blockPlain, singleQuoted, block⟩

mutual

/-- The rest of a sexagesimal number after a group: more groups, a fraction, or the end. -/
def base60Tail : List Char → Bool
  | [] => true
  | '.' :: r => r.all fun c => c.isDigit || c == '_'
  | ':' :: r => base60Group r
  | _ => false

/-- A group `[0-5]?[0-9]` after a colon, and the rest. -/
def base60Group : List Char → Bool
  | a :: b :: r =>
    (a.isDigit && a ≤ '5' && b.isDigit && base60Tail r) || (a.isDigit && base60Tail (b :: r))
  | [a] => a.isDigit
  | [] => false

end

/-- Whether a text has the form of a sexagesimal number, such as `1:20` or `-3:25:45.5`. -/
def isBase60 (cs : List Char) : Bool :=
  let cs := match cs with
    | '-' :: r | '+' :: r => r
    | r => r
  match cs with
  | c :: rest =>
    c.isDigit &&
      match rest.dropWhile fun c => c.isDigit || c == '_' with
      | ':' :: r => base60Group r
      | _ => false
  | [] => false

/-- Whether a text is one of the old spellings of a truth value. -/
def isOldBool (s : String) : Bool :=
  ["y", "Y", "yes", "Yes", "YES", "on", "On", "ON", "n", "N", "no", "No", "NO", "off", "Off",
    "OFF"].contains s

/-- The digits of `v` in upper-case hexadecimal, `width` of them. -/
def hexUpper (width v : Nat) : String :=
  String.ofList ((List.range width).reverse.map fun k =>
    let d := v / Nat.pow 16 k % 16
    if d < 10 then Char.ofNat (48 + d) else Char.ofNat (55 + d))

/-- A character of a double-quoted scalar. -/
def escape (c : Char) : String :=
  if isPrintable c && !isBreakChar c && c != '"' && c != '\\' then c.toString
  else
    match c.toNat with
    | 0x00 => "\\0"
    | 0x07 => "\\a"
    | 0x08 => "\\b"
    | 0x09 => "\\t"
    | 0x0A => "\\n"
    | 0x0B => "\\v"
    | 0x0C => "\\f"
    | 0x0D => "\\r"
    | 0x1B => "\\e"
    | 0x22 => "\\\""
    | 0x5C => "\\\\"
    | 0x85 => "\\N"
    | 0xA0 => "\\_"
    | 0x2028 => "\\L"
    | 0x2029 => "\\P"
    | v =>
      if v ≤ 0xFF then "\\x" ++ hexUpper 2 v
      else if v ≤ 0xFFFF then "\\u" ++ hexUpper 4 v
      else "\\U" ++ hexUpper 8 v

/-- A text in double quotes. -/
def doubleQuoted (s : String) : String :=
  "\"" ++ String.join (s.toList.map escape) ++ "\""

/-- A text in single quotes, with quotes doubled. -/
def singleQuotedText (s : String) : String :=
  "'" ++ String.join (s.toList.map fun c => if c == '\'' then "''" else c.toString) ++ "'"

/-- The chomping and indentation hints of a literal block. -/
def blockHints (s : String) (indentStep : Nat) : String :=
  let cs := s.toList
  let indentHint := match cs.head? with
    | some c => if isSpace c || isBreakChar c then toString indentStep else ""
    | none => ""
  let rev := cs.reverse
  let chomp := match rev with
    | [] => "-"
    | c :: rest =>
      if !isBreakChar c then "-"
      else match rest with
        | [] => "+"
        | d :: _ => if isBreakChar d then "+" else ""
  indentHint ++ chomp

/-- A literal block: `|` with its hints, then every line indented by `indent`; empty lines stay
empty. -/
def literal (s : String) (indent indentStep : Nat) : String :=
  let lines := s.splitOn "\n"
  let pad := String.ofList (List.replicate indent ' ')
  let body := "\n".intercalate (lines.map fun l => if l.isEmpty then "" else pad ++ l)
  "|" ++ blockHints s indentStep ++ "\n" ++ body

end Emit

/-- A text as a block mapping value, indented by `indent` where its lines need indenting. -/
def emitString (s : String) (indent : Nat) : String :=
  let plainOk := match resolve "" s with
    | .ok (tag, _) => tag == strTag && !(Emit.isBase60 s.toList || Emit.isOldBool s)
    | .error _ => false
  let a := Emit.analyze s
  if s.contains '\n' then
    if a.block then Emit.literal s indent 4 else Emit.doubleQuoted s
  else if !plainOk then Emit.doubleQuoted s
  else if a.blockPlain then s
  else if a.singleQuoted then Emit.singleQuotedText s
  else Emit.doubleQuoted s

end Reckon.Yaml

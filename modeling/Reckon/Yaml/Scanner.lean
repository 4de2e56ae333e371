import Reckon.Yaml.Token

/-!
# Scanning YAML

The scanner reads the text one token at a time, on demand. Block structure comes from
indentation: a deeper column opens a block collection, and a shallower one closes blocks with
`blockEnd` tokens. A key written without `?` is only known to be a key once its `:` is seen, so
the scanner remembers where such a simple key may have started, one place per flow level, and
inserts the `key` token (and the start of a block mapping) there when the `:` comes. A simple key
must stay on one line and within 1024 characters; a simple key that the indentation requires and
that never gets its `:` is an error.

Tokens are fetched until at least three wait unread and the first of them cannot still become
a key. Every loop of the scanner moves through the text, and is bounded by its length.
-/

namespace Reckon.Yaml

/-! ### Characters -/

/-- A space or a tab. -/
def isBlank (c : Char) : Bool := c == ' ' || c == '\t'

/-- A line break: carriage return, line feed, next line, line or paragraph separator. -/
def isBreak (c : Char) : Bool :=
  c == '\r' || c == '\n' || c == '\u0085' || c == '\u2028' || c == '\u2029'

/-- The mark past the end of the text. -/
def isEnd (c : Char) : Bool := c == '\x00'

/-- A line break or the end. -/
def isBreakZ (c : Char) : Bool := isBreak c || isEnd c

/-- A blank, a line break or the end. -/
def isBlankZ (c : Char) : Bool := isBlank c || isBreakZ c

/-- A letter, a digit, `_` or `-`. -/
def isWordChar (c : Char) : Bool :=
  ('0' ≤ c && c ≤ '9') || ('a' ≤ c && c ≤ 'z') || ('A' ≤ c && c ≤ 'Z') || c == '_' || c == '-'

/-- A decimal digit. -/
def isDigit (c : Char) : Bool := '0' ≤ c && c ≤ '9'

/-- A hexadecimal digit. -/
def isHex (c : Char) : Bool :=
  isDigit c || ('a' ≤ c && c ≤ 'f') || ('A' ≤ c && c ≤ 'F')

/-- The value of a hexadecimal digit. -/
def hexValue (c : Char) : Nat :=
  if isDigit c then c.toNat - '0'.toNat
  else if 'a' ≤ c && c ≤ 'f' then c.toNat - 'a'.toNat + 10
  else c.toNat - 'A'.toNat + 10

/-- Whether YAML allows the character in a text. -/
def isAllowed (c : Char) : Bool :=
  let v := c.toNat
  v == 0x09 || v == 0x0A || v == 0x0D || (0x20 ≤ v && v ≤ 0x7E) || v == 0x85 ||
    (0xA0 ≤ v && v ≤ 0xD7FF) || (0xE000 ≤ v && v ≤ 0xFFFD) || (0x10000 ≤ v && v ≤ 0x10FFFF)

/-! ### The scanner's state -/

/-- A place where a key without `?` may have started: whether it still may, whether the
indentation requires a key there, the number of its first token and its mark. -/
structure SimpleKey where
  possible : Bool
  required : Bool
  number : Nat
  mark : Mark
  deriving Inhabited

/-- The scanner: the text, how many of its characters the reader lets through, the current
mark, every token fetched so far (the first `parsed` of them consumed), the flow level, the
indentation stack, whether a simple key may start here, one simple key place per flow level,
and the simple keys by the number of their first token. -/
structure Scanner where
  input : Array Char
  readable : Nat
  mark : Mark
  tokens : Array Token
  parsed : Nat
  started : Bool
  flowLevel : Nat
  indent : Int
  indents : List Int
  keyAllowed : Bool
  keys : Array SimpleKey
  byToken : List (Nat × Nat)

/-- Scanning: a state change that may fail. -/
abbrev ScanM := StateT Scanner (Except Failure)

namespace Scanner

/-- The byte offset after each character of `cs`, counting from `start`. -/
def byteEnds : List Char → Nat → List Nat
  | [], _ => []
  | c :: cs, start => (start + c.utf8Size) :: byteEnds cs (start + c.utf8Size)

/-- How many characters of `cs`, which start at byte `start`, the reader lets through. The
reader decodes the text in blocks of 512 bytes, a block only when the scanner needs a character
past those decoded so far, and refuses a block that holds a character YAML does not allow; the
characters that end in the blocks before that one pass. `none` when every character is allowed. -/
def readableOf (cs : List Char) (start : Nat) : Option Nat :=
  let ends := byteEnds cs start
  match (cs.zip ends).find? (fun (c, _) => !isAllowed c) with
  | none => none
  | some (_, e) =>
    let boundary := 512 * ((e + 511) / 512 - 1)
    some (ends.takeWhile (· ≤ boundary)).length

/-- The scanner at the start of `text`. A byte order mark at the very start is not part of the
text. -/
def create (text : String) : Scanner :=
  let (cs, start) := match text.toList with
    | '\uFEFF' :: rest => (rest, 3)
    | cs => (cs, 0)
  let readable := (readableOf cs start).getD (cs.length + 8)
  ⟨cs.toArray, readable, ⟨0, 0, 0⟩, #[], 0, false, 0, -1, [], false, #[], []⟩

/-- Enough steps for any loop over the text. -/
def fuel : ScanM Nat := fun s => .ok (s.input.size + 8, s)

/-- The character `k` places ahead; the end reads as `'\x00'`. Looking past what the reader
lets through fails. -/
def ahead (k : Nat) : ScanM Char := fun s =>
  if s.readable ≤ s.mark.index + k then .error (.reader "control characters are not allowed")
  else .ok (s.input.getD (s.mark.index + k) '\x00', s)

/-- The current mark. -/
def here : ScanM Mark := fun s => .ok (s.mark, s)

/-- Fails at the current mark, inside what started at `context`. -/
def fail {α : Type} (context : Mark) (what : String) : ScanM α :=
  fun s => .error (.scanner context s.mark what)

/-- Moves past one character that is not a line break. -/
def skip : ScanM Unit :=
  modify fun s => { s with mark := ⟨s.mark.index + 1, s.mark.line, s.mark.column + 1⟩ }

/-- Moves past one line break; `\r\n` counts as one. -/
def skipLine : ScanM Unit := do
  let c ← ahead 0
  let d ← ahead 1
  if c == '\r' && d == '\n' then
    modify fun s => { s with mark := ⟨s.mark.index + 2, s.mark.line + 1, 0⟩ }
  else if isBreak c then
    modify fun s => { s with mark := ⟨s.mark.index + 1, s.mark.line + 1, 0⟩ }

/-- Appends the current character to `acc` and moves past it. -/
def read (acc : String) : ScanM String := do
  let c ← ahead 0
  skip
  return acc.push c

/-- Appends the current line break to `acc` and moves past it: a line or paragraph separator
as it is, any other break as a line feed. -/
def readLine (acc : String) : ScanM String := do
  let c ← ahead 0
  if c == '\u2028' || c == '\u2029' then
    skipLine
    return acc.push c
  else if isBreak c then
    skipLine
    return acc.push '\n'
  else return acc

/-- Appends a token. -/
def append (t : Token) : ScanM Unit := modify fun s => { s with tokens := s.tokens.push t }

/-- Inserts a token so that it becomes token number `n`. -/
def insertAt (n : Nat) (t : Token) : ScanM Unit :=
  modify fun s => { s with tokens := (s.tokens.extract 0 n).push t ++ s.tokens.extract n s.tokens.size }

/-- Appends a token of `kind` from `start` to the current mark. -/
def emit (kind : TokenKind) (start : Mark) : ScanM Unit := do
  append ⟨kind, start, ← here⟩

/-! ### Simple keys and indentation -/

/-- The simple key place of the current flow level. -/
def lastKey (s : Scanner) : SimpleKey := s.keys.getD (s.keys.size - 1) default

/-- Forgets the simple key of the current flow level; a required one is an error. -/
def removeSimpleKey : ScanM Unit := do
  let s ← get
  let k := lastKey s
  if k.possible then
    if k.required then fail k.mark "could not find expected ':'"
    set { s with keys := s.keys.modify (s.keys.size - 1) fun k => { k with possible := false },
                 byToken := s.byToken.filter (·.1 != k.number) }

/-- Remembers that a simple key may start at the current mark, if one may. -/
def saveSimpleKey : ScanM Unit := do
  let s ← get
  if s.keyAllowed then
    let required := s.flowLevel == 0 && s.indent == (s.mark.column : Int)
    let key : SimpleKey := ⟨true, required, s.tokens.size, s.mark⟩
    removeSimpleKey
    modify fun s => { s with keys := s.keys.modify (s.keys.size - 1) fun _ => key,
                             byToken := (key.number, s.keys.size - 1) :: s.byToken }

/-- Whether the simple key in place `i` can still be a key. One that has left its line or gone
past 1024 characters cannot; if it was required, that is an error. -/
def keyValid (i : Nat) : ScanM Bool := do
  let s ← get
  let k := s.keys.getD i default
  if !k.possible then return false
  if k.mark.line < s.mark.line || k.mark.index + 1024 < s.mark.index then
    if k.required then fail k.mark "could not find expected ':'"
    set { s with keys := s.keys.modify i fun k => { k with possible := false } }
    return false
  return true

/-- Enters a flow collection. -/
def increaseFlowLevel : ScanM Unit := do
  let s ← get
  set { s with keys := s.keys.push ⟨false, false, 0, s.mark⟩, flowLevel := s.flowLevel + 1 }
  if 10000 < s.flowLevel + 1 then fail s.mark "exceeded max depth of 10000"

/-- Leaves a flow collection. -/
def decreaseFlowLevel : ScanM Unit :=
  modify fun s =>
    if 0 < s.flowLevel then
      { s with flowLevel := s.flowLevel - 1, keys := s.keys.pop,
               byToken := s.byToken.filter (·.1 != (lastKey s).number) }
    else s

/-- Opens a block collection at `column` if it is deeper than the current indentation: the
start token goes at number `at?`, or at the end. -/
def rollIndent (column : Int) (at? : Option Nat) (kind : TokenKind) (m : Mark) : ScanM Unit := do
  let s ← get
  if s.flowLevel == 0 && s.indent < column then
    set { s with indents := s.indent :: s.indents, indent := column }
    if 10000 < s.indents.length + 1 then fail (lastKey s).mark "exceeded max depth of 10000"
    match at? with
    | some n => insertAt n ⟨kind, m, m⟩
    | none => append ⟨kind, m, m⟩

/-- Closes the block collections deeper than `column`, one `blockEnd` token each. -/
def unrollIndent (column : Int) (m : Mark) : Nat → ScanM Unit
  | 0 => pure ()
  | n + 1 => do
    let s ← get
    if s.flowLevel == 0 && column < s.indent then
      match s.indents with
      | i :: rest =>
        set { s with tokens := s.tokens.push ⟨.blockEnd, m, m⟩, indent := i, indents := rest }
        unrollIndent column m n
      | [] => pure ()

/-- Closes the deeper block collections; their end tokens carry the mark just before
`scanMark`. -/
def unroll (column : Int) (scanMark : Mark) : ScanM Unit := do
  let s ← get
  unrollIndent column { scanMark with index := scanMark.index - 1 } (s.indents.length + 1)

/-! ### Between tokens -/

/-- Skips spaces, and tabs where tabs may separate tokens. -/
def skipSpaces : Nat → ScanM Unit
  | 0 => pure ()
  | n + 1 => do
    let s ← get
    let c ← ahead 0
    if c == ' ' || ((0 < s.flowLevel || !s.keyAllowed) && c == '\t') then
      skip
      skipSpaces n

/-- Skips to the end of the line. -/
def skipToBreak : Nat → ScanM Unit
  | 0 => pure ()
  | n + 1 => do
    if !isBreakZ (← ahead 0) then
      skip
      skipToBreak n

/-- Skips blanks, comments and line breaks up to the next token. In the block context a new
line may start a simple key. -/
def scanToNextToken : Nat → ScanM Unit
  | 0 => pure ()
  | n + 1 => do
    if (← here).column == 0 && (← ahead 0) == '\uFEFF' then skip
    skipSpaces (← fuel)
    if (← ahead 0) == '#' then skipToBreak (← fuel)
    if isBreak (← ahead 0) then
      skipLine
      if (← get).flowLevel == 0 then modify fun s => { s with keyAllowed := true }
      scanToNextToken n

/-! ### Scalars -/

/-- Skips blanks. -/
def skipBlanks : Nat → ScanM Unit
  | 0 => pure ()
  | n + 1 => do
    if isBlank (← ahead 0) then
      skip
      skipBlanks n

/-- Reads characters while `p` holds. -/
def readWhile (p : Char → Bool) (acc : String) : Nat → ScanM String
  | 0 => pure acc
  | n + 1 => do
    if p (← ahead 0) then readWhile p (← read acc) n else pure acc

/-- The joined text of a line folding: a single line break becomes a space unless more breaks
follow, which are kept. -/
def fold (leadingBreak trailingBreaks : String) : String :=
  if leadingBreak.startsWith "\n" then
    if trailingBreaks.isEmpty then " " else trailingBreaks
  else leadingBreak ++ trailingBreaks

/-- The part of a plain scalar after its first character; `whitespace`, `leadingBreak`,
`trailingBreaks` and `leadingBlanks` hold what separates the text so far from what follows. -/
def plainBody (indent : Int) (start : Mark) :
    Nat → String → String → String → String → Bool → Mark → ScanM (String × Mark × Bool)
  | 0, s, _, _, _, lb, e => pure (s, e, lb)
  | n + 1, s, ws, lbreak, tbreaks, lblanks, e => do
    let c0 ← ahead 0
    let c1 ← ahead 1
    let c2 ← ahead 2
    let c3 ← ahead 3
    let m ← here
    if m.column == 0 && ((c0 == '-' && c1 == '-' && c2 == '-') || (c0 == '.' && c1 == '.' && c2 == '.'))
        && isBlankZ c3 then return (s, e, lblanks)
    if c0 == '#' then return (s, e, lblanks)
    -- the run of non-blank characters
    let (s, ws, lbreak, tbreaks, lblanks, e) ← plainRun s ws lbreak tbreaks lblanks e (← fuel)
    let c ← ahead 0
    if !(isBlank c || isBreak c) then return (s, e, lblanks)
    let (ws, lbreak, tbreaks, lblanks) ← plainBlanks indent start ws lbreak tbreaks lblanks (← fuel)
    let s' ← get
    if s'.flowLevel == 0 && ((← here).column : Int) < indent then return (s, e, lblanks)
    plainBody indent start n s ws lbreak tbreaks lblanks e
where
  /-- Reads non-blank characters up to an indicator that ends the scalar. -/
  plainRun (s ws lbreak tbreaks : String) (lblanks : Bool) (e : Mark) :
      Nat → ScanM (String × String × String × String × Bool × Mark)
    | 0 => pure (s, ws, lbreak, tbreaks, lblanks, e)
    | n + 1 => do
      let c ← ahead 0
      if isBlankZ c then return (s, ws, lbreak, tbreaks, lblanks, e)
      let d ← ahead 1
      let flow := 0 < (← get).flowLevel
      if (c == ':' && isBlankZ d) ||
          (flow && (c == ',' || c == '?' || c == '[' || c == ']' || c == '{' || c == '}')) then
        return (s, ws, lbreak, tbreaks, lblanks, e)
      let (s, ws, lbreak, tbreaks, lblanks) :=
        if lblanks || !ws.isEmpty then
          if lblanks then (s ++ fold lbreak tbreaks, ws, "", "", false)
          else (s ++ ws, "", lbreak, tbreaks, lblanks)
        else (s, ws, lbreak, tbreaks, lblanks)
      let s ← read s
      plainRun s ws lbreak tbreaks lblanks (← here) n
  /-- Reads the blanks and line breaks after a run. -/
  plainBlanks (indent : Int) (start : Mark) (ws lbreak tbreaks : String) (lblanks : Bool) :
      Nat → ScanM (String × String × String × Bool)
    | 0 => pure (ws, lbreak, tbreaks, lblanks)
    | n + 1 => do
      let c ← ahead 0
      if isBlank c then
        if lblanks && ((← here).column : Int) < indent && c == '\t' then
          fail start "found a tab character that violates indentation"
        if !lblanks then plainBlanks indent start (← read ws) lbreak tbreaks lblanks n
        else
          skip
          plainBlanks indent start ws lbreak tbreaks lblanks n
      else if isBreak c then
        if !lblanks then plainBlanks indent start "" (← readLine lbreak) tbreaks true n
        else plainBlanks indent start ws lbreak (← readLine tbreaks) lblanks n
      else pure (ws, lbreak, tbreaks, lblanks)

/-- Scans a plain scalar. A scalar that ran over a line break lets a simple key follow. -/
def scanPlain : ScanM Unit := do
  let s ← get
  let start ← here
  let (text, e, lblanks) ← plainBody (s.indent + 1) start (← fuel) "" "" "" "" false start
  append ⟨.scalar text .plain, start, e⟩
  if lblanks then modify fun s => { s with keyAllowed := true }

/-- The character of a one-letter escape in a double-quoted scalar. -/
def escapeOf (c : Char) : Option Char :=
  match c with
  | '0' => some '\x00'
  | 'a' => some '\x07'
  | 'b' => some '\x08'
  | 't' | '\t' => some '\t'
  | 'n' => some '\n'
  | 'v' => some '\x0b'
  | 'f' => some '\x0c'
  | 'r' => some '\r'
  | 'e' => some '\x1b'
  | ' ' => some ' '
  | '"' => some '"'
  | '\'' => some '\''
  | '\\' => some '\\'
  | 'N' => some '\u0085'
  | '_' => some '\u00A0'
  | 'L' => some '\u2028'
  | 'P' => some '\u2029'
  | _ => none

/-- Reads `k` hexadecimal digits of an escape. -/
def hexDigits (start : Mark) : Nat → Nat → ScanM Nat
  | 0, v => pure v
  | k + 1, v => do
    let c ← ahead 0
    if !isHex c then fail start "did not find expected hexdecimal number"
    skip
    hexDigits start k (v * 16 + hexValue c)

/-- Reads the non-blank characters of a quoted scalar up to a blank, a line break or the
closing quote. Reports whether an escaped line break ended the run. -/
def quotedRun (single : Bool) (start : Mark) (s : String) : Nat → ScanM (String × Bool)
  | 0 => pure (s, false)
  | n + 1 => do
    let c ← ahead 0
    if isBlankZ c then return (s, false)
    let d ← ahead 1
    if single && c == '\'' && d == '\'' then
      skip
      skip
      quotedRun single start (s.push '\'') n
    else if single && c == '\'' then return (s, false)
    else if !single && c == '"' then return (s, false)
    else if !single && c == '\\' && isBreak d then
      skip
      skipLine
      return (s, true)
    else if !single && c == '\\' then
      let width : Nat := if d == 'x' then 2 else if d == 'u' then 4 else if d == 'U' then 8 else 0
      if width == 0 then
        match escapeOf d with
        | some e =>
          skip
          skip
          quotedRun single start (s.push e) n
        | none => fail start "found unknown escape character"
      else
        skip
        skip
        let v ← hexDigits start width 0
        if (0xD800 ≤ v && v ≤ 0xDFFF) || 0x10FFFF < v then
          fail start "found invalid Unicode character escape code"
        quotedRun single start (s.push (Char.ofNat v)) n
    else quotedRun single start (← read s) n

/-- Reads the blanks and line breaks inside a quoted scalar. -/
def quotedBlanks (ws lbreak tbreaks : String) (lblanks : Bool) :
    Nat → ScanM (String × String × String × Bool)
  | 0 => pure (ws, lbreak, tbreaks, lblanks)
  | n + 1 => do
    let c ← ahead 0
    if isBlank c then
      if !lblanks then quotedBlanks (← read ws) lbreak tbreaks lblanks n
      else
        skip
        quotedBlanks ws lbreak tbreaks lblanks n
    else if isBreak c then
      if !lblanks then quotedBlanks "" (← readLine lbreak) tbreaks true n
      else quotedBlanks ws lbreak (← readLine tbreaks) lblanks n
    else pure (ws, lbreak, tbreaks, lblanks)

/-- The body of a quoted scalar, line by line. -/
def quotedBody (single : Bool) (start : Mark) : Nat → String → ScanM String
  | 0, s => pure s
  | n + 1, s => do
    let c0 ← ahead 0
    let c1 ← ahead 1
    let c2 ← ahead 2
    let c3 ← ahead 3
    if (← here).column == 0 &&
        ((c0 == '-' && c1 == '-' && c2 == '-') || (c0 == '.' && c1 == '.' && c2 == '.')) &&
        isBlankZ c3 then
      fail start "found unexpected document indicator"
    if isEnd c0 then fail start "found unexpected end of stream"
    let (s, lblanks) ← quotedRun single start s (← fuel)
    let c ← ahead 0
    if (single && c == '\'') || (!single && c == '"') then return s
    let (ws, lbreak, tbreaks, lblanks) ← quotedBlanks "" "" "" lblanks (← fuel)
    let s := if lblanks then s ++ fold lbreak tbreaks else s ++ ws
    quotedBody single start n s

/-- Scans a single- or double-quoted scalar. -/
def scanQuoted (single : Bool) : ScanM Unit := do
  let start ← here
  skip
  let text ← quotedBody single start (← fuel) ""
  skip
  emit (.scalar text (if single then .singleQuoted else .doubleQuoted)) start

/-- Skips the spaces of an indentation still open, or short of `indent`. -/
def indentSpaces (indent : Nat) : Nat → ScanM Unit
  | 0 => pure ()
  | k + 1 => do
    if (indent == 0 || (← here).column < indent) && (← ahead 0) == ' ' then
      skip
      indentSpaces indent k

/-- Skips indentation and empty lines before the next line of a block scalar, collecting the
line breaks; an indentation still open (zero) is fixed from the deepest of these lines, and is
at least one more than the enclosing block's. Returns the indentation, the breaks and the mark
after the last break. -/
def breaksLoop (start : Mark) (outer : Int) (indent : Nat) (breaks : String) (e : Mark)
    (maxIndent : Nat) : Nat → ScanM (Nat × String × Mark)
  | 0 => pure (indent, breaks, e)
  | n + 1 => do
    indentSpaces indent (← fuel)
    let maxIndent := max maxIndent (← here).column
    if (indent == 0 || (← here).column < indent) && (← ahead 0) == '\t' then
      fail start "found a tab character where an indentation space is expected"
    if !isBreak (← ahead 0) then
      let indent :=
        if indent == 0 then
          let i : Int := max (max (maxIndent : Int) (outer + 1)) 1
          i.toNat
        else indent
      return (indent, breaks, e)
    let breaks ← readLine breaks
    breaksLoop start outer indent breaks (← here) maxIndent n

/-- The breaks before the next line of a block scalar, from the current mark. -/
def blockBreaks (start : Mark) (outer : Int) (indent : Nat) (breaks : String) :
    ScanM (Nat × String × Mark) := do
  breaksLoop start outer indent breaks (← here) 0 (← fuel)

/-- The lines of a block scalar at its indentation. -/
def blockLines (literal : Bool) (start : Mark) (outer : Int) (indent : Nat) :
    Nat → String → String → String → Bool → Mark → ScanM (String × String × String × Mark)
  | 0, s, lbreak, tbreaks, _, e => pure (s, lbreak, tbreaks, e)
  | n + 1, s, lbreak, tbreaks, leadingBlank, e => do
    if (← here).column != indent || isEnd (← ahead 0) then return (s, lbreak, tbreaks, e)
    let trailingBlank := isBlank (← ahead 0)
    let s :=
      if !literal && !leadingBlank && !trailingBlank && lbreak.startsWith "\n" then
        if tbreaks.isEmpty then s.push ' ' else s
      else s ++ lbreak
    let s := s ++ tbreaks
    let leadingBlank := isBlank (← ahead 0)
    let s ← readWhile (fun c => !isBreakZ c) s (← fuel)
    let lbreak ← readLine ""
    let (_, tbreaks, e) ← blockBreaks start outer indent ""
    blockLines literal start outer indent n s lbreak tbreaks leadingBlank e

/-- Scans a literal (`|`) or folded (`>`) block scalar with its chomping and indentation
indicators. -/
def scanBlock (literal : Bool) : ScanM Unit := do
  let start ← here
  skip
  let mut chomping : Int := 0
  let mut increment : Nat := 0
  let c ← ahead 0
  if c == '+' || c == '-' then
    chomping := if c == '+' then 1 else -1
    skip
    let d ← ahead 0
    if isDigit d then
      if d == '0' then fail start "found an indentation indicator equal to 0"
      increment := d.toNat - '0'.toNat
      skip
  else if isDigit c then
    if c == '0' then fail start "found an indentation indicator equal to 0"
    increment := c.toNat - '0'.toNat
    skip
    let d ← ahead 0
    if d == '+' || d == '-' then
      chomping := if d == '+' then 1 else -1
      skip
  skipBlanks (← fuel)
  if (← ahead 0) == '#' then skipToBreak (← fuel)
  if !isBreakZ (← ahead 0) then fail start "did not find expected comment or line break"
  if isBreak (← ahead 0) then skipLine
  let outer := (← get).indent
  let indent : Nat :=
    if 0 < increment then (if 0 ≤ outer then (outer + increment).toNat else increment) else 0
  let (indent, tbreaks, e) ← blockBreaks start outer indent ""
  let (s, lbreak, tbreaks, e) ← blockLines literal start outer indent (← fuel) "" "" tbreaks false e
  let s := if chomping != -1 then s ++ lbreak else s
  let s := if chomping == 1 then s ++ tbreaks else s
  append ⟨.scalar s (if literal then .literal else .folded), start, e⟩

/-! ### Anchors, aliases and tags -/

/-- Scans an anchor `&name` or an alias `*name`. -/
def scanAnchor (isAlias : Bool) : ScanM Unit := do
  let start ← here
  skip
  let name ← readWhile isWordChar "" (← fuel)
  let c ← ahead 0
  if name.isEmpty || !(isBlankZ c || c == '?' || c == ':' || c == ',' || c == ']' || c == '}' ||
      c == '%' || c == '@' || c == '`') then
    fail start "did not find expected alphabetic or numeric character"
  emit (if isAlias then .alias name else .anchor name) start

/-- The context of a tag failure. -/
def tagFail {α : Type} (start : Mark) (what : String) : ScanM α := fail start what

/-- Scans a tag handle: `!`, `!!` or `!word!`. In a directive, anything else is an error. -/
def scanTagHandle (directive : Bool) (start : Mark) : ScanM String := do
  if (← ahead 0) != '!' then tagFail start "did not find expected '!'"
  let s ← read ""
  let s ← readWhile isWordChar s (← fuel)
  if (← ahead 0) == '!' then read s
  else
    if directive && s != "!" then tagFail start "did not find expected '!'"
    return s

/-- Whether a character may stand in a tag. -/
def isUriChar (verbatim : Bool) (c : Char) : Bool :=
  isWordChar c || ";/?:@&=+$.!~*'()%".contains c || (verbatim && (c == ',' || c == '[' || c == ']'))

/-- Reads `%XX` escapes of one UTF-8 encoded character. -/
def uriEscapes (start : Mark) (bytes : ByteArray) : Nat → Nat → ScanM ByteArray
  | 0, _ => pure bytes
  | n + 1, left => do
    let c ← ahead 0
    let h ← ahead 1
    let l ← ahead 2
    if !(c == '%' && isHex h && isHex l) then tagFail start "did not find URI escaped octet"
    let octet := hexValue h * 16 + hexValue l
    let left ←
      if left == 0 then
        let w := if octet &&& 0x80 == 0 then 1 else if octet &&& 0xE0 == 0xC0 then 2
          else if octet &&& 0xF0 == 0xE0 then 3 else if octet &&& 0xF8 == 0xF0 then 4 else 0
        if w == 0 then tagFail start "found an incorrect leading UTF-8 octet"
        pure w
      else
        if octet &&& 0xC0 != 0x80 then tagFail start "found an incorrect trailing UTF-8 octet"
        pure left
    skip
    skip
    skip
    if left == 1 then return bytes.push octet.toUInt8
    uriEscapes start (bytes.push octet.toUInt8) n (left - 1)

/-- Reads the characters of a tag. -/
def uriBody (verbatim : Bool) (start : Mark) (s : String) : Nat → ScanM String
  | 0 => pure s
  | n + 1 => do
    let c ← ahead 0
    if !isUriChar verbatim c then return s
    if c == '%' then
      let bytes ← uriEscapes start ByteArray.empty (← fuel) 0
      uriBody verbatim start (s ++ (String.fromUTF8? bytes).getD "") n
    else uriBody verbatim start (← read s) n

/-- Scans the rest of a tag after `head`, which may already hold its start. -/
def scanTagUri (verbatim : Bool) (head : String) (start : Mark) : ScanM String := do
  let s := String.ofList (head.toList.drop 1)
  let before := (← here).index
  let s ← uriBody verbatim start s (← fuel)
  if head.length == 0 && (← here).index == before then tagFail start "did not find expected tag URI"
  return s

/-- Scans a tag: `!<uri>`, `!handle!suffix`, `!suffix` or `!`. -/
def scanTag : ScanM Unit := do
  let start ← here
  let (handle, suffix) ←
    if (← ahead 1) == '<' then
      skip
      skip
      let suffix ← scanTagUri true "" start
      if (← ahead 0) != '>' then fail start "did not find the expected '>'"
      skip
      pure ("", suffix)
    else
      let handle ← scanTagHandle false start
      if handle.startsWith "!" && 1 < handle.length && handle.endsWith "!" then
        pure (handle, ← scanTagUri false "" start)
      else
        let suffix ← scanTagUri false handle start
        if suffix.isEmpty then pure ("", "!") else pure ("!", suffix)
  let c ← ahead 0
  if !isBlankZ c then
    if (← get).flowLevel == 0 || c != ',' then
      fail start "did not find expected whitespace or line break"
  emit (.tag handle suffix) start

/-! ### Directives -/

/-- Reads a version number of at most two digits. -/
def versionNumber (start : Mark) : ScanM Nat := do
  let digits ← readWhile isDigit "" 3
  if 2 < digits.length then fail start "found extremely long version number"
  if digits.isEmpty then fail start "did not find expected version number"
  return digits.foldl (fun v c => v * 10 + (c.toNat - '0'.toNat)) 0

/-- Scans a directive line: `%YAML major.minor` or `%TAG handle prefix`. -/
def scanDirective : ScanM Unit := do
  let start ← here
  skip
  let name ← readWhile isWordChar "" (← fuel)
  if name.isEmpty then fail start "could not find expected directive name"
  if !isBlankZ (← ahead 0) then fail start "found unexpected non-alphabetical character"
  if name == "YAML" then
    skipBlanks (← fuel)
    let major ← versionNumber start
    if (← ahead 0) != '.' then fail start "did not find expected digit or '.' character"
    skip
    let minor ← versionNumber start
    emit (.versionDirective major minor) start
  else if name == "TAG" then
    skipBlanks (← fuel)
    let handle ← scanTagHandle true start
    if !isBlank (← ahead 0) then fail start "did not find expected whitespace"
    skipBlanks (← fuel)
    let pref ← scanTagUri true "" start
    if !isBlankZ (← ahead 0) then fail start "did not find expected whitespace or line break"
    emit (.tagDirective handle pref) start
  else fail start "found unknown directive name"
  skipBlanks (← fuel)
  if (← ahead 0) == '#' then skipToBreak (← fuel)
  if !isBreakZ (← ahead 0) then fail start "did not find expected comment or line break"
  if isBreak (← ahead 0) then skipLine

/-! ### Fetching tokens -/

/-- The `:` of a mapping: a remembered simple key becomes a key, else the `:` follows a `?`
key or stands alone. -/
def fetchValue : ScanM Unit := do
  let s ← get
  let i := s.keys.size - 1
  let k := lastKey s
  if ← keyValid i then
    insertAt k.number ⟨.key, k.mark, k.mark⟩
    rollIndent k.mark.column (some k.number) .blockMappingStart k.mark
    modify fun s => { s with keys := s.keys.modify i fun k => { k with possible := false },
                             byToken := s.byToken.filter (·.1 != k.number), keyAllowed := false }
  else
    let s ← get
    if s.flowLevel == 0 then
      if !s.keyAllowed then fail (← here) "mapping values are not allowed in this context"
      rollIndent (← here).column none .blockMappingStart (← here)
    modify fun s => { s with keyAllowed := s.flowLevel == 0 }
  let start ← here
  skip
  emit .value start

/-- Fetches the next token. -/
def fetchNext : ScanM Unit := do
  let s ← get
  if !s.started then
    set { s with indent := -1, keys := s.keys.push ⟨false, false, 0, s.mark⟩, keyAllowed := true,
                 started := true }
    emit .streamStart (← here)
    return
  let scanMark ← here
  scanToNextToken (← fuel)
  unroll (← here).column scanMark
  let c0 ← ahead 0
  let c1 ← ahead 1
  let c2 ← ahead 2
  let c3 ← ahead 3
  let m ← here
  let flow := 0 < (← get).flowLevel
  if isEnd c0 then
    if m.column != 0 then modify fun s => { s with mark := ⟨s.mark.index, s.mark.line + 1, 0⟩ }
    unroll (-1) (← here)
    removeSimpleKey
    modify fun s => { s with keyAllowed := false }
    emit .streamEnd (← here)
  else if m.column == 0 && c0 == '%' then
    unroll (-1) m
    removeSimpleKey
    modify fun s => { s with keyAllowed := false }
    scanDirective
  else if m.column == 0 && isBlankZ c3 &&
      ((c0 == '-' && c1 == '-' && c2 == '-') || (c0 == '.' && c1 == '.' && c2 == '.')) then
    unroll (-1) m
    removeSimpleKey
    modify fun s => { s with keyAllowed := false }
    skip
    skip
    skip
    emit (if c0 == '-' then .documentStart else .documentEnd) m
  else if c0 == '[' || c0 == '{' then
    saveSimpleKey
    increaseFlowLevel
    modify fun s => { s with keyAllowed := true }
    skip
    emit (if c0 == '[' then .flowSequenceStart else .flowMappingStart) m
  else if c0 == ']' || c0 == '}' then
    removeSimpleKey
    decreaseFlowLevel
    modify fun s => { s with keyAllowed := false }
    skip
    emit (if c0 == ']' then .flowSequenceEnd else .flowMappingEnd) m
  else if c0 == ',' then
    removeSimpleKey
    modify fun s => { s with keyAllowed := true }
    skip
    emit .flowEntry m
  else if c0 == '-' && isBlankZ c1 then
    if !flow then
      if !(← get).keyAllowed then fail m "block sequence entries are not allowed in this context"
      rollIndent m.column none .blockSequenceStart m
    removeSimpleKey
    modify fun s => { s with keyAllowed := true }
    skip
    emit .blockEntry m
  else if c0 == '?' && (flow || isBlankZ c1) then
    if !flow then
      if !(← get).keyAllowed then fail m "mapping keys are not allowed in this context"
      rollIndent m.column none .blockMappingStart m
    removeSimpleKey
    modify fun s => { s with keyAllowed := !flow }
    skip
    emit .key m
  else if c0 == ':' && (flow || isBlankZ c1) then fetchValue
  else if c0 == '*' || c0 == '&' then
    saveSimpleKey
    modify fun s => { s with keyAllowed := false }
    scanAnchor (c0 == '*')
  else if c0 == '!' then
    saveSimpleKey
    modify fun s => { s with keyAllowed := false }
    scanTag
  else if (c0 == '|' || c0 == '>') && !flow then
    removeSimpleKey
    modify fun s => { s with keyAllowed := true }
    scanBlock (c0 == '|')
  else if c0 == '\'' || c0 == '"' then
    saveSimpleKey
    modify fun s => { s with keyAllowed := false }
    scanQuoted (c0 == '\'')
  else if !(isBlankZ c0 || "-?:,[]\x7b\x7d#&*!|>'\"%@`".contains c0) || (c0 == '-' && !isBlank c1) ||
      (!flow && (c0 == '?' || c0 == ':') && !isBlankZ c1) then
    saveSimpleKey
    modify fun s => { s with keyAllowed := false }
    scanPlain
  else fail m "found character that cannot start any token"

/-- Fetches tokens until at least three wait unread and the first cannot still become a
simple key. -/
def fetchMore : Nat → ScanM Unit
  | 0 => pure ()
  | n + 1 => do
    let s ← get
    if s.parsed + 2 < s.tokens.size then
      match s.byToken.lookup s.parsed with
      | none => return
      | some i => if !(← keyValid i) then return
    fetchNext
    fetchMore n

/-- The next unread token. -/
def peek : ScanM Token := do
  fetchMore (← fuel)
  let s ← get
  return s.tokens.getD s.parsed default

/-- Consumes the next token. -/
def next : ScanM Unit := modify fun s => { s with parsed := s.parsed + 1 }

end Scanner

end Reckon.Yaml

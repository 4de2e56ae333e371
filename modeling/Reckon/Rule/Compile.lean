import Reckon.Rule.Library
import Reckon.Token.Lexer

/-!
# Compiling user rules

A definition `pattern = replacement` becomes a rule. In the pattern, a word that starts with
an upper-case letter is a placeholder; every other token is literal. Brackets in the pattern
build structural templates: `[a, b]` is a list pattern, `[a, b ... T]` nests list captures
`[a ... [b ... T]]`, and `{k: v, k2: v2 ... R}` nests map captures, the rest being the empty
map when no `...` is given; a map pattern with no placeholder anywhere is a literal map.
Parentheses stay literal symbols but must balance. The replacement keeps its tokens as
written, with placeholder words turned into variables; each must be bound by the pattern,
and its brackets must balance.

The first failing check gives the reason: an empty pattern, an empty replacement, a fault in
the pattern, a pattern of one variable (it would match every value), then a fault in the
replacement. The pattern is read token by token, with a stack of the brackets still open;
each open bracket remembers what it expects next.
-/

namespace Reckon

/-- Why a definition is malformed. -/
inductive Malformed where
  | emptyPattern
  | emptyReplacement
  | matchesEverything (pattern : String)
  | unbound (name : String)
  | expected (sym : String) (before : Option String)
  | unbalancedParen
  | unbalanced (sym : String)
  | ellipsisOutside
  | unexpected (token : String)
  | endsInBrackets
  | tailNotList (token : String)
  | restNotMap (token : String)
  | missingParen
  | replacementMissing (sym : String)
  | replacementUnbalanced (sym : String)
  | missingEquals
  | lexical (e : LexError)

/-- The reason a definition is malformed, in words. -/
def Malformed.reason : Malformed → String
  | .emptyPattern => "pattern is empty"
  | .emptyReplacement => "replacement is empty"
  | .matchesEverything p => "pattern " ++ p ++ " would match every value"
  | .unbound n => n ++ " is not bound by the pattern"
  | .expected s none => "expected " ++ Text.quote s ++ " at end of pattern"
  | .expected s (some t) => "expected " ++ Text.quote s ++ " before " ++ t
  | .unbalancedParen => "unbalanced ')'"
  | .unbalanced s => "unbalanced " ++ Text.quote s
  | .ellipsisOutside => "'...' is only allowed inside a list or map pattern"
  | .unexpected t => "unexpected " ++ t ++ " inside brackets"
  | .endsInBrackets => "pattern ends inside brackets"
  | .tailNotList t => "tail " ++ t ++ " of a list pattern must be a list"
  | .restNotMap t => "remainder " ++ t ++ " of a map pattern must be a map"
  | .missingParen => "pattern is missing ')'"
  | .replacementMissing s => "replacement is missing " ++ Text.quote s
  | .replacementUnbalanced s => "unbalanced " ++ Text.quote s ++ " in replacement"
  | .missingEquals => "missing '='"
  | .lexical e => e.message

/-- A definition that does not compile: its text and why. -/
structure CompileError where
  definition : String
  cause : Malformed

/-- The reason, in words. -/
def CompileError.reason (e : CompileError) : String := e.cause.reason

/-- The text of a compile error. -/
def CompileError.message (e : CompileError) : String :=
  "malformed rule definition " ++ Text.quote e.definition ++ ": " ++ e.reason

namespace Compiler

/-- Whether a word names a placeholder: it starts with an upper-case letter. -/
def isPlaceholderName (s : String) : Bool :=
  match s.toList with
  | c :: _ => Text.isUpperLetter c
  | [] => false

/-- A pattern token with placeholder words turned into variables of category `any`. -/
def placeholder (t : Token) : Token :=
  match t with
  | .sym s => if isPlaceholderName s then .var s .any else t
  | _ => t

/-- Whether the pattern item `t` can stand for a value of kind `k`. -/
def fitsKind (t : Token) (k : Kind) : Bool :=
  match t.kind with
  | .var => true
  | .listCapture => k == .list
  | .mapCapture => k == .map
  | other => other == k

/-- Where a list pattern stands: at its start, after a comma, after an item, after `...`, or
after its tail. -/
inductive ListPhase where
  | start
  | item
  | afterItem
  | tail
  | afterTail (tail : Token)

/-- Where a map pattern stands: at its start, after a comma, after a key, after a colon,
after a value, after `...`, or after its rest. -/
inductive MapPhase where
  | start
  | key
  | afterKey (key : Token)
  | value (key : Token)
  | afterValue
  | rest
  | afterRest (rest : Token)

/-- A bracket still open in the pattern, with what it has read. -/
inductive Frame where
  | list (items : List Token) (phase : ListPhase)
  | map (entries : List (Token × Token)) (phase : MapPhase)

/-- The pattern read so far: the finished template tokens, the open parentheses and the open
brackets, innermost first. -/
structure Reading where
  out : List Token
  parens : Nat
  stack : List Frame

/-- The map pattern of `entries` and `rest`: a literal map when no placeholder occurs in them,
otherwise nested map captures. -/
def finishMap (entries : List (Token × Token)) (rest : Token) : Token :=
  let literal := !rest.hasPlaceholder &&
    entries.all fun (k, v) => !k.hasPlaceholder && !v.hasPlaceholder
  match literal, rest with
  | true, .map rs => .map (Entries.merge (Entries.build entries) rs)
  | _, _ => entries.foldr (fun (k, v) acc => .mapCap k v acc) rest

/-- Hands a finished item to the innermost open bracket, or to the template. -/
def deliver (i : Token) (r : Reading) : Except Malformed Reading :=
  match r.stack with
  | [] => .ok { r with out := r.out ++ [i] }
  | f :: fs =>
    match f with
    | .list items .start | .list items .item =>
      .ok { r with stack := .list (items ++ [i]) .afterItem :: fs }
    | .list items .tail =>
      if fitsKind i .list then .ok { r with stack := .list items (.afterTail i) :: fs }
      else .error (.tailNotList i.render)
    | .map es .start | .map es .key => .ok { r with stack := .map es (.afterKey i) :: fs }
    | .map es (.value k) => .ok { r with stack := .map (es ++ [(k, i)]) .afterValue :: fs }
    | .map es .rest =>
      if fitsKind i .map then .ok { r with stack := .map es (.afterRest i) :: fs }
      else .error (.restNotMap i.render)
    | _ => .ok r

/-- Reads an item inside brackets: a nested bracket opens, and any other token must be a
placeholder or a value. -/
def openItem (t : Token) (r : Reading) : Except Malformed Reading :=
  if t.isSym "[" then .ok { r with stack := .list [] .start :: r.stack }
  else if t.isSym "\x7b" then .ok { r with stack := .map [] .start :: r.stack }
  else
    let i := placeholder t
    if i.isPlaceholder || i.isValue then deliver i r else .error (.unexpected t.render)

/-- Reads one pattern token. -/
def step (r : Reading) (t : Token) : Except Malformed Reading :=
  match r.stack with
  | [] =>
    if t.isSym "[" || t.isSym "\x7b" then openItem t r
    else if t.isSym "(" then .ok { r with out := r.out ++ [t], parens := r.parens + 1 }
    else if t.isSym ")" then
      if r.parens == 0 then .error .unbalancedParen
      else .ok { r with out := r.out ++ [t], parens := r.parens - 1 }
    else if t.isSym "]" || t.isSym "\x7d" then .error (.unbalanced t.render)
    else if t.isSym "..." then .error .ellipsisOutside
    else .ok { r with out := r.out ++ [placeholder t] }
  | f :: fs =>
    let closed := { r with stack := fs }
    match f with
    | .list _ .start =>
      if t.isSym "]" then deliver (.list []) closed else openItem t r
    | .map _ .start =>
      if t.isSym "\x7d" then deliver (.map []) closed else openItem t r
    | .list _ .item | .list _ .tail | .map _ .key | .map _ (.value _) | .map _ .rest =>
      openItem t r
    | .list items .afterItem =>
      if t.isSym "," then .ok { r with stack := .list items .item :: fs }
      else if t.isSym "..." then .ok { r with stack := .list items .tail :: fs }
      else if t.isSym "]" then deliver (.list items) closed
      else .error (.expected "]" (some t.render))
    | .list items (.afterTail tail) =>
      if t.isSym "]" then deliver (items.foldr (fun h acc => .listCap h acc) tail) closed
      else .error (.expected "]" (some t.render))
    | .map es (.afterKey k) =>
      if t.isSym ":" then .ok { r with stack := .map es (.value k) :: fs }
      else .error (.expected ":" (some t.render))
    | .map es .afterValue =>
      if t.isSym "," then .ok { r with stack := .map es .key :: fs }
      else if t.isSym "..." then .ok { r with stack := .map es .rest :: fs }
      else if t.isSym "\x7d" then deliver (finishMap es (.map [])) closed
      else .error (.expected "\x7d" (some t.render))
    | .map es (.afterRest rest) =>
      if t.isSym "\x7d" then deliver (finishMap es rest) closed
      else .error (.expected "\x7d" (some t.render))

/-- The fault of a pattern that ends while the bracket `f` is open. -/
def unfinished : Frame → Malformed
  | .list _ .afterItem | .list _ (.afterTail _) => .expected "]" none
  | .map _ (.afterKey _) => .expected ":" none
  | .map _ .afterValue | .map _ (.afterRest _) => .expected "\x7d" none
  | _ => .endsInBrackets

/-- The template of a pattern. -/
def template (pat : List Token) : Except Malformed (List Token) := do
  let r ← pat.foldlM step ⟨[], 0, []⟩
  match r.stack with
  | f :: _ => .error (unfinished f)
  | [] => if r.parens == 0 then .ok r.out else .error .missingParen

mutual
/-- The placeholder names that occur in a template token. -/
def varNames : Token → List String
  | .var n _ => [n]
  | .listCap h t => varNames h ++ varNames t
  | .mapCap k v r => varNames k ++ varNames v ++ varNames r
  | .list xs => varNamesItems xs
  | .map es => varNamesEntries es
  | _ => []
/-- The placeholder names that occur in a list of tokens. -/
def varNamesItems : List Token → List String
  | [] => []
  | x :: xs => varNames x ++ varNamesItems xs
/-- The placeholder names that occur in a list of entries. -/
def varNamesEntries : List (Token × Token) → List String
  | [] => []
  | (k, v) :: es => varNames k ++ varNames v ++ varNamesEntries es
end

/-- The closing bracket of an opening one. -/
def closerOf (s : String) : Option String :=
  if s == "(" then some ")" else if s == "[" then some "]"
  else if s == "\x7b" then some "\x7d" else none

/-- The replacement with placeholder words turned into variables, given the names the
pattern binds; `open` holds the closing brackets still awaited, innermost first. -/
def replacement (bound : List String) : List Token → List String → Except Malformed (List Token)
  | [], [] => .ok []
  | [], c :: _ => .error (.replacementMissing c)
  | t :: ts, awaited =>
    match t with
    | .sym s =>
      if isPlaceholderName s then
        if bound.contains s then (Token.var s .any :: ·) <$> replacement bound ts awaited
        else .error (.unbound s)
      else
        match closerOf s with
        | some c => (t :: ·) <$> replacement bound ts (c :: awaited)
        | none =>
          if s == ")" || s == "]" || s == "\x7d" then
            match awaited with
            | c :: rest =>
              if c == s then (t :: ·) <$> replacement bound ts rest
              else .error (.replacementUnbalanced s)
            | [] => .error (.replacementUnbalanced s)
          else (t :: ·) <$> replacement bound ts awaited
    | _ => (t :: ·) <$> replacement bound ts awaited

end Compiler

namespace Rule

/-- The rule of a definition already split into pattern and replacement. Its name is the
definition as written. -/
def compile (pat repl : List Token) : Except CompileError Rule :=
  let definition := Tokens.render pat ++ " = " ++ Tokens.render repl
  let fail (c : Malformed) : Except CompileError Rule := .error ⟨definition, c⟩
  if pat.isEmpty then fail .emptyPattern
  else if repl.isEmpty then fail .emptyReplacement
  else
    match Compiler.template pat with
    | .error c => fail c
    | .ok tmpl =>
      match tmpl with
      | [.var ..] => fail (.matchesEverything (Tokens.render tmpl))
      | _ =>
        match Compiler.replacement (Compiler.varNamesItems tmpl) repl [] with
        | .error c => fail c
        | .ok body => .ok ⟨definition, tmpl, [], .rewrite body⟩

/-- The rule of a definition line. -/
def compileDefinition (text : String) : Except CompileError Rule :=
  match Tokens.lex text with
  | .error e => .error ⟨text, .lexical e⟩
  | .ok ts =>
    match Tokens.splitDefinition ts with
    | none => .error ⟨text, .missingEquals⟩
    | some (pat, repl) => compile pat repl

end Rule

end Reckon

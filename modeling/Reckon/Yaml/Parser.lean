import Reckon.Yaml.Scanner

/-!
# Parsing YAML into events

The parser turns tokens into events: the starts and ends of the stream, of documents and of
collections, scalars and aliases. It is a state machine with a stack of states to return to
and a stack of the marks where the open collections started; a missing key or value becomes an
empty scalar. A token that no state expects is an error located at that token, inside the
collection or node being parsed.
-/

namespace Reckon.Yaml

/-- What an event is. -/
inductive EventKind where
  | streamStart
  | streamEnd
  | documentStart (implicit : Bool)
  | documentEnd (implicit : Bool)
  | alias (name : String)
  | scalar (anchor tag text : String) (style : ScalarStyle) (plainImplicit quotedImplicit : Bool)
  | sequenceStart (anchor tag : String) (implicit flow : Bool)
  | sequenceEnd
  | mappingStart (anchor tag : String) (implicit flow : Bool)
  | mappingEnd
  deriving Inhabited

/-- An event and the marks where it starts and ends. -/
structure Event where
  kind : EventKind
  start : Mark
  stop : Mark
  deriving Inhabited

/-- Where the parser is. -/
inductive ParseState where
  | streamStart
  | implicitDocumentStart
  | documentStart
  | documentContent
  | documentEnd
  | blockNode
  | blockNodeOrIndentlessSequence
  | flowNode
  | blockSequenceFirstEntry
  | blockSequenceEntry
  | indentlessSequenceEntry
  | blockMappingFirstKey
  | blockMappingKey
  | blockMappingValue
  | flowSequenceFirstEntry
  | flowSequenceEntry
  | flowSequenceEntryMappingKey
  | flowSequenceEntryMappingValue
  | flowSequenceEntryMappingEnd
  | flowMappingFirstKey
  | flowMappingKey
  | flowMappingValue
  | flowMappingEmptyValue
  | finished
  deriving Inhabited

/-- The parser: the scanner, the state, the states to return to, the marks of the open
collections and the tag handles of the current document. -/
structure Parser where
  scanner : Scanner
  state : ParseState
  states : List ParseState
  marks : List Mark
  handles : List (String × String)

/-- Parsing: a state change that may fail. -/
abbrev ParseM := StateT Parser (Except Failure)

namespace Parser

/-- The parser at the start of `text`. -/
def create (text : String) : Parser := ⟨Scanner.create text, .streamStart, [], [], []⟩

/-- The tag handles every document knows. -/
def defaultHandles : List (String × String) := [("!", "!"), ("!!", "tag:yaml.org,2002:")]

/-- Runs a scanner step. -/
def scan {α : Type} (m : ScanM α) : ParseM α := fun p =>
  match m p.scanner with
  | .ok (a, s) => .ok (a, { p with scanner := s })
  | .error e => .error e

/-- The next token. -/
def peek : ParseM Token := scan Scanner.peek

/-- Consumes the next token. -/
def skipToken : ParseM Unit := scan Scanner.next

/-- Fails at `problem`, inside what started at `context`. -/
def fail {α : Type} (context problem : Mark) (what : String) : ParseM α :=
  fun _ => .error (.parser context problem what)

/-- Fails at `problem` with no context. -/
def failAt {α : Type} (problem : Mark) (what : String) : ParseM α :=
  fail ⟨0, 0, 0⟩ problem what

/-- Returns to the state on top of the stack. -/
def popState : ParseM Unit :=
  modify fun p => match p.states with
    | s :: rest => { p with state := s, states := rest }
    | [] => { p with state := .finished }

/-- Saves a state to return to. -/
def pushState (s : ParseState) : ParseM Unit := modify fun p => { p with states := s :: p.states }

/-- Sets the state. -/
def goTo (s : ParseState) : ParseM Unit := modify fun p => { p with state := s }

/-- Opens a collection at the mark of the current token, and consumes that token. -/
def openAt : ParseM Unit := do
  let t ← peek
  modify fun p => { p with marks := t.start :: p.marks }
  skipToken

/-- Closes the innermost collection and returns its mark. -/
def popMark : ParseM Mark := do
  let p ← get
  match p.marks with
  | m :: rest =>
    set { p with marks := rest }
    return m
  | [] => return ⟨0, 0, 0⟩

/-- An empty plain scalar at `m`. -/
def emptyScalar (m : Mark) : Event := ⟨.scalar "" "" "" .plain true false, m, m⟩

/-- The full tag of a handle and suffix, through the document's tag handles. -/
def resolveTag (handle suffix : String) (start tagMark : Mark) : ParseM String := do
  if handle.isEmpty then return suffix
  match (← get).handles.lookup handle with
  | some pref => return pref ++ suffix
  | none => fail start tagMark "found undefined tag handle"

/-- A node: an alias, or a scalar or the start of a collection with its anchor and tag. -/
def parseNode (block indentless : Bool) : ParseM Event := do
  let t ← peek
  if let .alias name := t.kind then
    popState
    skipToken
    return ⟨.alias name, t.start, t.stop⟩
  let start := t.start
  let mut stop := t.start
  let mut anchor := ""
  let mut tagged : Option (String × String × Mark) := none
  let mut t := t
  match t.kind with
  | .anchor name =>
    anchor := name
    stop := t.stop
    skipToken
    t ← peek
    if let .tag h s := t.kind then
      tagged := some (h, s, t.start)
      stop := t.stop
      skipToken
      t ← peek
  | .tag h s =>
    tagged := some (h, s, t.start)
    stop := t.stop
    skipToken
    t ← peek
    if let .anchor name := t.kind then
      anchor := name
      stop := t.stop
      skipToken
      t ← peek
  | _ => pure ()
  let tag ← match tagged with
    | some (h, s, m) => resolveTag h s start m
    | none => pure ""
  let implicit := tag.isEmpty
  match t.kind with
  | .blockEntry =>
    if indentless then
      goTo .indentlessSequenceEntry
      return ⟨.sequenceStart anchor tag implicit false, start, t.stop⟩
  | _ => pure ()
  match t.kind with
  | .scalar text style =>
    let plainImplicit := (tag.isEmpty && style == .plain) || tag == "!"
    let quotedImplicit := !plainImplicit && tag.isEmpty
    popState
    skipToken
    return ⟨.scalar anchor tag text style plainImplicit quotedImplicit, start, t.stop⟩
  | .flowSequenceStart =>
    goTo .flowSequenceFirstEntry
    return ⟨.sequenceStart anchor tag implicit true, start, t.stop⟩
  | .flowMappingStart =>
    goTo .flowMappingFirstKey
    return ⟨.mappingStart anchor tag implicit true, start, t.stop⟩
  | .blockSequenceStart =>
    if block then
      goTo .blockSequenceFirstEntry
      return ⟨.sequenceStart anchor tag implicit false, start, t.stop⟩
  | .blockMappingStart =>
    if block then
      goTo .blockMappingFirstKey
      return ⟨.mappingStart anchor tag implicit false, start, t.stop⟩
  | _ => pure ()
  if !anchor.isEmpty || !tag.isEmpty then
    popState
    return ⟨.scalar anchor tag "" .plain implicit false, start, stop⟩
  fail start t.start "did not find expected node content"

/-- Reads the directives before a document into its tag handles. -/
def directives : Nat → Bool → ParseM Unit
  | 0, _ => pure ()
  | n + 1, seenVersion => do
    let t ← peek
    match t.kind with
    | .versionDirective major minor =>
      if seenVersion then failAt t.start "found duplicate %YAML directive"
      if major != 1 || minor != 1 then failAt t.start "found incompatible YAML document"
      skipToken
      directives n true
    | .tagDirective handle pref =>
      let p ← get
      if (p.handles.lookup handle).isSome then failAt t.start "found duplicate %TAG directive"
      set { p with handles := p.handles ++ [(handle, pref)] }
      skipToken
      directives n seenVersion
    | _ => pure ()

/-- Skips the document end markers before an explicit document. -/
def skipDocumentEnds : Nat → ParseM Token
  | 0 => peek
  | n + 1 => do
    let t ← peek
    if let .documentEnd := t.kind then
      skipToken
      skipDocumentEnds n
    else return t

/-- The start of a document, or of the end of the stream. -/
def documentStart (implicit : Bool) : ParseM Event := do
  let t ← if implicit then peek else skipDocumentEnds ((← get).scanner.input.size + 1)
  let isDirective := match t.kind with
    | .versionDirective .. | .tagDirective .. => true
    | _ => false
  let isStart := match t.kind with
    | .documentStart => true
    | _ => false
  let isEnd := match t.kind with
    | .streamEnd => true
    | _ => false
  modify fun p => { p with handles := [] }
  if implicit && !isDirective && !isStart && !isEnd then
    modify fun p => { p with handles := defaultHandles }
    pushState .documentEnd
    goTo .blockNode
    return ⟨.documentStart true, t.start, t.start⟩
  else if !isEnd then
    let start := t.start
    directives (← get).scanner.input.size false
    modify fun p => { p with handles := p.handles ++ defaultHandles.filter fun (h, _) =>
      (p.handles.lookup h).isNone }
    let t ← peek
    if !(match t.kind with | .documentStart => true | _ => false) then
      failAt t.start "did not find expected <document start>"
    pushState .documentEnd
    goTo .documentContent
    skipToken
    return ⟨.documentStart false, start, t.stop⟩
  else
    goTo .finished
    skipToken
    return ⟨.streamEnd, t.start, t.stop⟩

/-- One event. -/
def parseEvent : ParseM Event := do
  let p ← get
  match p.state with
  | .streamStart =>
    let t ← peek
    match t.kind with
    | .streamStart =>
      goTo .implicitDocumentStart
      skipToken
      return ⟨.streamStart, t.start, t.stop⟩
    | _ => failAt t.start "did not find expected <stream-start>"
  | .implicitDocumentStart => documentStart true
  | .documentStart => documentStart false
  | .documentContent =>
    let t ← peek
    match t.kind with
    | .versionDirective .. | .tagDirective .. | .documentStart | .documentEnd | .streamEnd =>
      popState
      return emptyScalar t.start
    | _ => parseNode true false
  | .documentEnd =>
    let t ← peek
    goTo .documentStart
    match t.kind with
    | .documentEnd =>
      skipToken
      return ⟨.documentEnd false, t.start, t.stop⟩
    | _ => return ⟨.documentEnd true, t.start, t.start⟩
  | .blockNode => parseNode true false
  | .blockNodeOrIndentlessSequence => parseNode true true
  | .flowNode => parseNode false false
  | .blockSequenceFirstEntry =>
    openAt
    blockSequenceEntry
  | .blockSequenceEntry => blockSequenceEntry
  | .indentlessSequenceEntry =>
    let t ← peek
    match t.kind with
    | .blockEntry =>
      skipToken
      let t' ← peek
      match t'.kind with
      | .blockEntry | .key | .value | .blockEnd =>
        goTo .indentlessSequenceEntry
        return emptyScalar t.stop
      | _ =>
        pushState .indentlessSequenceEntry
        parseNode true false
    | _ =>
      popState
      return ⟨.sequenceEnd, t.start, t.start⟩
  | .blockMappingFirstKey =>
    openAt
    blockMappingKey
  | .blockMappingKey => blockMappingKey
  | .blockMappingValue =>
    let t ← peek
    match t.kind with
    | .value =>
      skipToken
      let t' ← peek
      match t'.kind with
      | .key | .value | .blockEnd =>
        goTo .blockMappingKey
        return emptyScalar t.stop
      | _ =>
        pushState .blockMappingKey
        parseNode true true
    | _ =>
      goTo .blockMappingKey
      return emptyScalar t.start
  | .flowSequenceFirstEntry =>
    openAt
    flowSequenceEntry true
  | .flowSequenceEntry => flowSequenceEntry false
  | .flowSequenceEntryMappingKey =>
    let t ← peek
    match t.kind with
    | .value | .flowEntry | .flowSequenceEnd =>
      skipToken
      goTo .flowSequenceEntryMappingValue
      return emptyScalar t.stop
    | _ =>
      pushState .flowSequenceEntryMappingValue
      parseNode false false
  | .flowSequenceEntryMappingValue =>
    let t ← peek
    match t.kind with
    | .value =>
      skipToken
      let t' ← peek
      match t'.kind with
      | .flowEntry | .flowSequenceEnd =>
        goTo .flowSequenceEntryMappingEnd
        return emptyScalar t'.start
      | _ =>
        pushState .flowSequenceEntryMappingEnd
        parseNode false false
    | _ =>
      goTo .flowSequenceEntryMappingEnd
      return emptyScalar t.start
  | .flowSequenceEntryMappingEnd =>
    let t ← peek
    goTo .flowSequenceEntry
    return ⟨.mappingEnd, t.start, t.start⟩
  | .flowMappingFirstKey =>
    openAt
    flowMappingKey true
  | .flowMappingKey => flowMappingKey false
  | .flowMappingValue => flowMappingValue false
  | .flowMappingEmptyValue => flowMappingValue true
  | .finished => return ⟨.streamEnd, ⟨0, 0, 0⟩, ⟨0, 0, 0⟩⟩
where
  /-- An entry of a block sequence, or its end. -/
  blockSequenceEntry : ParseM Event := do
    let t ← peek
    match t.kind with
    | .blockEntry =>
      skipToken
      let t' ← peek
      match t'.kind with
      | .blockEntry | .blockEnd =>
        goTo .blockSequenceEntry
        return emptyScalar t.stop
      | _ =>
        pushState .blockSequenceEntry
        parseNode true false
    | .blockEnd =>
      popState
      let _ ← popMark
      skipToken
      return ⟨.sequenceEnd, t.start, t.stop⟩
    | _ =>
      let m ← popMark
      fail m t.start "did not find expected '-' indicator"
  /-- A key of a block mapping, or its end. -/
  blockMappingKey : ParseM Event := do
    let t ← peek
    match t.kind with
    | .key =>
      skipToken
      let t' ← peek
      match t'.kind with
      | .key | .value | .blockEnd =>
        goTo .blockMappingValue
        return emptyScalar t.stop
      | _ =>
        pushState .blockMappingValue
        parseNode true true
    | .blockEnd =>
      popState
      let _ ← popMark
      skipToken
      return ⟨.mappingEnd, t.start, t.stop⟩
    | _ =>
      let m ← popMark
      fail m t.start "did not find expected key"
  /-- An entry of a flow sequence, or its end. -/
  flowSequenceEntry (first : Bool) : ParseM Event := do
    let mut t ← peek
    let isEnd := fun (t : Token) => match t.kind with
      | .flowSequenceEnd => true
      | _ => false
    if !isEnd t then
      if !first then
        match t.kind with
        | .flowEntry =>
          skipToken
          t ← peek
        | _ =>
          let m ← popMark
          fail m t.start "did not find expected ',' or ']'"
      match t.kind with
      | .key =>
        goTo .flowSequenceEntryMappingKey
        skipToken
        return ⟨.mappingStart "" "" true true, t.start, t.stop⟩
      | _ =>
        if !isEnd t then
          pushState .flowSequenceEntry
          return ← parseNode false false
    popState
    let _ ← popMark
    skipToken
    return ⟨.sequenceEnd, t.start, t.stop⟩
  /-- A key of a flow mapping, or its end. -/
  flowMappingKey (first : Bool) : ParseM Event := do
    let mut t ← peek
    let isEnd := fun (t : Token) => match t.kind with
      | .flowMappingEnd => true
      | _ => false
    if !isEnd t then
      if !first then
        match t.kind with
        | .flowEntry =>
          skipToken
          t ← peek
        | _ =>
          let m ← popMark
          fail m t.start "did not find expected ',' or '\x7d'"
      match t.kind with
      | .key =>
        skipToken
        let t' ← peek
        match t'.kind with
        | .value | .flowEntry | .flowMappingEnd =>
          goTo .flowMappingValue
          return emptyScalar t'.start
        | _ =>
          pushState .flowMappingValue
          return ← parseNode false false
      | _ =>
        if !isEnd t then
          pushState .flowMappingEmptyValue
          return ← parseNode false false
    popState
    let _ ← popMark
    skipToken
    return ⟨.mappingEnd, t.start, t.stop⟩
  /-- The value of a flow mapping entry, possibly empty. -/
  flowMappingValue (empty : Bool) : ParseM Event := do
    let t ← peek
    if empty then
      goTo .flowMappingKey
      return emptyScalar t.start
    match t.kind with
    | .value =>
      skipToken
      let t' ← peek
      match t'.kind with
      | .flowEntry | .flowMappingEnd =>
        goTo .flowMappingKey
        return emptyScalar t'.start
      | _ =>
        pushState .flowMappingKey
        parseNode false false
    | _ =>
      goTo .flowMappingKey
      return emptyScalar t.start

end Parser

end Reckon.Yaml

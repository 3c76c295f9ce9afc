import TierCache.Yaml.Scanner

/-!
# YAML events

The second stage of reading YAML: tokens to events, by the grammar's states, in the manner of
the reference C parser. A state that enters a nested node pushes the state to return to; a
collection's start mark is kept to name it when its end is missing.
-/

namespace TierCache.Yaml

/-- The kinds of event. -/
inductive EventKind where
  | streamStart
  | streamEnd
  | documentStart
  | documentEnd
  | alias (name : String)
  | scalar (anchor tag : Option String) (text : String) (style : ScalarStyle)
  | sequenceStart (anchor tag : Option String)
  | sequenceEnd
  | mappingStart (anchor tag : Option String)
  | mappingEnd
  deriving Repr, Inhabited

/-- An event and where it starts. -/
structure Event where
  kind : EventKind
  start : Mark
  deriving Repr, Inhabited

/-- The states of the grammar. -/
inductive ParseState where
  | streamStart
  | implicitDocumentStart
  | documentStart
  | documentContent
  | documentEnd
  | blockNode
  | blockNodeOrIndentlessSequence
  | flowNode
  | blockSequenceFirstEntry
  | blockSequenceEntry
  | indentlessSequenceEntry
  | blockMappingFirstKey
  | blockMappingKey
  | blockMappingValue
  | flowSequenceFirstEntry
  | flowSequenceEntry
  | flowSequenceEntryMappingKey
  | flowSequenceEntryMappingValue
  | flowSequenceEntryMappingEnd
  | flowMappingFirstKey
  | flowMappingKey
  | flowMappingValue
  | flowMappingEmptyValue
  | finished
  deriving Repr, DecidableEq, Inhabited

/-- The parser: its scanner, its state and the stacks of states and marks. -/
structure Parser where
  scan : Scanner
  state : ParseState := .streamStart
  states : List ParseState := []
  marks : List Mark := []
  /-- The tag handles of the current document and their prefixes. -/
  tagHandles : List (String × String) := []
  deriving Inhabited

/-- What a parsing step gives: an event and the parser after it, or the failure. -/
abbrev Step := Except YamlError (Event × Parser)

/-- The handles every document knows. -/
def defaultTagHandles : List (String × String) := [("!", "!"), ("!!", "tag:yaml.org,2002:")]

namespace Parser

/-- The next token, scanning as far as needed to know it. -/
def peek (p : Parser) : Except YamlError (Token × Parser) := do
  let scan ← p.scan.fetchMore
  match scan.queue with
  | t :: _ => pure (t, { p with scan })
  | [] => throw { kind := .parser, problem := "did not find expected token", mark := scan.mark }

/-- Takes the next token. -/
def skipToken (p : Parser) : Parser :=
  { p with scan := { p.scan with queue := p.scan.queue.drop 1, taken := p.scan.taken + 1 } }

/-- Returns to the state on top of the stack. -/
def pop (p : Parser) : Parser := { p with state := p.states.headD .finished, states := p.states.drop 1 }

/-- Enters a nested node, to come back to `back`. -/
def push (p : Parser) (back : ParseState) : Parser := { p with states := back :: p.states }

/-- A failure found by the parser. -/
def failAt (problem : String) (m : Mark) : YamlError := { kind := .parser, problem, mark := m }

/-- A failure found by the parser while reading a construct that started at `start`. -/
def failIn (context : String) (start : Mark) (problem : String) (m : Mark) : YamlError :=
  { kind := .parser, problem, mark := m, context := some (context, start) }

/-- An empty plain scalar standing for a missing node. -/
def emptyScalar (m : Mark) : Event := ⟨.scalar none none "" .plain, m⟩

/-- Whether a token is of the same kind as a constructor-only kind. -/
def TokenKind.same : TokenKind → TokenKind → Bool
  | .streamStart, .streamStart | .streamEnd, .streamEnd | .documentStart, .documentStart
  | .documentEnd, .documentEnd | .blockSequenceStart, .blockSequenceStart
  | .blockMappingStart, .blockMappingStart | .blockEnd, .blockEnd
  | .flowSequenceStart, .flowSequenceStart | .flowSequenceEnd, .flowSequenceEnd
  | .flowMappingStart, .flowMappingStart | .flowMappingEnd, .flowMappingEnd
  | .blockEntry, .blockEntry | .flowEntry, .flowEntry | .key, .key | .value, .value => true
  | _, _ => false

/-- Whether a token is a directive. -/
def isDirective : TokenKind → Bool
  | .versionDirective .. | .tagDirective .. => true
  | _ => false

/-- The directives before an explicit document, then the default handles. -/
def directives (p : Parser) : Except YamlError Parser :=
  let rec go (fuel : Nat) (version : Bool) (p : Parser) : Except YamlError Parser := do
    match fuel with
    | 0 => pure p
    | fuel + 1 =>
      let (t, p) ← p.peek
      match t.kind with
      | .versionDirective major minor =>
        if version then throw (failAt "found duplicate %YAML directive" t.start)
        if major != 1 || (minor != 1 && minor != 2) then throw (failAt "found incompatible YAML document" t.start)
        go fuel true p.skipToken
      | .tagDirective handle pfx =>
        if p.tagHandles.any (·.1 == handle) then throw (failAt "found duplicate %TAG directive" t.start)
        go fuel version { p.skipToken with tagHandles := p.tagHandles ++ [(handle, pfx)] }
      | _ => pure p
  do
    let p ← go (p.scan.left + 1) false p
    let extra := defaultTagHandles.filter fun (h, _) => !p.tagHandles.any (·.1 == h)
    pure { p with tagHandles := p.tagHandles ++ extra }

/-- The start of the stream. -/
def streamStart (p : Parser) : Step := do
  let (t, p) ← p.peek
  match t.kind with
  | .streamStart => pure (⟨.streamStart, t.start⟩, { p.skipToken with state := .implicitDocumentStart })
  | _ => throw (failAt "did not find expected <stream-start>" t.start)

/-- The start of a document, implicit (content without `---`) or explicit, or the stream's end. -/
def documentStart (p : Parser) (implicit : Bool) : Step := do
  let (t, p) ← p.peek
  -- extra document end markers
  let rec skipEnds (fuel : Nat) (t : Token) (p : Parser) : Except YamlError (Token × Parser) :=
    match fuel with
    | 0 => .ok (t, p)
    | fuel + 1 =>
      match t.kind with
      | .documentEnd => do
        let (t, p) ← p.skipToken.peek
        skipEnds fuel t p
      | _ => .ok (t, p)
  let (t, p) ← if implicit then pure (t, p) else skipEnds (p.scan.left + 1) t p
  let special := isDirective t.kind || TokenKind.same t.kind .documentStart || TokenKind.same t.kind .streamEnd
  if implicit && !special then
    let p ← p.directives
    pure (⟨.documentStart, t.start⟩, { p.push .documentEnd with state := .blockNode })
  else if !TokenKind.same t.kind .streamEnd then
    let p ← p.directives
    let (t, p) ← p.peek
    if !TokenKind.same t.kind .documentStart then
      throw (failAt "did not find expected <document start>" t.start)
    pure (⟨.documentStart, t.start⟩, { p.push .documentEnd with state := .documentContent }.skipToken)
  else
    pure (⟨.streamEnd, t.start⟩, { p with state := .finished }.skipToken)

/-- The content of an explicit document; an empty one is an empty scalar. -/
def documentContent (p : Parser) (node : Parser → Step) : Step := do
  let (t, p) ← p.peek
  if isDirective t.kind || [TokenKind.documentStart, .documentEnd, .streamEnd].any (TokenKind.same t.kind) then
    pure (emptyScalar t.start, p.pop)
  else node p

/-- The end of a document, explicit (`...`) or implicit. -/
def documentEnd (p : Parser) : Step := do
  let (t, p) ← p.peek
  let p := if TokenKind.same t.kind .documentEnd then p.skipToken else p
  pure (⟨.documentEnd, t.start⟩, { p with state := .documentStart, tagHandles := [] })

/-- A node with properties but no content is an empty scalar; with neither it is missing. -/
def noContent (p : Parser) (block : Bool) (anchor tag : Option String) (start : Mark) (t : Token) : Step :=
  if anchor.isSome || tag.isSome then .ok (⟨.scalar anchor tag "" .plain, start⟩, p.pop)
  else .error (failIn (if block then "while parsing a block node" else "while parsing a flow node") start
    "did not find expected node content" t.start)

/-- The node after its properties. -/
def nodeRest (p : Parser) (block : Bool) (anchor tag : Option String) (start : Mark) (t : Token) : Step :=
  match t.kind with
  | .scalar text style => .ok (⟨.scalar anchor tag text style, start⟩, p.skipToken.pop)
  | .flowSequenceStart => .ok (⟨.sequenceStart anchor tag, start⟩, { p with state := .flowSequenceFirstEntry })
  | .flowMappingStart => .ok (⟨.mappingStart anchor tag, start⟩, { p with state := .flowMappingFirstKey })
  | .blockSequenceStart =>
    if block then .ok (⟨.sequenceStart anchor tag, start⟩, { p with state := .blockSequenceFirstEntry })
    else p.noContent block anchor tag start t
  | .blockMappingStart =>
    if block then .ok (⟨.mappingStart anchor tag, start⟩, { p with state := .blockMappingFirstKey })
    else p.noContent block anchor tag start t
  | _ => p.noContent block anchor tag start t

/-- A node: an alias, or a scalar or collection with its optional anchor and tag. -/
def node (p : Parser) (block indentless : Bool) : Step := do
  let (t, p) ← p.peek
  match t.kind with
  | .alias name => pure (⟨.alias name, t.start⟩, p.skipToken.pop)
  | _ =>
  let start := t.start
  -- the properties: an anchor and a tag, in either order
  let (anchor, tag, tagMark, t, p) ← match t.kind with
    | .anchor a => do
      let (t2, p) ← p.skipToken.peek
      match t2.kind with
      | .tag h s => do
        let (t3, p) ← p.skipToken.peek
        pure (some a, some (h, s), t2.start, t3, p)
      | _ => pure (some a, none, start, t2, p)
    | .tag h s => do
      let (t2, p) ← p.skipToken.peek
      match t2.kind with
      | .anchor a => do
        let (t3, p) ← p.skipToken.peek
        pure (some a, some (h, s), start, t3, p)
      | _ => pure (none, some (h, s), start, t2, p)
    | _ => pure (none, none, start, t, p)
  let tag ← match tag with
    | none => pure none
    | some (h, s) =>
      if h.isEmpty then pure (some s)
      else match p.tagHandles.find? (·.1 == h) with
        | some (_, pfx) => pure (some (pfx ++ s))
        | none => throw (failIn "while parsing a node" start "found undefined tag handle" tagMark)
  match t.kind with
  | .blockEntry =>
    if indentless then pure (⟨.sequenceStart anchor tag, start⟩, { p with state := .indentlessSequenceEntry })
    else p.nodeRest block anchor tag start t
  | _ => p.nodeRest block anchor tag start t

/-- An entry of a block sequence, or its end. -/
def blockSequenceEntry (p : Parser) (first : Bool) : Step := do
  let p ← if first then do
      let (t, p) ← p.peek
      pure { p.skipToken with marks := t.start :: p.marks }
    else pure p
  let (t, p) ← p.peek
  match t.kind with
  | .blockEntry =>
    let (t2, p) ← p.skipToken.peek
    match t2.kind with
    | .blockEntry | .blockEnd => pure (emptyScalar t.stop, { p with state := .blockSequenceEntry })
    | _ => node (p.push .blockSequenceEntry) true false
  | .blockEnd =>
    pure (⟨.sequenceEnd, t.start⟩, { p.skipToken.pop with marks := p.marks.drop 1 })
  | _ => throw (failIn "while parsing a block collection" (p.marks.headD {}) "did not find expected '-' indicator" t.start)

/-- An entry of a sequence written without indentation under a mapping key, or its end. -/
def indentlessSequenceEntry (p : Parser) : Step := do
  let (t, p) ← p.peek
  match t.kind with
  | .blockEntry =>
    let (t2, p) ← p.skipToken.peek
    match t2.kind with
    | .blockEntry | .key | .value | .blockEnd => pure (emptyScalar t.stop, { p with state := .indentlessSequenceEntry })
    | _ => node (p.push .indentlessSequenceEntry) true false
  | _ => pure (⟨.sequenceEnd, t.start⟩, p.pop)

/-- A key of a block mapping, or its end. -/
def blockMappingKey (p : Parser) (first : Bool) : Step := do
  let p ← if first then do
      let (t, p) ← p.peek
      pure { p.skipToken with marks := t.start :: p.marks }
    else pure p
  let (t, p) ← p.peek
  match t.kind with
  | .key =>
    let (t2, p) ← p.skipToken.peek
    match t2.kind with
    | .key | .value | .blockEnd => pure (emptyScalar t.stop, { p with state := .blockMappingValue })
    | _ => node (p.push .blockMappingValue) true true
  | .blockEnd =>
    pure (⟨.mappingEnd, t.start⟩, { p.skipToken.pop with marks := p.marks.drop 1 })
  | _ => throw (failIn "while parsing a block mapping" (p.marks.headD {}) "did not find expected key" t.start)

/-- A value of a block mapping; a missing one is an empty scalar. -/
def blockMappingValue (p : Parser) : Step := do
  let (t, p) ← p.peek
  match t.kind with
  | .value =>
    let (t2, p) ← p.skipToken.peek
    match t2.kind with
    | .key | .value | .blockEnd => pure (emptyScalar t.stop, { p with state := .blockMappingKey })
    | _ => node (p.push .blockMappingKey) true true
  | _ => pure (emptyScalar t.start, { p with state := .blockMappingKey })

/-- An entry of a flow sequence, or its end. A `key: value` entry is a one-pair mapping. -/
def flowSequenceEntry (p : Parser) (first : Bool) : Step := do
  let p ← if first then do
      let (t, p) ← p.peek
      pure { p.skipToken with marks := t.start :: p.marks }
    else pure p
  let (t, p) ← p.peek
  let close := fun (t : Token) (p : Parser) =>
    Except.ok (⟨EventKind.sequenceEnd, t.start⟩, { p.skipToken.pop with marks := p.marks.drop 1 })
  match t.kind with
  | .flowSequenceEnd => close t p
  | _ =>
    let (t, p) ← if first then pure (t, p) else
      match t.kind with
      | .flowEntry => p.skipToken.peek
      | _ => throw (failIn "while parsing a flow sequence" (p.marks.headD {}) "did not find expected ',' or ']'" t.start)
    match t.kind with
    | .key => pure (⟨.mappingStart none none, t.start⟩, { p.skipToken with state := .flowSequenceEntryMappingKey })
    | .flowSequenceEnd => close t p
    | _ => node (p.push .flowSequenceEntry) false false

/-- The key of a one-pair mapping inside a flow sequence. -/
def flowSequenceEntryMappingKey (p : Parser) : Step := do
  let (t, p) ← p.peek
  match t.kind with
  | .value | .flowEntry | .flowSequenceEnd =>
    pure (emptyScalar t.start, { p with state := .flowSequenceEntryMappingValue })
  | _ => node (p.push .flowSequenceEntryMappingValue) false false

/-- The value of a one-pair mapping inside a flow sequence. -/
def flowSequenceEntryMappingValue (p : Parser) : Step := do
  let (t, p) ← p.peek
  match t.kind with
  | .value =>
    let (t2, p) ← p.skipToken.peek
    match t2.kind with
    | .flowEntry | .flowSequenceEnd => pure (emptyScalar t2.start, { p with state := .flowSequenceEntryMappingEnd })
    | _ => node (p.push .flowSequenceEntryMappingEnd) false false
  | _ => pure (emptyScalar t.start, { p with state := .flowSequenceEntryMappingEnd })

/-- The end of a one-pair mapping inside a flow sequence. -/
def flowSequenceEntryMappingEnd (p : Parser) : Step := do
  let (t, p) ← p.peek
  pure (⟨.mappingEnd, t.start⟩, { p with state := .flowSequenceEntry })

/-- A key of a flow mapping, or its end. -/
def flowMappingKey (p : Parser) (first : Bool) : Step := do
  let p ← if first then do
      let (t, p) ← p.peek
      pure { p.skipToken with marks := t.start :: p.marks }
    else pure p
  let (t, p) ← p.peek
  let close := fun (t : Token) (p : Parser) =>
    Except.ok (⟨EventKind.mappingEnd, t.start⟩, { p.skipToken.pop with marks := p.marks.drop 1 })
  match t.kind with
  | .flowMappingEnd => close t p
  | _ =>
    let (t, p) ← if first then pure (t, p) else
      match t.kind with
      | .flowEntry => p.skipToken.peek
      | _ => throw (failIn "while parsing a flow mapping" (p.marks.headD {}) "did not find expected ',' or '\x7d'" t.start)
    match t.kind with
    | .key =>
      let (t2, p) ← p.skipToken.peek
      match t2.kind with
      | .value | .flowEntry | .flowMappingEnd => pure (emptyScalar t2.start, { p with state := .flowMappingValue })
      | _ => node (p.push .flowMappingValue) false false
    | .flowMappingEnd => close t p
    | _ => node (p.push .flowMappingEmptyValue) false false

/-- A value of a flow mapping; a missing one is an empty scalar. -/
def flowMappingValue (p : Parser) (empty : Bool) : Step := do
  let (t, p) ← p.peek
  if empty then return (emptyScalar t.start, { p with state := .flowMappingKey })
  match t.kind with
  | .value =>
    let (t2, p) ← p.skipToken.peek
    match t2.kind with
    | .flowEntry | .flowMappingEnd => pure (emptyScalar t2.start, { p with state := .flowMappingKey })
    | _ => node (p.push .flowMappingKey) false false
  | _ => pure (emptyScalar t.start, { p with state := .flowMappingKey })

/-- The next event. -/
def next (p : Parser) : Step :=
  match p.state with
  | .streamStart => p.streamStart
  | .implicitDocumentStart => p.documentStart true
  | .documentStart => p.documentStart false
  | .documentContent => p.documentContent fun p => node p true false
  | .documentEnd => p.documentEnd
  | .blockNode => node p true false
  | .blockNodeOrIndentlessSequence => node p true true
  | .flowNode => node p false false
  | .blockSequenceFirstEntry => p.blockSequenceEntry true
  | .blockSequenceEntry => p.blockSequenceEntry false
  | .indentlessSequenceEntry => p.indentlessSequenceEntry
  | .blockMappingFirstKey => p.blockMappingKey true
  | .blockMappingKey => p.blockMappingKey false
  | .blockMappingValue => p.blockMappingValue
  | .flowSequenceFirstEntry => p.flowSequenceEntry true
  | .flowSequenceEntry => p.flowSequenceEntry false
  | .flowSequenceEntryMappingKey => p.flowSequenceEntryMappingKey
  | .flowSequenceEntryMappingValue => p.flowSequenceEntryMappingValue
  | .flowSequenceEntryMappingEnd => p.flowSequenceEntryMappingEnd
  | .flowMappingFirstKey => p.flowMappingKey true
  | .flowMappingKey => p.flowMappingKey false
  | .flowMappingValue => p.flowMappingValue false
  | .flowMappingEmptyValue => p.flowMappingValue true
  | .finished => .error { kind := .parser, problem := "no more events" }

end Parser

end TierCache.Yaml

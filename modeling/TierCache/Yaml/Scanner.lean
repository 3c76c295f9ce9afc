import TierCache.Text.Quote
/-!
# YAML tokens

The first stage of reading YAML: characters to tokens, in the manner of the reference C
scanner. Indentation is turned into explicit block-start and block-end tokens; a key that is
not introduced by `?` (a simple key) is only known to be one when its `:` is found, so the
scanner keeps a candidate per flow level and inserts the key token, and if need be the
block-mapping start, back into its queue at the candidate's place.

Positions count characters: `index` from the start, `line` and `column` from zero.
-/

namespace TierCache.Yaml

/-- A position in the input. -/
structure Mark where
  index : Nat := 0
  line : Nat := 0
  column : Nat := 0
  deriving Repr, Inhabited, DecidableEq

namespace Mark

/-- Whether the mark is the very start of the input, where reports give no position. -/
def isOrigin (m : Mark) : Bool := m.line == 0 && m.column == 0

/-- A position as reports give it, counting lines and columns from one. -/
def render (m : Mark) : String :=
  if m.isOrigin then s!"position {m.index}" else s!"line {m.line + 1} column {m.column + 1}"

end Mark

/-- The stage that found a failure. -/
inductive YamlErrorKind where
  /-- The reader, checking the characters before anything is scanned. -/
  | reader
  /-- The scanner, splitting characters into tokens. -/
  | scanner
  /-- The parser, putting tokens together into events. -/
  | parser
  deriving Repr, DecidableEq, Inhabited

/-- The name of a stage in diagnostics. -/
def YamlErrorKind.name : YamlErrorKind → String
  | reader => "READER"
  | scanner => "SCANNER"
  | parser => "PARSER"

/-- A failure of the reader, scanner or parser: what went wrong and where, and what was being
read when it did. -/
structure YamlError where
  kind : YamlErrorKind
  problem : String
  mark : Mark := {}
  /-- The byte offset, for failures found before scanning starts. -/
  offset : Nat := 0
  context : Option (String × Mark) := none
  deriving Inhabited

/-- The text of a failure. The position is left out at the very start of the input, and the
context's position when it is the problem's own. -/
def YamlError.message (e : YamlError) : String :=
  let head := e.problem ++
    (if !e.mark.isOrigin then " at " ++ e.mark.render
     else if e.offset != 0 then s!" at position {e.offset}" else "")
  match e.context with
  | none => head
  | some (c, cm) =>
    head ++ ", " ++ c ++
      (if !cm.isOrigin && (cm.line != e.mark.line || cm.column != e.mark.column) then
        " at " ++ cm.render else "")

/-- A position as diagnostics write it: line and column from one, or the index at the very
start of the input. -/
def Mark.debug (m : Mark) : String :=
  if m.isOrigin then "Mark \x7b index: " ++ toString m.index ++ " \x7d"
  else "Mark \x7b line: " ++ toString (m.line + 1) ++ ", column: " ++ toString (m.column + 1) ++ " \x7d"

/-- The diagnostic form of a failure: its stage and problem, where the problem is (left out at
the very start of the input, where the byte offset stands instead when there is one), and the
context and where it started, when there is a context. -/
def YamlError.debug (e : YamlError) : String :=
  let place := if !e.mark.isOrigin then [", problem_mark: " ++ e.mark.debug]
    else if e.offset != 0 then [", problem_offset: " ++ toString e.offset] else []
  let context := match e.context with
    | none => []
    | some (c, cm) => [", context: " ++ Quote.quote c] ++ (if cm.isOrigin then [] else [", context_mark: " ++ cm.debug])
  "Error \x7b kind: " ++ e.kind.name ++ ", problem: " ++ Quote.quote e.problem ++
    String.join place ++ String.join context ++ " \x7d"

/-! ### Characters -/

/-- A line break: CR, LF, NEL, LS or PS. -/
def isBreak (c : Char) : Bool :=
  c == '\r' || c == '\n' || c == '\x85' || c == '\u2028' || c == '\u2029'

/-- A space or a tab. -/
def isBlank (c : Char) : Bool := c == ' ' || c == '\t'

/-- The end of the input, read as a NUL. -/
def isEnd (c : Char) : Bool := c == '\x00'

def isBlankZ (c : Char) : Bool := isBlank c || isBreak c || isEnd c

def isBreakZ (c : Char) : Bool := isBreak c || isEnd c

/-- A character of anchor names and tag handles: an ASCII letter or digit, `_` or `-`. -/
def isWord (c : Char) : Bool := c.isAlphanum || c == '_' || c == '-'

/-- A hex digit's value. -/
def hexValue (c : Char) : Option Nat :=
  if '0' ≤ c && c ≤ '9' then some (c.toNat - 48)
  else if 'a' ≤ c && c ≤ 'f' then some (c.toNat - 87)
  else if 'A' ≤ c && c ≤ 'F' then some (c.toNat - 55)
  else none

/-- Whether a character may appear in a YAML stream at all. -/
def isPrintable (c : Char) : Bool :=
  let v := c.toNat
  v == 0x09 || v == 0x0A || v == 0x0D || (0x20 ≤ v && v ≤ 0x7E) || v == 0x85 ||
    (0xA0 ≤ v && v ≤ 0xD7FF) || (0xE000 ≤ v && v ≤ 0xFFFD) || (0x10000 ≤ v && v ≤ 0x10FFFF)

/-! ### Tokens -/

/-- How a scalar was written. -/
inductive ScalarStyle where
  | plain
  | singleQuoted
  | doubleQuoted
  | literal
  | folded
  deriving Repr, DecidableEq, Inhabited

/-- The kinds of token. -/
inductive TokenKind where
  | streamStart
  | streamEnd
  | versionDirective (major minor : Nat)
  | tagDirective (handle pfx : String)
  | documentStart
  | documentEnd
  | blockSequenceStart
  | blockMappingStart
  | blockEnd
  | flowSequenceStart
  | flowSequenceEnd
  | flowMappingStart
  | flowMappingEnd
  | blockEntry
  | flowEntry
  | key
  | value
  | alias (name : String)
  | anchor (name : String)
  | tag (handle suffix : String)
  | scalar (text : String) (style : ScalarStyle)
  deriving Repr, Inhabited

/-- A token with where it starts and ends. -/
structure Token where
  kind : TokenKind
  start : Mark
  stop : Mark
  deriving Repr, Inhabited

/-- A place where a simple key may start: the token it would be and where it is. It is
`required` when it stands at the block indentation, where nothing but a key may start. -/
structure SimpleKey where
  possible : Bool := false
  required : Bool := false
  tokenNumber : Nat := 0
  mark : Mark := {}
  deriving Inhabited

/-- The scanner's state. -/
structure Scanner where
  src : Array Char
  mark : Mark := {}
  started : Bool := false
  flowLevel : Nat := 0
  /-- Tokens scanned but not yet taken by the parser, first first. -/
  queue : List Token := []
  /-- Tokens the parser has taken. -/
  taken : Nat := 0
  indent : Int := -1
  indents : List Int := []
  keyAllowed : Bool := false
  /-- One candidate per flow level, the innermost first. -/
  keys : List SimpleKey := []
  deriving Inhabited

/-- What a scanning step gives: the scanner after it, or the failure. -/
abbrev Scan := Except YamlError Scanner

namespace Scanner

/-- The character `k` places ahead; a NUL past the end. -/
def at_ (s : Scanner) (k : Nat) : Char := s.src.getD (s.mark.index + k) '\x00'

/-- The current character. -/
def cur (s : Scanner) : Char := s.at_ 0

/-- Moves past one character of a line. -/
def skip (s : Scanner) : Scanner :=
  { s with mark := { s.mark with index := s.mark.index + 1, column := s.mark.column + 1 } }

/-- Moves past a line break; CR LF counts as one. -/
def skipLine (s : Scanner) : Scanner :=
  if s.cur == '\r' && s.at_ 1 == '\n' then
    { s with mark := { index := s.mark.index + 2, line := s.mark.line + 1, column := 0 } }
  else if isBreak s.cur then
    { s with mark := { index := s.mark.index + 1, line := s.mark.line + 1, column := 0 } }
  else s

/-- Reads a line break into a scalar: CR, LF, CR LF and NEL become LF; LS and PS stay. -/
def readLine (s : Scanner) : String × Scanner :=
  let c := s.cur
  if c == '\r' || c == '\n' || c == '\x85' then ("\n", s.skipLine)
  else if c == '\u2028' || c == '\u2029' then (c.toString, s.skipLine)
  else ("", s)

/-- Characters left to read; every loop of the scanner moves at least one of them. -/
def left (s : Scanner) : Nat := s.src.size + 1 - s.mark.index

/-- A failure at the current position while reading something that started at `start`. -/
def fail (s : Scanner) (context : String) (start : Mark) (problem : String) : YamlError :=
  { kind := .scanner, problem, mark := s.mark, context := some (context, start) }

/-- A failure at the current position with no context. -/
def failHere (s : Scanner) (problem : String) : YamlError := { kind := .scanner, problem, mark := s.mark }

/-- Appends a token to the queue. -/
def push (s : Scanner) (kind : TokenKind) (start stop : Mark) : Scanner :=
  { s with queue := s.queue ++ [⟨kind, start, stop⟩] }

/-- Skips characters while `p` holds. -/
def skipWhile (s : Scanner) (p : Char → Bool) : Scanner :=
  let rec go (fuel : Nat) (s : Scanner) : Scanner :=
    match fuel with
    | 0 => s
    | fuel + 1 => if p s.cur && !isEnd s.cur then go fuel s.skip else s
  go s.left s

/-- Reads characters while `p` holds. -/
def readWhile (s : Scanner) (p : Char → Bool) : String × Scanner :=
  let rec go (fuel : Nat) (acc : String) (s : Scanner) : String × Scanner :=
    match fuel with
    | 0 => (acc, s)
    | fuel + 1 => if p s.cur && !isEnd s.cur then go fuel (acc.push s.cur) s.skip else (acc, s)
  go s.left "" s

/-! ### Simple keys and indentation -/

/-- Drops the innermost candidate key; a required one that never found its `:` is a failure. -/
def removeSimpleKey (s : Scanner) : Scan :=
  match s.keys with
  | k :: rest =>
    if k.possible && k.required then
      .error (s.fail "while scanning a simple key" k.mark "could not find expected ':'")
    else .ok { s with keys := { k with possible := false } :: rest }
  | [] => .ok s

/-- Records the current position as the innermost candidate key, when a key may start here. -/
def saveSimpleKey (s : Scanner) : Scan := do
  if !s.keyAllowed then return s
  let key : SimpleKey :=
    { possible := true, required := s.flowLevel == 0 && s.indent == (s.mark.column : Int),
      tokenNumber := s.taken + s.queue.length, mark := s.mark }
  let s ← s.removeSimpleKey
  return { s with keys := match s.keys with
    | _ :: rest => key :: rest
    | [] => [key] }

/-- Gives up candidate keys that can no longer be keys: a key ends on its own line and within
1024 characters. A required one given up is a failure. -/
def staleSimpleKeys (s : Scanner) : Scan := do
  let stale := fun (k : SimpleKey) =>
    k.possible && (k.mark.line < s.mark.line || k.mark.index + 1024 < s.mark.index)
  match s.keys.reverse.find? fun k => stale k && k.required with
  | some k => throw (s.fail "while scanning a simple key" k.mark "could not find expected ':'")
  | none => return { s with keys := s.keys.map fun k => if stale k then { k with possible := false } else k }

/-- Opens a flow level with no candidate key. -/
def increaseFlowLevel (s : Scanner) : Scanner :=
  { s with keys := {} :: s.keys, flowLevel := s.flowLevel + 1 }

/-- Closes a flow level. -/
def decreaseFlowLevel (s : Scanner) : Scanner :=
  if s.flowLevel > 0 then { s with flowLevel := s.flowLevel - 1, keys := s.keys.drop 1 } else s

/-- In block context, a deeper indentation opens a block collection: the start token goes to the
end of the queue, or where the candidate key `number` stands. -/
def rollIndent (s : Scanner) (column : Int) (number : Option Nat) (kind : TokenKind) (m : Mark) :
    Scanner :=
  if s.flowLevel > 0 || !(s.indent < column) then s else
  let s := { s with indents := s.indent :: s.indents, indent := column }
  let tok : Token := ⟨kind, m, m⟩
  match number with
  | none => { s with queue := s.queue ++ [tok] }
  | some n => { s with queue := s.queue.insertIdx (n - s.taken) tok }

/-- In block context, closes every block collection indented deeper than `column`. -/
def unrollIndent (s : Scanner) (column : Int) : Scanner :=
  let rec go (fuel : Nat) (s : Scanner) : Scanner :=
    match fuel with
    | 0 => s
    | fuel + 1 =>
      if s.indent > column then
        let s := s.push .blockEnd s.mark s.mark
        go fuel { s with indent := s.indents.headD (-1), indents := s.indents.drop 1 }
      else s
  if s.flowLevel > 0 then s else go (s.indents.length + 1) s

/-- Skips blanks, comments and line breaks up to the next token. Tabs are skipped only in flow
context or where no simple key may start; a line break in block context allows a key again. -/
def toNextToken (s : Scanner) : Scanner :=
  let rec go (fuel : Nat) (s : Scanner) : Scanner :=
    match fuel with
    | 0 => s
    | fuel + 1 =>
      let s := if s.mark.column == 0 && s.cur == '\uFEFF' then s.skip else s
      let s := s.skipWhile fun c => c == ' ' || (c == '\t' && (s.flowLevel > 0 || !s.keyAllowed))
      let s := if s.cur == '#' then s.skipWhile fun c => !isBreakZ c else s
      if isBreak s.cur then
        let s := s.skipLine
        go fuel (if s.flowLevel == 0 then { s with keyAllowed := true } else s)
      else s
  go s.left s

/-! ### Scalars -/

/-- Joins the blanks or line breaks between two runs of a flow or plain scalar: a single line
break folds to a space, further line breaks stay. -/
def fold (acc leadingBreak trailingBreaks whitespace : String) (leading : Bool) : String :=
  if leading then
    if leadingBreak == "\n" || leadingBreak.startsWith "\n" then
      if trailingBreaks.isEmpty then acc.push ' ' else acc ++ trailingBreaks
    else acc ++ leadingBreak ++ trailingBreaks
  else acc ++ whitespace

/-- Reads the blanks and line breaks after a run of a scalar: the blanks, the first line break,
and the further ones. Tabs that would indent a continuation line of a plain scalar below
`indent` are a failure. -/
def scalarGap (s : Scanner) (plainIndent : Option Int) (start : Mark) (leading0 : Bool) :
    Except YamlError (String × String × String × Bool × Scanner) :=
  let rec go (fuel : Nat) (ws lead trail : String) (leading : Bool) (s : Scanner) :
      Except YamlError (String × String × String × Bool × Scanner) :=
    match fuel with
    | 0 => .ok (ws, lead, trail, leading, s)
    | fuel + 1 =>
      let c := s.cur
      if isBlank c then
        match plainIndent with
        | some ind =>
          if leading && (s.mark.column : Int) < ind && c == '\t' then
            .error (s.fail "while scanning a plain scalar" start "found a tab character that violates indentation")
          else if leading then go fuel ws lead trail leading s.skip
          else go fuel (ws.push c) lead trail leading s.skip
        | none =>
          if leading then go fuel ws lead trail leading s.skip
          else go fuel (ws.push c) lead trail leading s.skip
      else if isBreak c then
        let (b, s) := s.readLine
        if leading then go fuel ws lead (trail ++ b) leading s
        else go fuel "" b trail true s
      else .ok (ws, lead, trail, leading, s)
  go s.left "" "" "" leading0 s

/-- Whether a document marker (`---` or `...` and a blank) starts at the current position. -/
def atDocumentMarker (s : Scanner) : Bool :=
  s.mark.column == 0 &&
    ((s.cur == '-' && s.at_ 1 == '-' && s.at_ 2 == '-') || (s.cur == '.' && s.at_ 1 == '.' && s.at_ 2 == '.')) &&
    isBlankZ (s.at_ 3)

/-- A plain scalar. It ends at `: `, at ` #`, at a flow indicator in flow context, at a
document marker, or at a line indented no deeper than the enclosing block. -/
def scanPlain (s : Scanner) : Scan :=
  let start := s.mark
  let indent : Int := s.indent + 1
  -- the characters of one run, up to a blank or an indicator
  let rec run (fuel : Nat) (acc : String) (s : Scanner) (stop : Mark) : String × Scanner × Mark :=
    match fuel with
    | 0 => (acc, s, stop)
    | fuel + 1 =>
      let c := s.cur
      if isBlankZ c then (acc, s, stop)
      else if s.flowLevel > 0 && c == ':' &&
          [',', '?', '[', ']', '{', '}'].contains (s.at_ 1) then (acc, s, stop)
      else if (c == ':' && isBlankZ (s.at_ 1)) ||
          (s.flowLevel > 0 && [',', '[', ']', '{', '}'].contains c) then (acc, s, stop)
      else
        let s := s.skip
        run fuel (acc.push c) s s.mark
  let rec lines (fuel : Nat) (acc lead trail ws : String) (leading : Bool) (s : Scanner) (stop : Mark) :
      Except YamlError (String × Bool × Scanner × Mark) :=
    match fuel with
    | 0 => .ok (acc, leading, s, stop)
    | fuel + 1 =>
      if s.atDocumentMarker || s.cur == '#' then .ok (acc, leading, s, stop) else
      let (piece, s', stop') := run s.left "" s stop
      if piece.isEmpty then .ok (acc, leading, s, stop) else
      let acc := fold acc lead trail ws leading ++ piece
      let s := s'
      let stop := stop'
      if !(isBlank s.cur || isBreak s.cur) then .ok (acc, false, s, stop) else
      match s.scalarGap (some indent) start false with
      | .error e => .error e
      | .ok (ws, lead, trail, leading, s) =>
        if s.flowLevel == 0 && (s.mark.column : Int) < indent then .ok (acc, leading, s, stop)
        else lines fuel acc lead trail ws leading s stop
  match lines s.left "" "" "" "" false s start with
  | .error e => .error e
  | .ok (text, leading, s, stop) =>
    let s := s.push (.scalar text .plain) start stop
    .ok (if leading then { s with keyAllowed := true } else s)

/-- An escape after a backslash in a double-quoted scalar: the character, or the number of hex
digits that follow. -/
def escapeOf (c : Char) : Option (Sum Char Nat) :=
  match c with
  | '0' => some (.inl '\x00')
  | 'a' => some (.inl '\x07')
  | 'b' => some (.inl '\x08')
  | 't' | '\t' => some (.inl '\t')
  | 'n' => some (.inl '\n')
  | 'v' => some (.inl '\x0b')
  | 'f' => some (.inl '\x0c')
  | 'r' => some (.inl '\r')
  | 'e' => some (.inl '\x1b')
  | ' ' => some (.inl ' ')
  | '"' => some (.inl '"')
  | '/' => some (.inl '/')
  | '\'' => some (.inl '\'')
  | '\\' => some (.inl '\\')
  | 'N' => some (.inl '\x85')
  | '_' => some (.inl '\xa0')
  | 'L' => some (.inl '\u2028')
  | 'P' => some (.inl '\u2029')
  | 'x' => some (.inr 2)
  | 'u' => some (.inr 4)
  | 'U' => some (.inr 8)
  | _ => none

/-- A single- or double-quoted scalar. -/
def scanQuoted (s : Scanner) (single : Bool) : Scan :=
  let start := s.mark
  let quote := if single then '\'' else '"'
  let s := s.skip
  let ctx := "while scanning a quoted scalar"
  let pctx := "while parsing a quoted scalar"
  -- the characters of one run, up to a blank, the closing quote or an escaped line break
  let rec run (fuel : Nat) (acc : String) (s : Scanner) :
      Except YamlError (String × Bool × Scanner) :=
    match fuel with
    | 0 => .ok (acc, false, s)
    | fuel + 1 =>
      let c := s.cur
      if isBlankZ c then .ok (acc, false, s)
      else if single && c == '\'' && s.at_ 1 == '\'' then run fuel (acc.push '\'') s.skip.skip
      else if c == quote then .ok (acc, false, s)
      else if !single && c == '\\' && isBreak (s.at_ 1) then .ok (acc, true, s.skip.skipLine)
      else if !single && c == '\\' then
        match escapeOf (s.at_ 1) with
        | none => .error (s.fail pctx start "found unknown escape character")
        | some (.inl ch) => run fuel (acc.push ch) s.skip.skip
        | some (.inr n) =>
          let s := s.skip.skip
          let digits := (List.range n).map fun k => hexValue (s.at_ k)
          if digits.any Option.isNone then
            .error (s.fail pctx start "did not find expected hexdecimal number")
          else
            let v := digits.foldl (fun acc d => acc * 16 + d.getD 0) 0
            if (0xD800 ≤ v && v ≤ 0xDFFF) || v > 0x10FFFF then
              .error (s.fail pctx start "found invalid Unicode character escape code")
            else run fuel (acc.push (Char.ofNat v)) ((List.range n).foldl (fun s _ => s.skip) s)
      else run fuel (acc.push c) s.skip
  let rec lines (fuel : Nat) (acc : String) (s : Scanner) : Except YamlError (String × Scanner) :=
    match fuel with
    | 0 => .ok (acc, s)
    | fuel + 1 =>
      if s.atDocumentMarker then .error (s.fail ctx start "found unexpected document indicator")
      else if isEnd s.cur then .error (s.fail ctx start "found unexpected end of stream")
      else
        match run s.left acc s with
        | .error e => .error e
        | .ok (acc, escapedBreak, s) =>
          if s.cur == quote && !escapedBreak then .ok (acc, s) else
          match s.scalarGap none start escapedBreak with
          | .error e => .error e
          | .ok (ws, lead, trail, leading, s) =>
            lines fuel (fold acc lead trail ws leading) s
  match lines s.left "" s with
  | .error e => .error e
  | .ok (text, s) =>
    let s := s.skip
    .ok (s.push (.scalar text (if single then .singleQuoted else .doubleQuoted)) start s.mark)

/-- Skips indentation spaces, up to column `indent` when that is known. -/
def skipIndent (s : Scanner) (indent : Nat) : Scanner :=
  let rec go (fuel : Nat) (s : Scanner) : Scanner :=
    match fuel with
    | 0 => s
    | fuel + 1 => if s.cur == ' ' && (indent == 0 || s.mark.column < indent) then go fuel s.skip else s
  go s.left s

/-- The indentation spaces and empty lines before a line of a block scalar. When the
indentation is not yet known it becomes the deepest one seen, and at least one more than the
enclosing block's. -/
def blockBreaks (s : Scanner) (indent : Nat) (start : Mark) :
    Except YamlError (Nat × String × Mark × Scanner) :=
  let rec go (fuel : Nat) (maxIndent : Nat) (breaks : String) (stop : Mark) (s : Scanner) :
      Except YamlError (Nat × String × Mark × Scanner) :=
    match fuel with
    | 0 => .ok (maxIndent, breaks, stop, s)
    | fuel + 1 =>
      let s := s.skipIndent indent
      let maxIndent := max maxIndent s.mark.column
      if (indent == 0 || s.mark.column < indent) && s.cur == '\t' then
        .error (s.fail "while scanning a block scalar" start "found a tab character where an indentation space is expected")
      else if !isBreak s.cur then .ok (maxIndent, breaks, stop, s)
      else
        let (b, s) := s.readLine
        go fuel maxIndent (breaks ++ b) s.mark s
  match go s.left 0 "" s.mark s with
  | .error e => .error e
  | .ok (maxIndent, breaks, stop, s) =>
    let indent := if indent == 0 then
        let i := max maxIndent (s.indent + 1).toNat
        max i 1
      else indent
    .ok (indent, breaks, stop, s)

/-- A literal (`|`) or folded (`>`) block scalar, with its chomping (`+` keep, `-` strip) and
indentation indicators. -/
def scanBlock (s : Scanner) (literal : Bool) : Scan := do
  let start := s.mark
  let ctx := "while scanning a block scalar"
  let s := s.skip
  let isDigit := fun (c : Char) => '0' ≤ c && c ≤ '9'
  let digit := fun (c : Char) => c.toNat - 48
  let (chomp, increment, s) ←
    if s.cur == '+' || s.cur == '-' then
      let chomp : Int := if s.cur == '+' then 1 else -1
      let s := s.skip
      if isDigit s.cur then
        if s.cur == '0' then throw (s.fail ctx start "found an indentation indicator equal to 0")
        pure (chomp, digit s.cur, s.skip)
      else pure (chomp, 0, s)
    else if isDigit s.cur then
      if s.cur == '0' then throw (s.fail ctx start "found an indentation indicator equal to 0")
      let inc := digit s.cur
      let s := s.skip
      if s.cur == '+' || s.cur == '-' then pure (if s.cur == '+' then 1 else -1, inc, s.skip)
      else pure (0, inc, s)
    else pure (0, 0, s)
  let s := s.skipWhile isBlank
  let s := if s.cur == '#' then s.skipWhile fun c => !isBreakZ c else s
  if !isBreakZ s.cur then throw (s.fail ctx start "did not find expected comment or line break")
  let s := if isBreak s.cur then s.skipLine else s
  let indent : Nat := if increment > 0 then (if s.indent ≥ 0 then s.indent.toNat + increment else increment) else 0
  let (indent, trailing, stop, s) ← s.blockBreaks indent start
  let rec body (fuel : Nat) (acc leadBreak trailing : String) (leadingBlank : Bool) (stop : Mark)
      (s : Scanner) : Except YamlError (String × String × String × Mark × Scanner) :=
    match fuel with
    | 0 => .ok (acc, leadBreak, trailing, stop, s)
    | fuel + 1 =>
      if s.mark.column != indent || isEnd s.cur then .ok (acc, leadBreak, trailing, stop, s) else
      let trailingBlank := isBlank s.cur
      let acc :=
        if !literal && leadBreak.startsWith "\n" && !leadingBlank && !trailingBlank then
          if trailing.isEmpty then acc.push ' ' else acc
        else acc ++ leadBreak
      let acc := acc ++ trailing
      let leadingBlank := isBlank s.cur
      let (line, s) := s.readWhile fun c => !isBreakZ c
      let acc := acc ++ line
      let (b, s) := s.readLine
      match s.blockBreaks indent start with
      | .error e => .error e
      | .ok (_, trailing, stop, s) => body fuel acc b trailing leadingBlank stop s
  let (text, leadBreak, trailing, stop, s) ← body s.left "" "" trailing false stop s
  let text := if chomp != -1 then text ++ leadBreak else text
  let text := if chomp == 1 then text ++ trailing else text
  return s.push (.scalar text (if literal then .literal else .folded)) start stop

/-- An anchor (`&name`) or alias (`*name`). The name must be followed by a blank or one of
`?:,]}%@` and a backquote. -/
def scanAnchor (s : Scanner) (isAlias : Bool) : Scan :=
  let start := s.mark
  let (name, s) := s.skip.readWhile isWord
  let c := s.cur
  if name.isEmpty || !(isBlankZ c || ['?', ':', ',', ']', '}', '%', '@', '`'].contains c) then
    .error (s.fail (if isAlias then "while scanning an alias" else "while scanning an anchor") start
      "did not find expected alphabetic or numeric character")
  else .ok (s.push (if isAlias then .alias name else .anchor name) start s.mark)

/-- Whether a character may appear in a tag's URI; `flowChars` also allows `,[]`. -/
def isUriChar (flowChars : Bool) (c : Char) : Bool :=
  isWord c || [';', '/', '?', ':', '@', '&', '=', '+', '$', '.', '%', '!', '~', '*', '\'', '(', ')'].contains c ||
    (flowChars && [',', '[', ']'].contains c)

/-- The URI part of a tag, with `%XX` escapes decoded, after the characters of `head` past its
leading `!`. -/
def scanTagUri (s : Scanner) (flowChars directive : Bool) (head : String) (start : Mark) :
    Except YamlError (String × Scanner) :=
  let ctx := if directive then "while parsing a %TAG directive" else "while parsing a tag"
  let rec go (fuel : Nat) (acc : String) (len : Nat) (s : Scanner) : Except YamlError (String × Nat × Scanner) :=
    match fuel with
    | 0 => .ok (acc, len, s)
    | fuel + 1 =>
      if !isUriChar flowChars s.cur then .ok (acc, len, s)
      else if s.cur == '%' then
        match hexValue (s.at_ 1), hexValue (s.at_ 2) with
        | some a, some b => go fuel (acc.push (Char.ofNat (a * 16 + b))) (len + 1) s.skip.skip.skip
        | _, _ => .error (s.fail ctx start "did not find URI escaped octet")
      else go fuel (acc.push s.cur) (len + 1) s.skip
  match go s.left (String.ofList (head.toList.drop 1)) (head.length) s with
  | .error e => .error e
  | .ok (acc, len, s) =>
    if len == 0 then .error (s.fail ctx start "did not find expected tag URI") else .ok (acc, s)

/-- A tag handle: `!`, `!!` or `!name!`. Outside a directive a lone `!word` is not a handle but
the start of a suffix. -/
def scanTagHandle (s : Scanner) (directive : Bool) (start : Mark) : Except YamlError (String × Scanner) :=
  if s.cur != '!' then
    .error (s.fail (if directive then "while scanning a tag directive" else "while scanning a tag") start
      "did not find expected '!'")
  else
    let (name, s) := s.skip.readWhile isWord
    let handle := "!" ++ name
    if s.cur == '!' then .ok (handle ++ "!", s.skip)
    else if directive && handle != "!" then
      .error (s.fail "while parsing a tag directive" start "did not find expected '!'")
    else .ok (handle, s)

/-- A tag: `!<uri>`, `!handle!suffix`, `!suffix` or `!`. -/
def scanTag (s : Scanner) : Scan := do
  let start := s.mark
  let ctx := "while scanning a tag"
  let (handle, suffix, s) ←
    if s.at_ 1 == '<' then
      let (suffix, s) ← s.skip.skip.scanTagUri true false "" start
      if s.cur != '>' then throw (s.fail ctx start "did not find the expected '>'")
      pure ("", suffix, s.skip)
    else
      let (handle, s) ← s.scanTagHandle false start
      if handle.length > 1 && handle.startsWith "!" && handle.endsWith "!" then
        let (suffix, s) ← s.scanTagUri false false "" start
        pure (handle, suffix, s)
      else
        let (suffix, s) ← s.scanTagUri false false handle start
        if suffix.isEmpty then pure ("", "!", s) else pure ("!", suffix, s)
  if !isBlankZ s.cur && !(s.flowLevel > 0 && s.cur == ',') then
    throw (s.fail ctx start "did not find expected whitespace or line break")
  return s.push (.tag handle suffix) start s.mark

/-- A directive line: `%YAML major.minor` or `%TAG handle prefix`. -/
def scanDirective (s : Scanner) : Scan := do
  let start := s.mark
  let ctx := "while scanning a directive"
  let (name, s) := s.skip.readWhile isWord
  if name.isEmpty then throw (s.fail ctx start "could not find expected directive name")
  if !isBlankZ s.cur then throw (s.fail ctx start "found unexpected non-alphabetical character")
  let (kind, s) ←
    if name == "YAML" then
      let yctx := "while scanning a %YAML directive"
      let number := fun (s : Scanner) => do
        let (ds, s) := s.readWhile fun c => '0' ≤ c && c ≤ '9'
        if ds.length > 9 then throw (s.fail yctx start "found extremely long version number")
        if ds.isEmpty then throw (s.fail yctx start "did not find expected version number")
        pure (ds.toNat!, s)
      let s := s.skipWhile isBlank
      let (major, s) ← number s
      if s.cur != '.' then throw (s.fail yctx start "did not find expected digit or '.' character")
      let (minor, s) ← number s.skip
      pure (TokenKind.versionDirective major minor, s)
    else if name == "TAG" then
      let tctx := "while scanning a %TAG directive"
      let s := s.skipWhile isBlank
      let (handle, s) ← s.scanTagHandle true start
      if !isBlank s.cur then throw (s.fail tctx start "did not find expected whitespace")
      let s := s.skipWhile isBlank
      let (pfx, s) ← s.scanTagUri true true "" start
      if !isBlankZ s.cur then throw (s.fail tctx start "did not find expected whitespace or line break")
      pure (TokenKind.tagDirective handle pfx, s)
    else throw (s.fail ctx start "found unknown directive name")
  let stop := s.mark
  let s := s.skipWhile isBlank
  let s := if s.cur == '#' then s.skipWhile fun c => !isBreakZ c else s
  if !isBreakZ s.cur then throw (s.fail ctx start "did not find expected comment or line break")
  let s := if isBreak s.cur then s.skipLine else s
  return s.push kind start stop

/-! ### Fetching tokens -/

/-- Moves past a one-character indicator and queues its token. -/
def indicator (s : Scanner) (kind : TokenKind) : Scanner :=
  let start := s.mark
  let s := s.skip
  s.push kind start s.mark

/-- The end of the input: the last line is closed, every block collection too. -/
def fetchStreamEnd (s : Scanner) : Scan := do
  let s := if s.mark.column != 0 then { s with mark := { s.mark with column := 0, line := s.mark.line + 1 } } else s
  let s := s.unrollIndent (-1)
  let s ← s.removeSimpleKey
  return { s with keyAllowed := false }.push .streamEnd s.mark s.mark

/-- A directive, which closes every block collection first. -/
def fetchDirective (s : Scanner) : Scan := do
  let s := s.unrollIndent (-1)
  let s ← s.removeSimpleKey
  { s with keyAllowed := false }.scanDirective

/-- A document marker, `---` or `...`, which closes every block collection first. -/
def fetchDocumentMarker (s : Scanner) (kind : TokenKind) : Scan := do
  let s := s.unrollIndent (-1)
  let s ← s.removeSimpleKey
  let start := s.mark
  let s := { s with keyAllowed := false }.skip.skip.skip
  return s.push kind start s.mark

/-- `[` or `{`, which may start a key. -/
def fetchFlowOpen (s : Scanner) (kind : TokenKind) : Scan := do
  let s ← s.saveSimpleKey
  return { s.increaseFlowLevel with keyAllowed := true }.indicator kind

/-- `]` or `}`. -/
def fetchFlowClose (s : Scanner) (kind : TokenKind) : Scan := do
  let s ← s.removeSimpleKey
  return { s.decreaseFlowLevel with keyAllowed := false }.indicator kind

/-- `,` between flow entries. -/
def fetchFlowEntry (s : Scanner) : Scan := do
  let s ← s.removeSimpleKey
  return { s with keyAllowed := true }.indicator .flowEntry

/-- `- `, which in block context may open a block sequence. -/
def fetchBlockEntry (s : Scanner) : Scan := do
  let s ← if s.flowLevel == 0 then
      if !s.keyAllowed then throw (s.failHere "block sequence entries are not allowed in this context")
      pure (s.rollIndent s.mark.column none .blockSequenceStart s.mark)
    else pure s
  let s ← s.removeSimpleKey
  return { s with keyAllowed := true }.indicator .blockEntry

/-- `? `, an explicit key, which in block context may open a block mapping. -/
def fetchKey (s : Scanner) : Scan := do
  let s ← if s.flowLevel == 0 then
      if !s.keyAllowed then throw (s.failHere "mapping keys are not allowed in this context")
      pure (s.rollIndent s.mark.column none .blockMappingStart s.mark)
    else pure s
  let s ← s.removeSimpleKey
  return { s with keyAllowed := s.flowLevel == 0 }.indicator .key

/-- A `:` after an explicit key, or after nothing, which in block context may open a block
mapping. -/
def complexValue (s : Scanner) : Scan := do
  let s ← if s.flowLevel == 0 then
      if !s.keyAllowed then throw (s.failHere "mapping values are not allowed in this context")
      pure (s.rollIndent s.mark.column none .blockMappingStart s.mark)
    else pure s
  return { s with keyAllowed := s.flowLevel == 0 }.indicator .value

/-- `:`. When a candidate key stands before it, the key token (and in block context the
mapping start) goes back into the queue where the candidate began. -/
def fetchValue (s : Scanner) : Scan :=
  match s.keys with
  | k :: rest =>
    if k.possible then
      let s := { s with queue := s.queue.insertIdx (k.tokenNumber - s.taken) ⟨.key, k.mark, k.mark⟩ }
      let s := s.rollIndent k.mark.column (some k.tokenNumber) .blockMappingStart k.mark
      .ok ({ s with keys := { k with possible := false } :: rest, keyAllowed := false }.indicator .value)
    else s.complexValue
  | [] => s.complexValue

/-- A token that may start a key: an anchor, alias, tag, quoted or plain scalar. -/
def fetchKeyable (s : Scanner) (scan : Scanner → Scan) : Scan := do
  let s ← s.saveSimpleKey
  scan { s with keyAllowed := false }

/-- A block scalar, `|` or `>`. -/
def fetchBlockScalar (s : Scanner) (literal : Bool) : Scan := do
  let s ← s.removeSimpleKey
  { s with keyAllowed := true }.scanBlock literal

/-- Characters that cannot start a plain scalar. -/
def indicators : List Char :=
  ['-', '?', ':', ',', '[', ']', '{', '}', '#', '&', '*', '!', '|', '>', '\'', '"', '%', '@', '`']

/-- The token at the current position, once blanks and comments are passed. -/
def fetchToken (s : Scanner) : Scan :=
  let c := s.cur
  let blankAfter := isBlankZ (s.at_ 1)
  if isEnd c then s.fetchStreamEnd
  else if s.mark.column == 0 && c == '%' then s.fetchDirective
  else if s.atDocumentMarker then s.fetchDocumentMarker (if c == '-' then .documentStart else .documentEnd)
  else if c == '[' then s.fetchFlowOpen .flowSequenceStart
  else if c == '{' then s.fetchFlowOpen .flowMappingStart
  else if c == ']' then s.fetchFlowClose .flowSequenceEnd
  else if c == '}' then s.fetchFlowClose .flowMappingEnd
  else if c == ',' then s.fetchFlowEntry
  else if c == '-' && blankAfter then s.fetchBlockEntry
  else if c == '?' && (s.flowLevel > 0 || blankAfter) then s.fetchKey
  else if c == ':' && (s.flowLevel > 0 || blankAfter) then s.fetchValue
  else if c == '*' || c == '&' then s.fetchKeyable fun s => s.scanAnchor (c == '*')
  else if c == '!' then s.fetchKeyable scanTag
  else if (c == '|' || c == '>') && s.flowLevel == 0 then s.fetchBlockScalar (c == '|')
  else if c == '\'' || c == '"' then s.fetchKeyable fun s => s.scanQuoted (c == '\'')
  else if !(isBlankZ c || indicators.contains c) || (c == '-' && !isBlank (s.at_ 1)) ||
      (s.flowLevel == 0 && (c == '?' || c == ':') && !blankAfter) then s.fetchKeyable scanPlain
  else .error (s.fail "while scanning for the next token" s.mark "found character that cannot start any token")

/-- The next token: the stream start first, then whatever follows the blanks and comments. -/
def fetchNext (s : Scanner) : Scan := do
  if !s.started then
    return { s with started := true, keyAllowed := true, keys := [{}] }.push .streamStart s.mark s.mark
  let s ← s.toNextToken.staleSimpleKeys
  (s.unrollIndent s.mark.column).fetchToken

/-- Scans until the parser may take the first queued token: the queue is not empty and no
candidate key could still turn that token into a key's start. -/
def fetchMore (s : Scanner) : Scan :=
  let rec go (fuel : Nat) (s : Scanner) : Scan :=
    match fuel with
    | 0 => .ok s
    | fuel + 1 => do
      let more ← if s.queue.isEmpty then pure (true, s) else do
        let s ← s.staleSimpleKeys
        pure (s.keys.any (fun k => k.possible && k.tokenNumber == s.taken), s)
      if more.1 then go fuel (← fetchNext more.2) else pure more.2
  go (4 * s.left + 16) s

/-- A scanner over a text; a leading byte-order mark is dropped. Characters that may not appear
in YAML are refused before anything is read. -/
def create (text : String) : Scan :=
  let cs := text.toList
  let (cs, offset) := match cs with
    | c :: rest => if c == '\uFEFF' then (rest, 3) else (cs, 0)
    | [] => (cs, 0)
  let rec check (cs : List Char) (offset : Nat) : Option (Nat × Char) :=
    match cs with
    | [] => none
    | c :: rest => if isPrintable c then check rest (offset + c.utf8Size) else some (offset, c)
  match check cs offset with
  | some (off, _) => .error { kind := .reader, problem := "control characters are not allowed", offset := off }
  | none => .ok { src := cs.toArray }

end Scanner

end TierCache.Yaml

import TierCache.Config.Schema
import TierCache.Yaml.Document
import TierCache.Yaml.Resolve

/-!
# Reading settings from YAML

The settings schema read from the events of a YAML document. Numbers and booleans must be
plain scalars that read as such; anything else is reported by what it reads as (a string, a
float, a unit value for null, a sequence, a map). Reports name the path of the value, as
`memory.capacity` or `distributed.endpoints[1]`, and where it starts. An alias reads as the
node its anchor names. Sections and lists may be left empty.
-/

namespace TierCache

namespace YamlSettings

open Yaml

/-- Where a value sits in the document. -/
inductive Path where
  | root
  | key (parent : Path) (k : String)
  | index (parent : Path) (i : Nat)
  | alias (parent : Path)
  | unknown (parent : Path)
  deriving Inhabited

/-- A path as reports give it: keys joined by dots, indices in brackets, `.` for the root. -/
def Path.render : Path → String
  | .root => "."
  | .key .root k => k
  | .key p k => p.render ++ "." ++ k
  | .index p i => p.render ++ "[" ++ toString i ++ "]"
  | .alias p => p.render
  | .unknown .root => "?"
  | .unknown p => p.render ++ ".?"

/-- Why settings could not be read. -/
inductive Fault where
  /-- A value of the wrong shape, with where it was once known. -/
  | mismatch (m : Mismatch) (place : Option (Mark × Path))
  | endOfStream
  | moreThanOneDocument
  | repetitionLimit
  | unknownAnchor (m : Mark)
  | malformed (e : YamlError)
  deriving Inhabited

/-- The text of a fault. -/
def Fault.message : Fault → String
  | .mismatch m none => m.message
  | .mismatch m (some (mark, path)) =>
    let p := path.render
    (if p == "." then "" else p ++ ": ") ++ m.message ++
      (if mark.isOrigin then "" else " at " ++ mark.render)
  | .endOfStream => "EOF while parsing a value"
  | .moreThanOneDocument => "deserializing from YAML containing more than one document is not supported"
  | .repetitionLimit => "repetition limit exceeded"
  | .unknownAnchor m => "unknown anchor" ++ (if m.isOrigin then "" else " at " ++ m.render)
  | .malformed e => e.message

/-- The diagnostic form of a fault. A failure of the reader, scanner or parser shows its parts;
any other fault shows its message, led by the path of the value when it is not the root, and the
line and column where it was found whenever it has a position, the very start included. -/
def Fault.debug (f : Fault) : String :=
  let plain := fun (msg : String) (mark : Option Mark) =>
    "Error(" ++ Quote.quote msg ++
      (match mark with
       | some m => ", line: " ++ toString (m.line + 1) ++ ", column: " ++ toString (m.column + 1)
       | none => "") ++ ")"
  match f with
  | .malformed e => e.debug
  | .mismatch m none => plain m.message none
  | .mismatch m (some (mark, path)) =>
    let p := path.render
    plain ((if p == "." then "" else p ++ ": ") ++ m.message) (some mark)
  | .unknownAnchor m => plain "unknown anchor" (some m)
  | other => plain other.message none

/-- Gives a mismatch that has no place yet the place of the value being read. -/
def Fault.place (f : Fault) (mark : Mark) (path : Path) : Fault :=
  match f with
  | .mismatch m none => .mismatch m (some (mark, path))
  | f => f

/-- Places a reader's fault at a value. A read gives the value, the position after it, and the
aliases followed so far. -/
def placed {α : Type} (r : Except Fault (α × Nat × Nat)) (mark : Mark) (path : Path) : Except Fault (α × Nat × Nat) :=
  match r with
  | .error f => .error (f.place mark path)
  | ok => ok

/-- The node at a position; past the end, the reason the document ended. -/
def nodeAt (d : Document) (pos : Nat) : Except Fault (Node × Mark) :=
  match d.nodes[pos]? with
  | some n => .ok n
  | none => .error (match d.fault with
    | some (.malformed e) => .malformed e
    | some (.unknownAnchor m) => .unknownAnchor m
    | none => .endOfStream)

/-- Follows one more alias; a document may not make readers follow more than a hundred per
node. -/
def follow (d : Document) (jumps : Nat) : Except Fault Nat :=
  if jumps + 1 > d.nodes.size * 100 then .error .repetitionLimit else .ok (jumps + 1)

/-- What an untagged plain scalar reads as, for reports. -/
def plainFound (text : String) : Found :=
  if text.isEmpty || isNull text then .unit else
  match parseBool text with
  | some b => .bool b
  | none =>
  match parseUnsigned text u64Max with
  | some n => .unsigned n.toNat
  | none =>
  match parseNegative text i64Min i64Max with
  | some n => .signed n
  | none =>
  match parseUnsigned text u128Max with
  | some n => .other s!"integer `{n}` as u128"
  | none =>
  match parseNegative text i128Min i128Max with
  | some n => .other s!"integer `{n}` as i128"
  | none =>
  match (if digitsButNotNumber text then none else parseF64 text) with
  | some f => .float f
  | none => .str text

/-- The report for a node that is not what was `expected`. A scalar is described by what it
reads as; a tag that fixes its type may turn the report into one about the tag. -/
def wrongNode (n : Node) (expected : String) : Fault :=
  match n with
  | .scalar tag text style =>
    let untagged := fun (_ : Unit) =>
      Fault.mismatch (.invalidType (if style == .plain then plainFound text else .str text) expected) none
    match tag with
    | none => untagged ()
    | some t =>
      if t == "tag:yaml.org,2002:bool" then
        match parseBool text with
        | some b => .mismatch (.invalidType (.bool b) expected) none
        | none => .mismatch (.invalidValue (.str text) "a boolean") none
      else if t == "tag:yaml.org,2002:int" then
        match plainFound text with
        | .unsigned n => .mismatch (.invalidType (.unsigned n) expected) none
        | .signed n => .mismatch (.invalidType (.signed n) expected) none
        | .other d => if d.startsWith "integer" then .mismatch (.invalidType (.other d) expected) none
          else .mismatch (.invalidValue (.str text) "an integer") none
        | _ => .mismatch (.invalidValue (.str text) "an integer") none
      else if t == "tag:yaml.org,2002:float" then
        match parseF64 text with
        | some f => .mismatch (.invalidType (.float f) expected) none
        | none => .mismatch (.invalidValue (.str text) "a float") none
      else if t == "tag:yaml.org,2002:null" then
        if isNull text then .mismatch (.invalidType .unit expected) none
        else .mismatch (.invalidValue (.str text) "null") none
      else if t.startsWith "!" && style == .plain then untagged ()
      else .mismatch (.invalidType (.str text) expected) none
  | .seqStart => .mismatch (.invalidType .seq expected) none
  | .mapStart => .mismatch (.invalidType .map expected) none
  | _ => .endOfStream

/-- Passes over one node and everything nested in it. -/
def skipNode (d : Document) (pos : Nat) : Except Fault Nat :=
  let rec go (fuel : Nat) (pos depth : Nat) : Except Fault Nat := do
    match fuel with
    | 0 => pure pos
    | fuel + 1 =>
      let (n, _) ← nodeAt d pos
      let depth := match n with
        | .seqStart | .mapStart => depth + 1
        | .seqEnd | .mapEnd => depth - 1
        | _ => depth
      if depth == 0 then pure (pos + 1) else go fuel (pos + 1) depth
  go (d.nodes.size + 1) pos 0

/-- A scalar read as a string; any scalar is one. -/
def readString (d : Document) (fuel : Nat) (path : Path) (pos jumps : Nat) : Except Fault (String × Nat × Nat) := do
  match fuel with
  | 0 => throw .endOfStream
  | fuel + 1 =>
    let (n, mark) ← nodeAt d pos
    match n with
    | .alias target =>
      let jumps ← follow d jumps
      let (s, _, jumps) ← readString d fuel path.alias target jumps
      pure (s, pos + 1, jumps)
    | .scalar _ text _ => pure (text, pos + 1, jumps)
    | other => placed (.error (wrongNode other "a string")) mark path

/-- A single setting. -/
def readSetting (d : Document) (fuel : Nat) (kind : SettingKind) (path : Path) (pos jumps : Nat) :
    Except Fault (Json × Nat × Nat) := do
  match fuel with
  | 0 => throw .endOfStream
  | fuel + 1 =>
    let (n, mark) ← nodeAt d pos
    match n with
    | .alias target =>
      let jumps ← follow d jumps
      let (v, _, jumps) ← readSetting d fuel kind path.alias target jumps
      return (v, pos + 1, jumps)
    | _ => pure ()
    let here := fun {α : Type} (r : Except Fault α) => placed (r.map fun v => (v, pos + 1, jumps)) mark path
    let plain := match n with
      | .scalar _ text .plain => some text
      | _ => none
    match kind with
    | .unsigned name max =>
      here (match plain.bind fun t => parseUnsigned t u64Max with
        | some v => if v ≤ max then .ok (Json.ofNat v.toNat)
          else .error (.mismatch (.invalidValue (.unsigned v.toNat) name) none)
        | none => .error (wrongNode n name))
    | .signed name lo hi =>
      here (match plain.bind fun t => parseSigned t i64Min i64Max with
        | some v => if lo ≤ v && v ≤ hi then .ok (Json.ofInt v)
          else .error (.mismatch (.invalidValue (.signed v) name) none)
        | none => .error (wrongNode n name))
    | .bool =>
      here (match plain.bind parseBool with
        | some b => .ok (.bool b)
        | none => .error (wrongNode n "a boolean"))
    | .string =>
      let (s, pos, jumps) ← readString d fuel path pos jumps
      pure (.str s, pos, jumps)
    | .optString =>
      let some_ := match n with
        | .scalar tag text style =>
          if style != ScalarStyle.plain then Except.ok true
          else (match tag with
            | some t =>
              if t == "tag:yaml.org,2002:null" then
                if isNull text then .ok false else .error (Fault.mismatch (.invalidValue (.str text) "null") none)
              else .ok true
            | none => .ok (!text.isEmpty && !isNull text))
        | .void => .ok false
        | _ => .ok true
      match some_ with
      | .error f => throw f
      | .ok false => pure (.null, pos + 1, jumps)
      | .ok true =>
        let (s, pos, jumps) ← readString d fuel path pos jumps
        pure (.str s, pos, jumps)
    | .strings =>
      match n with
      | .seqStart =>
        let rec items (fuel : Nat) (i : Nat) (acc : Array Json) (pos jumps : Nat) : Except Fault (Json × Nat × Nat) := do
          match fuel with
          | 0 => throw .endOfStream
          | fuel + 1 =>
            let (m, _) ← nodeAt d pos
            match m with
            | .seqEnd | .void => pure (.arr acc.toList, pos + 1, jumps)
            | _ =>
              let (s, pos, jumps) ← readString d (d.nodes.size + 1) (path.index i) pos jumps
              items fuel (i + 1) (acc.push (.str s)) pos jumps
        placed (items (d.nodes.size + 1) 0 #[] (pos + 1) jumps) mark path
      | .scalar _ "" .plain | .void => here (.ok (.arr []))
      | _ => here (.error (wrongNode n "a sequence"))

/-- The key of a mapping entry: its name when it is a scalar (or an alias of one), and whether
it was written as a scalar. -/
def readKey (d : Document) (path : Path) (pos jumps : Nat) : Except Fault ((String × Bool) × Nat × Nat) := do
  let (n, mark) ← nodeAt d pos
  match n with
  | .scalar _ text _ => pure ((text, true), pos + 1, jumps)
  | .alias _ =>
    let (s, pos, jumps) ← readString d 2 path pos jumps
    pure ((s, false), pos, jumps)
  | other => placed (.error (wrongNode other "field identifier")) mark path

/-- A record read from a mapping, member by member in document order; unknown members are
passed over, a repeated known member is refused. An empty scalar is an empty record. -/
def readRecord {α : Type} (d : Document) (keyOf : α → String)
    (one : α → Path → Nat → Nat → CacheConfig → Except Fault (CacheConfig × Nat × Nat)) (name : String) (entries : List α)
    (fuel : Nat) (path : Path) (c : CacheConfig) (pos jumps : Nat) : Except Fault (CacheConfig × Nat × Nat) := do
  match fuel with
  | 0 => throw .endOfStream
  | fuel + 1 =>
    let (n, mark) ← nodeAt d pos
    match n with
    | .alias target =>
      let jumps ← follow d jumps
      let (c, _, jumps) ← readRecord d keyOf one name entries fuel path.alias c target jumps
      pure (c, pos + 1, jumps)
    | .mapStart =>
      let rec members (fuel : Nat) (seen : List String) (c : CacheConfig) (pos jumps : Nat) :
          Except Fault (CacheConfig × Nat × Nat) := do
        match fuel with
        | 0 => throw .endOfStream
        | fuel + 1 =>
          let (m, _) ← nodeAt d pos
          match m with
          | .mapEnd | .void => pure (c, pos + 1, jumps)
          | _ =>
            let ((k, plainKey), pos, jumps) ← readKey d path pos jumps
            let valuePath := if plainKey then path.key k else path.unknown
            match entries.find? (keyOf · == k) with
            | some e =>
              if seen.contains k then throw (.mismatch (.duplicateField k) none)
              let (c, pos, jumps) ← one e valuePath pos jumps c
              members fuel (k :: seen) c pos jumps
            | none =>
              let pos ← skipNode d pos
              members fuel seen c pos jumps
      placed (members (d.nodes.size + 1) [] c (pos + 1) jumps) mark path
    | .scalar _ "" .plain | .void => pure (c, pos + 1, jumps)
    | other => placed (.error (wrongNode other ("struct " ++ name))) mark path

/-- One setting of a section. -/
def sectionSetting (d : Document) (s : SettingSpec) (path : Path) (pos jumps : Nat) (c : CacheConfig) :
    Except Fault (CacheConfig × Nat × Nat) := do
  let (v, pos, jumps) ← readSetting d (d.nodes.size + 2) s.kind path pos jumps
  pure (s.put c v, pos, jumps)

/-- One member of the whole document. -/
def topMember (d : Document) (t : TopSpec) (path : Path) (pos jumps : Nat) (c : CacheConfig) :
    Except Fault (CacheConfig × Nat × Nat) :=
  match t with
  | .setting s => sectionSetting d s path pos jumps c
  | .section s => readRecord d (·.key) (sectionSetting d) s.name s.fields (d.nodes.size + 2) path c pos jumps

end YamlSettings

/-- Settings read from YAML text; members left out keep their defaults. Only one document may
be in the text, and the whole of it must be well formed. -/
def CacheConfig.ofYaml (text : String) : Except YamlSettings.Fault CacheConfig := do
  let d := Yaml.Document.load text
  let (c, _, _) ← YamlSettings.readRecord d TopSpec.key (YamlSettings.topMember d) ConfigSchema.name
    ConfigSchema.top (d.nodes.size + 2) .root {} 0 0
  match d.fault with
  | some (.malformed e) => throw (.malformed e)
  | some (.unknownAnchor m) => throw (.unknownAnchor m)
  | none => if d.hasMore then throw .moreThanOneDocument else pure c

end TierCache

import TierCache.Yaml.Parser

/-!
# YAML documents

The events of the first document of a stream, with every alias resolved to the position of
the node its anchor names. Reading stops at the document's end, at the first failure, or at an
alias of an unknown anchor; what was read up to there is kept, so that a reader of the document
meets the failure only when it needs what lies beyond it.
-/

namespace TierCache.Yaml

/-- A node event of a loaded document. -/
inductive Node where
  /-- An alias, as the position of the node its anchor names. -/
  | alias (target : Nat)
  | scalar (tag : Option String) (text : String) (style : ScalarStyle)
  | seqStart
  | seqEnd
  | mapStart
  | mapEnd
  /-- The content of an empty stream. -/
  | void
  deriving Repr, Inhabited

/-- Why a document ends early. -/
inductive LoadFault where
  | malformed (e : YamlError)
  | unknownAnchor (m : Mark)
  deriving Inhabited

/-- The first document of a stream. -/
structure Document where
  nodes : Array (Node × Mark)
  fault : Option LoadFault := none
  /-- The parser after the document, when the stream goes on. -/
  rest : Option Parser := none
  deriving Inhabited

namespace Document

/-- Records an anchor at the position of the node about to be added. -/
def anchorAt (anchors : List (String × Nat)) (anchor : Option String) (pos : Nat) : List (String × Nat) :=
  match anchor with
  | some a => (a, pos) :: anchors
  | none => anchors

/-- Reads the events of the first document of a stream. -/
def load (text : String) : Document :=
  match Scanner.create text with
  | .error e => { nodes := #[], fault := some (.malformed e) }
  | .ok scan =>
    let rec go (fuel : Nat) (p : Parser) (nodes : Array (Node × Mark)) (anchors : List (String × Nat)) :
        Document :=
      match fuel with
      | 0 => { nodes, fault := some (.malformed { kind := .parser, problem := "document too long" }) }
      | fuel + 1 =>
        match p.next with
        | .error e => { nodes, fault := some (.malformed e) }
        | .ok (ev, p) =>
          let m := ev.start
          match ev.kind with
          | .streamStart | .documentStart => go fuel p nodes anchors
          | .streamEnd => { nodes := if nodes.isEmpty then nodes.push (.void, m) else nodes }
          | .documentEnd => { nodes, rest := some p }
          | .alias name =>
            match anchors.lookup name with
            | some target => go fuel p (nodes.push (.alias target, m)) anchors
            | none => { nodes, fault := some (.unknownAnchor m) }
          | .scalar anchor tag text style =>
            go fuel p (nodes.push (.scalar tag text style, m)) (anchorAt anchors anchor nodes.size)
          | .sequenceStart anchor _ =>
            go fuel p (nodes.push (.seqStart, m)) (anchorAt anchors anchor nodes.size)
          | .sequenceEnd => go fuel p (nodes.push (.seqEnd, m)) anchors
          | .mappingStart anchor _ =>
            go fuel p (nodes.push (.mapStart, m)) (anchorAt anchors anchor nodes.size)
          | .mappingEnd => go fuel p (nodes.push (.mapEnd, m)) anchors
    go (8 * scan.src.size + 64) { scan } #[] []

/-- Whether the stream holds more than the first document: anything but its end, a failure
included, follows the first document's end. -/
def hasMore (d : Document) : Bool :=
  match d.rest with
  | none => false
  | some p =>
    match p.next with
    | .ok (ev, _) => match ev.kind with
      | .streamEnd => false
      | _ => true
    | .error _ => true

end Document

end TierCache.Yaml

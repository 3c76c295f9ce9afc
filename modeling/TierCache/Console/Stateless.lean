import TierCache.Console.Fields
import TierCache.Glob
import TierCache.Json.Shape
import TierCache.Store.WriteStrategy
import TierCache.Frame.Lz4Compress

/-!
# Console requests that keep no state

Key patterns, write strategies, value frames, and reading JSON bytes as one of the value shapes
the cache hands out.
-/

namespace TierCache

namespace Console

/-- The shape a name selects. -/
def shapeNamed : String → Option Shape
  | "value" => some .value
  | "u64" => some .u64
  | "i64" => some .i64
  | "u8" => some .u8
  | "f64" => some .f64
  | "string" => some .string
  | "bool" => some .bool
  | "strings" => some .strings
  | "record" => some .record
  | "datetime" => some .datetime
  | _ => none

/-- Compression settings from a request's `compression` member; each missing field takes its
default. -/
def compressionOf (req : Json) : Compression :=
  match req.get? "compression" with
  | some c =>
    { enabled := (bool? c "enabled").getD true, thresholdBytes := (nat? c "threshold_bytes").getD 1024,
      level := (int? c "level").getD 4 }
  | none => {}

/-- Whether a glob matches a text, and whether the pattern is a glob at all. -/
def globRequest (req : Json) : Json :=
  let p := (str? req "pattern").getD ""
  let t := (str? req "text").getD ""
  ok (Json.ofMembers [("is_glob", .bool (Glob.isPattern p)), ("match", .bool (globMatch p t))])

/-- A write strategy read from its name. -/
def strategyRequest (req : Json) : Json :=
  match WriteStrategy.parse ((str? req "s").getD "") with
  | .ok s => ok (Json.ofMembers [("display", .str s.name), ("name", .str s.name), ("serde", .str s.name)])
  | .error e => failWith e

/-- JSON bytes read as a shape and written again. -/
def deserializeRequest (req : Json) : Json :=
  match (str? req "as").bind shapeNamed, bytes? req "data" with
  | some sh, some data =>
    match sh.read data with
    | .ok v => ok v
    | .error e => failWith (.serialization e.message)
  | _, _ => badInput "deserialize needs as and data"

/-- Bytes framed, with a check that the frame gives them back. -/
def encodeRequest (req : Json) : Json :=
  match bytes? req "data" with
  | some data =>
    let (kind, frame) := Frame.encode .lz4 (compressionOf req) data
    let back := match Frame.decode .lz4 frame with
      | .ok d => d.toList == data.toList
      | .error _ => false
    ok (Json.ofMembers [("frame_hex", .str (hex frame)), ("frame_len", Json.ofNat frame.size),
      ("kind", .str kind.name), ("roundtrip", .bool back)])
  | none => badInput "codec_encode needs data"

/-- The bytes inside a frame. -/
def decodeRequest (req : Json) : Json :=
  match bytes? req "frame" with
  | some frame =>
    match Frame.decode .lz4 frame with
    | .ok d => ok (Json.ofMembers [("data_hex", .str (hex d)), ("len", Json.ofNat d.size)])
    | .error e => failWith e
  | none => badInput "codec_decode needs frame"

/-- A value serialized, framed, unframed and read back. -/
def valueRequest (req : Json) : Json :=
  let v := (req.field? "value").getD .null
  let serialized := v.render
  let (kind, frame) := Frame.encode .lz4 (compressionOf req) serialized.toUTF8
  match Frame.decode .lz4 frame with
  | .ok d =>
    match Json.parse d with
    | .ok back => ok (Json.ofMembers [("decoded", back), ("frame_len", Json.ofNat frame.size),
        ("kind", .str kind.name), ("serialized", .str serialized)])
    | .error e => failWith (.serialization e.message)
  | .error e => failWith e

end Console

end TierCache

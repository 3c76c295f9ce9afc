import TierCache.Error

/-!
# Value frames

A value bound for the distributed tier is framed with one header byte: `00` before the bytes as
they are, `01` before an LZ4 block that carries the original size as a four-byte little-endian
prefix. Compression is tried only when it is enabled and the value is longer than the threshold,
and it is kept only when the block is strictly shorter than the value. The LZ4 block functions
come from the LZ4 library and are a parameter here (`BlockCodec`).
-/

namespace TierCache

/-- The compression settings of the distributed tier. -/
structure Compression where
  enabled : Bool := true
  thresholdBytes : Nat := 1024
  level : Int := 4
  deriving Repr, Inhabited

/-- How a frame's body is stored. -/
inductive FrameKind where
  | raw
  | lz4
  deriving Repr, DecidableEq, Inhabited

namespace FrameKind

/-- The header byte of a frame of this kind. -/
def header : FrameKind → UInt8
  | raw => 0
  | lz4 => 1

/-- The kind's name in reports. -/
def name : FrameKind → String
  | raw => "raw"
  | lz4 => "lz4"

end FrameKind

/-- The LZ4 library's block functions that frames use: the high-compression compressor at a level,
and the block reader, given the size the block announces, which refuses an invalid block. -/
structure BlockCodec where
  compressHc : ByteArray → Int → ByteArray
  decodeBlock : ByteArray → Nat → Option ByteArray

namespace Frame

variable (lz : BlockCodec)

/-- The largest size an LZ4 block may announce. -/
def maxInput : Nat := 0x7E000000

/-- `n` as four little-endian bytes. -/
def le32 (n : Nat) : ByteArray :=
  ⟨#[(n % 256).toUInt8, (n / 256 % 256).toUInt8, (n / 65536 % 256).toUInt8,
    (n / 16777216 % 256).toUInt8]⟩

/-- The size-prefixed LZ4 block of `data` at a compression level. -/
def compressBlock (data : ByteArray) (level : Int) : ByteArray :=
  le32 data.size ++ lz.compressHc data level

/-- The size-prefixed LZ4 block of `data`, as the block compressor gives it: it refuses data longer
than a block may announce. -/
def compress (data : ByteArray) (level : Int) : Except CacheError ByteArray :=
  if data.size > maxInput then .error (.compressionFailed "LZ4" "Compression input too long.")
  else .ok (compressBlock lz data level)

/-- Frames serialized bytes, compressing them when that is enabled, worth trying, possible and
shorter. -/
def encode (cfg : Compression) (data : ByteArray) : FrameKind × ByteArray :=
  let packed := if cfg.enabled && data.size > cfg.thresholdBytes then
      match compress lz data cfg.level with
      | .ok block => if block.size < data.size then some block else none
      | .error _ => none
    else none
  match packed with
  | some block => (.lz4, ByteArray.mk #[FrameKind.lz4.header] ++ block)
  | none => (.raw, ByteArray.mk #[FrameKind.raw.header] ++ data)

/-- A decompression failure, as the LZ4 block reader reports it. -/
def lz4Failure (reason : String) : CacheError := .decompressionFailed "LZ4" reason

/-- The bytes of a size-prefixed LZ4 block. The prefix is a signed 32-bit size; the output is
what the block actually yields, which may be shorter than the size announced. -/
def decompressBlock (body : ByteArray) : Except CacheError ByteArray :=
  if body.size < 4 then .error (lz4Failure "Source buffer must at least contain size prefix.")
  else
    let b := fun i => (body.get! i).toNat
    let raw := b 0 + 256 * b 1 + 65536 * b 2 + 16777216 * b 3
    if raw ≥ Nat.pow 2 31 then .error (lz4Failure "Parsed size prefix in buffer must not be negative.")
    else if raw > maxInput then .error (lz4Failure "Given size parameter is too big")
    else
      match lz.decodeBlock (body.extract 4 body.size) raw with
      | some out => .ok out
      | none => .error (lz4Failure "Decompression failed. Input invalid or too long?")

/-- Two lowercase hex digits of a byte. -/
def hex2 (b : UInt8) : String :=
  let digit := fun (d : Nat) => if d < 10 then Char.ofNat (48 + d) else Char.ofNat (87 + d)
  String.ofList [digit (b.toNat / 16), digit (b.toNat % 16)]

/-- The serialized bytes inside a frame. -/
def decode (frame : ByteArray) : Except CacheError ByteArray :=
  if h : 0 < frame.size then
    let body := frame.extract 1 frame.size
    match frame[0] with
    | 0 => .ok body
    | 1 => decompressBlock lz body
    | other => .error (.invalidFrame ("unknown header 0x" ++ hex2 other))
  else .error (.invalidFrame "empty frame")

end Frame

end TierCache

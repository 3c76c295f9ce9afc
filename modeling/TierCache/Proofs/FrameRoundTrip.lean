import TierCache.Frame.Lz4Compress

/-!
# Frames read back

A frame is a header byte before the raw value or an LZ4 block of it (`Frame.Packs`).

Main statement: `frame_codec_laws`.
-/

namespace TierCache.Frame

/-- The header byte as a one-byte array. -/
def header (h : UInt8) : ByteArray := ByteArray.mk #[h]

section Framed

variable (h : UInt8) (body : ByteArray)

@[simp] theorem size_header : (header h).size = 1 := rfl

theorem size_header_append : (header h ++ body).size = body.size + 1 := by
  rw [ByteArray.size_append, size_header, Nat.add_comm]

theorem getElem_header_append (hs : 0 < (header h ++ body).size) : (header h ++ body)[0] = h := by
  rw [ByteArray.getElem_append_left (Nat.zero_lt_one : 0 < 1)]
  rfl

theorem extract_header_append : (header h ++ body).extract 1 (header h ++ body).size = body :=
  ByteArray.extract_append_eq_right rfl ByteArray.size_append

end Framed

/-! ## Decoding -/

variable (lz : BlockCodec)

theorem size_header_append_pos (h : UInt8) (body : ByteArray) : 0 < (header h ++ body).size := by
  rw [size_header_append]
  exact Nat.succ_pos _

theorem decode_raw (body : ByteArray) : decode lz (header 0 ++ body) = .ok body := by
  rw [decode, dif_pos (size_header_append_pos 0 body), getElem_header_append, extract_header_append]
  rfl

theorem decode_lz4 (body : ByteArray) : decode lz (header 1 ++ body) = decompressBlock lz body := by
  rw [decode, dif_pos (size_header_append_pos 1 body), getElem_header_append, extract_header_append]
  rfl

-- The block reader fails only as a decompression failure, never as an invalid frame.
theorem decompressBlock_ne_invalidFrame (body : ByteArray) (msg : String) :
    decompressBlock lz body ≠ .error (.invalidFrame msg) := by
  simp only [decompressBlock, lz4Failure]
  split
  · simp
  · split
    · simp
    · split
      · simp
      · split <;> simp

/-- A frame is invalid exactly when it is empty or its header is neither `00` nor `01`. -/
theorem decode_invalidFrame_iff (f : ByteArray) :
    (∃ msg, decode lz f = .error (.invalidFrame msg)) ↔
      f.size = 0 ∨ ∃ hs : 0 < f.size, f[0] ≠ 0 ∧ f[0] ≠ 1 := by
  unfold decode
  by_cases hs : 0 < f.size
  · rw [dif_pos hs]
    have hne : f.size ≠ 0 := Nat.pos_iff_ne_zero.1 hs
    -- the header byte decides; only an unknown one is an invalid frame
    split
    · next h0 => simp [hne, h0]
    · next h1 => simpa [hne, h1] using decompressBlock_ne_invalidFrame lz _
    · next other h0 h1 => simpa [hne, hs] using And.intro h0 h1
  · rw [dif_neg hs]
    simp only [Nat.not_lt, Nat.le_zero] at hs
    simp [hs]

/-- A frame with the raw header gives back its body unchanged. -/
theorem decode_of_raw_header (f : ByteArray) (hs : 0 < f.size) (h0 : f[0] = 0) :
    decode lz f = .ok (f.extract 1 f.size) := by
  rw [decode, dif_pos hs]
  split
  · rfl
  · next h1 => exact absurd (h0.symm.trans h1) (by decide)
  · next other hne _ => exact absurd h0 hne

/-! ## Encoding -/

/-- The LZ4 block a frame of `data` keeps: compression is on, the value is longer than the
threshold, the compressor takes it, and the block is strictly shorter than the value. -/
def Packs (cfg : Compression) (data block : ByteArray) : Prop :=
  cfg.enabled = true ∧ cfg.thresholdBytes < data.size ∧ compress lz data cfg.level = .ok block ∧
    block.size < data.size

variable {lz} {cfg : Compression} {data block : ByteArray}

theorem encode_of_packs (h : Packs lz cfg data block) : encode lz cfg data = (.lz4, header 1 ++ block) := by
  obtain ⟨hon, hover, hblock, hshort⟩ := h
  simp [encode, hon, hover, hblock, hshort, header, FrameKind.header]

theorem encode_of_not_packs (h : ∀ block, ¬ Packs lz cfg data block) :
    encode lz cfg data = (.raw, header 0 ++ data) := by
  -- whichever check fails, no block is kept
  by_cases hgate : cfg.enabled = true ∧ cfg.thresholdBytes < data.size
  · obtain ⟨hon, hover⟩ := hgate
    cases hc : compress lz data cfg.level with
    | error e => simp [encode, hon, hover, hc, header, FrameKind.header]
    | ok block =>
      have hlong : ¬ block.size < data.size := fun hs => h block ⟨hon, hover, hc, hs⟩
      simp [encode, hon, hover, hc, hlong, header, FrameKind.header]
  · have hoff : (cfg.enabled && decide (data.size > cfg.thresholdBytes)) = false := by
      simpa using hgate
    simp [encode, hoff, header, FrameKind.header]

/-- A value's frame is its kept LZ4 block under the `01` header, or, when no block is kept, the
value itself under the `00` header. -/
theorem encode_cases (cfg : Compression) (data : ByteArray) :
    (∃ block, Packs lz cfg data block ∧ encode lz cfg data = (.lz4, header 1 ++ block)) ∨
      ((∀ block, ¬ Packs lz cfg data block) ∧ encode lz cfg data = (.raw, header 0 ++ data)) := by
  by_cases h : ∃ block, Packs lz cfg data block
  · obtain ⟨block, hb⟩ := h
    exact .inl ⟨block, hb, encode_of_packs hb⟩
  · simp only [not_exists] at h
    exact .inr ⟨h, encode_of_not_packs h⟩

/-- Every frame decodes to its value, when the block compressor's output for the value
decompresses to it. -/
theorem decode_encode
    (hlz : ∀ block, compress lz data cfg.level = .ok block → decompressBlock lz block = .ok data) :
    decode lz (encode lz cfg data).2 = .ok data := by
  rcases encode_cases cfg data with ⟨block, hb, he⟩ | ⟨-, he⟩
  · rw [he, decode_lz4]
    exact hlz block hb.2.2.1
  · rw [he, decode_raw]

theorem size_encode_le (cfg : Compression) (data : ByteArray) :
    (encode lz cfg data).2.size ≤ data.size + 1 := by
  rcases encode_cases cfg data with ⟨block, hb, he⟩ | ⟨-, he⟩
  · rw [he, size_header_append]
    exact Nat.succ_le_succ (Nat.le_of_lt hb.2.2.2)
  · rw [he]
    exact Nat.le_of_eq (size_header_append 0 data)

theorem size_encode_le_of_lz4 (h : (encode lz cfg data).1 = .lz4) :
    (encode lz cfg data).2.size ≤ data.size := by
  rcases encode_cases cfg data with ⟨block, hb, he⟩ | ⟨-, he⟩
  · rw [he, size_header_append]
    exact hb.2.2.2
  · rw [he] at h
    cases h

/-- The frame codec over every block codec, setting, value and frame. Given that the block
compressor's output for the value decompresses to the value (the block format's promise), decoding
the value's frame gives the value back. The frame is the kept LZ4 block under `01` exactly when a
block is kept, and the value under `00` otherwise, so it is at most one byte longer than the
value, and no longer for an LZ4 frame. A frame is invalid exactly when it is empty or its header
is neither `00` nor `01`, and a raw frame decodes to its body unchanged. -/
theorem frame_codec_laws (lz : BlockCodec) (cfg : Compression) (d f : ByteArray)
    (hlz : ∀ block, compress lz d cfg.level = .ok block → decompressBlock lz block = .ok d) :
    decode lz (encode lz cfg d).2 = .ok d ∧
      ((∃ block, Packs lz cfg d block ∧ encode lz cfg d = (.lz4, header 1 ++ block)) ∨
        ((∀ block, ¬ Packs lz cfg d block) ∧ encode lz cfg d = (.raw, header 0 ++ d))) ∧
      (encode lz cfg d).2.size ≤ d.size + 1 ∧
      ((encode lz cfg d).1 = .lz4 → (encode lz cfg d).2.size ≤ d.size) ∧
      ((∃ msg, decode lz f = .error (.invalidFrame msg)) ↔
        f.size = 0 ∨ ∃ hs : 0 < f.size, f[0] ≠ 0 ∧ f[0] ≠ 1) ∧
      (∀ hs : 0 < f.size, f[0] = 0 → decode lz f = .ok (f.extract 1 f.size)) :=
  ⟨decode_encode hlz, encode_cases cfg d, size_encode_le cfg d, size_encode_le_of_lz4,
    decode_invalidFrame_iff lz f, decode_of_raw_header lz f⟩

/-- Twenty equal bytes over a threshold of eight, with the LZ4 library: the block is kept, and
the frame reads back through it. -/
theorem compressible_value_frame_reads_back :
    (∀ block, compress .lz4 (ByteArray.mk (Array.replicate 20 97)) 4 = .ok block →
        decompressBlock .lz4 block = .ok (ByteArray.mk (Array.replicate 20 97))) ∧
      (encode .lz4 ⟨true, 8, 4⟩ (ByteArray.mk (Array.replicate 20 97))).1 = .lz4 ∧
      decode .lz4 (encode .lz4 ⟨true, 8, 4⟩ (ByteArray.mk (Array.replicate 20 97))).2 =
        .ok (ByteArray.mk (Array.replicate 20 97)) := by
  have hlz : ∀ block, compress .lz4 (ByteArray.mk (Array.replicate 20 97)) 4 = .ok block →
      decompressBlock .lz4 block = .ok (ByteArray.mk (Array.replicate 20 97)) := by
    intro block hb
    rw [compress, if_neg (by decide)] at hb
    cases hb
    -- the block is read back by the kernel; errors have no decidable equality, so through `toOption`
    have hread : (decompressBlock .lz4 (compressBlock .lz4 (ByteArray.mk (Array.replicate 20 97)) 4)).toOption =
        some (ByteArray.mk (Array.replicate 20 97)) := by
      decide +kernel
    generalize decompressBlock .lz4 _ = r at hread ⊢
    cases r <;> simp_all [Except.toOption]
  exact ⟨hlz, by decide +kernel, (frame_codec_laws .lz4 ⟨true, 8, 4⟩ _ ByteArray.empty hlz).1⟩

end TierCache.Frame

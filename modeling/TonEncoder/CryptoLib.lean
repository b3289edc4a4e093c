import TonEncoder.Boc
import TonEncoder.Codec.Chunks
import TonEncoder.Td

/-! # The TON crypto library

The library behind the headers, as a parameter: `TonCryptoLib` has the functions
that the programs call. What the programs rely on is stated here, one contract
for each library:

* bags of cells: `BocRoundTrip`, `BocRejectsEmpty`, `BocRecodes`, `BocLayout` and
  its consequence `BocSize`;
* LZ4: `Lz4RoundTrip`, `Lz4Sound`, `Lz4Trailing`, `Lz4Expansion` and
  `Chunks.StreamCode`;
* gzip: `GzipUndo` and `GzipBound`. Which streams `gzencode` refuses is not said: the
  programs see an empty result, and so do the statements about them;
* base64: `Base64Contract` and `Base64ResultContract`, one for each header.

The law of the buffer builder comes with the builder (`BufferBuilders`).
-/

namespace TonEncoder

open Process

/-- The functions of the library. `Cell` is the type of root cells. -/
structure TonCryptoLib (Cell : Type) where
  /-- `td::BufferBuilder` -/
  builders : BufferBuilders
  /-- `vm::std_boc_deserialize` -/
  stdBocDeserialize : Bytes → Result Cell
  /-- `vm::std_boc_serialize` -/
  stdBocSerialize : Cell → Nat → Result Bytes
  /-- `td::lz4_compress` -/
  lz4Compress : Bytes → Bytes
  /-- `td::lz4_decompress` -/
  lz4Decompress : Bytes → Nat → Result Bytes
  /-- `td::gzencode` -/
  gzencode : Bytes → ℚ → Bytes
  /-- `td::gzdecode` -/
  gzdecode : Bytes → Bytes
  /-- `td::str_base64_encode` of `common/util.h` -/
  strBase64Encode : Bytes → Bytes
  /-- `td::base64_decode` of `common/util.h`: empty on malformed input -/
  base64Decode : Bytes → Bytes
  /-- `td::base64_encode` of `td/utils/base64.h` -/
  base64Encode : Bytes → Bytes
  /-- `td::base64_decode` of `td/utils/base64.h` -/
  base64DecodeResult : Bytes → Result Bytes

variable {Cell : Type} (lib : TonCryptoLib Cell)

/-! ## Bags of cells -/

/-- A serialization deserializes to its root, whatever its mode. -/
def BocRoundTrip : Prop :=
  ∀ root mode data, lib.stdBocSerialize root mode = .ok data →
    lib.stdBocDeserialize data = .ok root

/-- The empty buffer is not a bag of cells. -/
def BocRejectsEmpty : Prop := ∃ status, lib.stdBocDeserialize [] = .error status

/-- A root that has a stored form has a compact form. -/
def BocRecodes : Prop :=
  ∀ root data, lib.stdBocSerialize root BagOfCells.blockMode = .ok data →
    ∃ serialized, lib.stdBocSerialize root BagOfCells.compactMode = .ok serialized

/-- The size of a serialization is that of its layout, where `bag` gives the
cells of a root. -/
def BocLayout (bag : Cell → BagOfCells) : Prop :=
  ∀ root mode data, lib.stdBocSerialize root mode = .ok data →
    data.length = ((bag root).layout mode).totalSize

/-- Every root that has both forms has the sizes of some bag. -/
def BocSize : Prop :=
  ∀ root data serialized, lib.stdBocSerialize root BagOfCells.blockMode = .ok data →
    lib.stdBocSerialize root BagOfCells.compactMode = .ok serialized →
    ∃ cellCount dataSize, CompactSize data.length serialized.length cellCount dataSize

variable {lib}

/-- A serialization is not empty. -/
theorem serialize_ne_nil (hround : BocRoundTrip lib) (hempty : BocRejectsEmpty lib) {root : Cell}
    {mode : Nat} {data : Bytes} (h : lib.stdBocSerialize root mode = .ok data) : data ≠ [] := by
  rintro rfl
  rcases hempty with ⟨status, herror⟩
  have hok := hround root mode [] h
  rw [herror] at hok
  cases hok

/-- A serialization has one root. -/
theorem root_eq_of_serialize {mode : Nat}
    (hround : ∀ root serialized, lib.stdBocSerialize root mode = .ok serialized →
      lib.stdBocDeserialize serialized = .ok root) {root₁ root₂ : Cell} {serialized : Bytes}
    (h₁ : lib.stdBocSerialize root₁ mode = .ok serialized)
    (h₂ : lib.stdBocSerialize root₂ mode = .ok serialized) : root₁ = root₂ := by
  have hok := hround root₁ serialized h₁
  rw [hround root₂ serialized h₂, Result.ok.injEq] at hok
  exact hok.symm

/-- The compact form of a block is shorter than the block by at least an index
of its own offsets. -/
theorem length_compact_add_index_le {bag : Cell → BagOfCells} (hlayout : BocLayout lib bag)
    {root : Cell} {data serialized : Bytes}
    (hdata : lib.stdBocSerialize root BagOfCells.blockMode = .ok data)
    (hser : lib.stdBocSerialize root BagOfCells.compactMode = .ok serialized) :
    serialized.length + (bag root).cellCount *
      ((bag root).layout BagOfCells.compactMode).offsetByteSize ≤ data.length := by
  rw [hlayout root _ data hdata, hlayout root _ serialized hser]
  exact (bag root).totalSize_compact_add_index_le

/-- The sizes follow from the layout. -/
theorem BocLayout.size {bag : Cell → BagOfCells} (hlayout : BocLayout lib bag) :
    BocSize lib := by
  intro root data serialized hdata hser
  rw [hlayout root _ data hdata, hlayout root _ serialized hser]
  exact (bag root).exists_compactSize

variable (lib)

/-! ## LZ4 -/

/-- Decompression recovers a text when the cap holds it, and never gives more
than the cap. -/
structure Lz4RoundTrip : Prop where
  decompress_compress : ∀ x n, x.length ≤ n → lib.lz4Decompress (lib.lz4Compress x) n = .ok x
  length_le_cap : ∀ block n x, lib.lz4Decompress block n = .ok x → x.length ≤ n

/-- A block of the compressor is decompressed to its text, or not at all. -/
def Lz4Sound : Prop :=
  ∀ x n y, lib.lz4Decompress (lib.lz4Compress x) n = .ok y → y = x

/-- A block is not empty, and bytes behind a block are read as a match after its
last literals, which makes the output longer. -/
structure Lz4Trailing : Prop where
  compress_ne_nil : ∀ x, lib.lz4Compress x ≠ []
  length_lt : ∀ x t n y, t ≠ [] → lib.lz4Decompress (lib.lz4Compress x ++ t) n = .ok y →
    x.length < y.length

/-- The worst case of compression. -/
def Lz4Expansion : Prop :=
  ∀ x, (lib.lz4Compress x).length ≤ x.length + x.length / 255 + 16

variable {lib}

/-- A text that does not fit the cap is an error. -/
theorem lz4Decompress_error_of_lt (hlz4 : Lz4RoundTrip lib) (hsound : Lz4Sound lib) {x : Bytes}
    {n : Nat} (h : n < x.length) :
    ∃ status, lib.lz4Decompress (lib.lz4Compress x) n = .error status := by
  rcases hdec : lib.lz4Decompress (lib.lz4Compress x) n with y | status
  · have hle := hlz4.length_le_cap _ _ _ hdec
    rw [hsound x n y hdec] at hle
    exact absurd hle (Nat.not_le.mpr h)
  · exact ⟨status, rfl⟩

variable (lib)

/-! ## Gzip -/

/-- Decoding undoes every encoding with ratio one that did not fail. -/
def GzipUndo : Prop :=
  ∀ s, lib.gzencode s 1 ≠ [] → lib.gzdecode (lib.gzencode s 1) = s

/-- The size of the buffer that `gzencode` fills: at least 512 bytes, in words of
eight. -/
def gzipBufferSize (maxSize : Nat) : Nat := (max 512 maxSize + 7) / 8 * 8

/-- With ratio one, the result fits the buffer for as many bytes as the input has. -/
def GzipBound : Prop := ∀ s, (lib.gzencode s 1).length ≤ gzipBufferSize s.length

variable {lib}

theorem le_gzipBufferSize (n : Nat) : n ≤ gzipBufferSize n := by
  unfold gzipBufferSize
  omega

/-- A result that is not longer than the input fits. -/
theorem GzipBound.of_le (h : ∀ s, (lib.gzencode s 1).length ≤ s.length) : GzipBound lib := by
  intro s
  exact le_trans (h s) (le_gzipBufferSize s.length)

variable (lib)

/-! ## Base64 -/

/-- The base64 functions of `common/util.h`: an encoding is a word. -/
structure Base64Contract : Prop where
  decode_encode : ∀ s, lib.base64Decode (lib.strBase64Encode s) = s
  isWord_encode : ∀ s, s ≠ [] → IsWord (lib.strBase64Encode s)

/-- The base64 functions of `td/utils/base64.h`. -/
structure Base64ResultContract : Prop where
  decode_encode : ∀ s, lib.base64DecodeResult (lib.base64Encode s) = .ok s
  isWord_encode : ∀ s, s ≠ [] → IsWord (lib.base64Encode s)

end TonEncoder

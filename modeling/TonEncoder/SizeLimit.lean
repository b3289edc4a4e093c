import TonEncoder.Lz4.Interchange
import TonEncoder.Tester.Stream

/-! # The size limit

`run_tests.py` accepts no output of more than 2 MiB for a block of at most 2 MiB.
LZ4 may make its input longer, so that the limit on the block does not give the
limit on the output. What gives it is the index that the compact form leaves out:
a block near the limit has so many cells that the index is longer than any
expansion.

* `CompactSize.expansion_le`: the bound, from the sizes of the two forms;
* `compress_length_le`: the programs keep the limit.
-/

namespace TonEncoder

open Process ByteWidth

/-- The limit of `run_tests.py`. -/
def sizeLimit : Nat := 2 ^ 21

/-! ## The index outweighs the expansion -/

section Bound

variable {block serialized cellCount dataSize : Nat}

/-- A bag has cells if it has data, and an offset then takes at least a byte. -/
theorem CompactSize.cellCount_le (h : CompactSize block serialized cellCount dataSize) :
    cellCount ≤ block := by
  by_cases hzero : dataSize = 0
  · -- every cell has two bytes at least
    have := h.two_mul_le
    omega
  · have hwidth : 1 ≤ byteWidth dataSize := by
      rw [Nat.succ_le_iff, lt_byteWidth_iff]
      simp only [pow_zero]
      omega
    have hindex : cellCount * 1 ≤ cellCount * byteWidth dataSize :=
      Nat.mul_le_mul_left _ hwidth
    have := h.add_index_le
    omega

/-- Up to the limit, the cells are counted in three bytes. -/
theorem CompactSize.refByteSize_le (h : CompactSize block serialized cellCount dataSize)
    (hsize : block ≤ sizeLimit) : byteWidth cellCount ≤ 3 := by
  have hcount := h.cellCount_le
  unfold sizeLimit at hsize
  rw [byteWidth_le_iff]
  omega

/-- A cell takes at most 142 bytes then. -/
theorem CompactSize.dataSize_le (h : CompactSize block serialized cellCount dataSize)
    (hsize : block ≤ sizeLimit) : dataSize ≤ cellCount * 142 := by
  have hwidth := h.refByteSize_le hsize
  have hcell : cellCount * (2 + 128 + 4 * byteWidth cellCount) ≤ cellCount * 142 :=
    Nat.mul_le_mul_left _ (by omega)
  exact le_trans h.le_mul hcell

/-- And the offsets take at most four bytes. -/
theorem CompactSize.offsetByteSize_le (h : CompactSize block serialized cellCount dataSize)
    (hsize : block ≤ sizeLimit) : byteWidth dataSize ≤ 4 := by
  have hcount := h.cellCount_le
  have hdata := h.dataSize_le hsize
  unfold sizeLimit at hsize
  rw [byteWidth_le_iff]
  omega

/-- An offset of more than 64 KiB of data takes at least three bytes. -/
theorem three_mul_le_index (n : Nat) {dataSize : Nat} (hdata : 65536 ≤ dataSize) :
    n * 3 ≤ n * byteWidth dataSize := by
  apply Nat.mul_le_mul_left
  rw [Nat.succ_le_iff, lt_byteWidth_iff]
  omega

/-- **The expansion fits the limit.** Up to 16 blocks of LZ4 add at most one part in
255 and 256 bytes to the compact form of a block within the limit. -/
theorem CompactSize.expansion_le (h : CompactSize block serialized cellCount dataSize)
    (hsize : block ≤ sizeLimit) : serialized + serialized / 255 + 256 ≤ sizeLimit := by
  have href := h.refByteSize_le hsize
  have hoffset := h.offsetByteSize_le hsize
  have hdata := h.dataSize_le hsize
  have hindex := h.add_index_le
  have hser := h.serialized_le
  unfold sizeLimit at hsize ⊢
  by_cases hlarge : 65536 ≤ dataSize
  · -- every 142 bytes of cells have three bytes of index
    have hthree := three_mul_le_index cellCount hlarge
    omega
  · -- a small bag is far from the limit
    omega

end Bound

/-! ## The programs keep the limit -/

section Programs

variable {Cell : Type} {lib : TonCryptoLib Cell} {root : Cell} {data : Bytes}

/-- The compact form of a block within the limit, with room for 16 blocks of
LZ4. -/
theorem expansion_compact_le (hboc : BocSize lib)
    (hdata : lib.stdBocSerialize root 31 = .ok data) (hsize : data.length ≤ sizeLimit)
    {serialized : Bytes} (hser : lib.stdBocSerialize root 2 = .ok serialized) :
    serialized.length + serialized.length / 255 + 256 ≤ sizeLimit := by
  rcases hboc root data serialized hdata hser with ⟨cellCount, dataSize, hcompact⟩
  exact hcompact.expansion_le hsize

/-- One block of it keeps the limit. -/
theorem length_lz4Compress_le (hexpand : Lz4Expansion lib) {serialized : Bytes}
    (hroom : serialized.length + serialized.length / 255 + 256 ≤ sizeLimit) :
    (lib.lz4Compress serialized).length ≤ sizeLimit := by
  have hblock := hexpand serialized
  omega

/-- Within the limit there are at most two chunks, whose stream keeps it. -/
theorem length_lz4Stream_le_sizeLimit (hexpand : Lz4Expansion lib) {serialized : Bytes}
    (hroom : serialized.length + serialized.length / 255 + 256 ≤ sizeLimit) :
    (Tester.lz4Stream lib serialized).length ≤ sizeLimit := by
  have hstream := Tester.length_lz4Stream_le hexpand serialized
  have hchunks : (serialized.length + (Tester.chunkSize - 1)) / Tester.chunkSize ≤ 2 := by
    unfold sizeLimit at hroom
    unfold Tester.chunkSize
    omega
  omega

/-- The limit is a whole number of words, so that the buffer of gzip keeps it as well. -/
theorem gzipBufferSize_le_sizeLimit {n : Nat} (h : n ≤ sizeLimit) :
    gzipBufferSize n ≤ sizeLimit := by
  unfold sizeLimit at h ⊢
  unfold gzipBufferSize
  omega

/-- **The size limit.** On a block within the limit, whatever the single-block
program or the chunked program returns is within it. -/
theorem compress_length_le (hround : BocRoundTrip lib) (hboc : BocSize lib)
    (hexpand : Lz4Expansion lib) (hgzip : GzipBound lib)
    (hdata : lib.stdBocSerialize root 31 = .ok data) (hsize : data.length ≤ sizeLimit)
    {c : Bytes} {con con' : Console} :
    (Linux.compress lib data con = (.returned c, con') → c.length ≤ sizeLimit) ∧
      (Tester.compress lib data con = (.returned c, con') → c.length ≤ sizeLimit) := by
  have hdeser := hround root 31 data hdata
  constructor
  · intro hrun
    rcases lz4CompressRoot_returned hdeser hrun with ⟨serialized, hser, rfl⟩
    exact length_lz4Compress_le hexpand (expansion_compact_le hboc hdata hsize hser)
  · intro hrun
    by_cases hc : c = []
    · -- gzip failed
      rw [hc]
      exact Nat.zero_le _
    · rcases Tester.compress_returned hdeser hc hrun with ⟨serialized, hser, rfl⟩
      have hroom := expansion_compact_le hboc hdata hsize hser
      exact le_trans (hgzip _)
        (gzipBufferSize_le_sizeLimit (length_lz4Stream_le_sizeLimit hexpand hroom))

/-- The block of nearly 2 MiB, whose compact form LZ4 makes longer, and a block that gzip
takes. -/
theorem compress_length_le_samples :
    (∃ c, Linux.compress Reference.lib (Reference.blockForm .tree) ⟨[], [], []⟩ =
        (.returned c, ⟨[], [], []⟩) ∧
      (Reference.compactForm .tree).length < c.length ∧ c.length ≤ sizeLimit) ∧
    ∃ c, Tester.compress Reference.lib (Reference.blockForm .wide) ⟨[], [], []⟩ =
        (.returned c, ⟨[], [], []⟩) ∧ c ≠ [] ∧ c.length ≤ sizeLimit := by
  have htree := Reference.deserialize_blockForm .tree
  have hser := Reference.serialize_compactMode .tree
  have hlinux : Linux.compress Reference.lib (Reference.blockForm .tree) ⟨[], [], []⟩ = _ :=
    lz4CompressRoot_run (.done htree hser) ⟨[], [], []⟩
  have hwide := Tester.compress_run
    (Tester.compressEnds_wide (Reference.deserialize_blockForm .wide)) ⟨[], [], []⟩
  refine ⟨⟨_, hlinux, Reference.length_lt_lz4Compress .tree, ?_⟩,
    ⟨_, hwide, Tester.wideStream_ne_nil, ?_⟩⟩
  · exact (compress_length_le Reference.bocRoundTrip Reference.bocLayout.size
      Reference.lz4Expansion Reference.gzipBound (Reference.serialize_blockMode .tree)
      (Reference.length_blockForm_le .tree)).1 hlinux
  · exact (compress_length_le Reference.bocRoundTrip Reference.bocLayout.size
      Reference.lz4Expansion Reference.gzipBound (Reference.serialize_blockMode .wide)
      (Reference.length_blockForm_le .wide)).2 hwide

end Programs

end TonEncoder

import TonEncoder.Codec.ByteWidth

/-! # The layout of a bag of cells

The sizes of a serialized cell DAG, in the terms of `vm/boc.h`: a header whose
counts take `ref_byte_size` bytes and whose sizes take `offset_byte_size` bytes,
an optional index with one offset for each cell, the cells, and an optional
checksum. A cell is two descriptor bytes, optional hashes, its data and its
references.

`totalSize_compact_add_index_le` is what the programs depend on: mode 2, which
they compress, is shorter than mode 31, in which blocks are stored, at least by
the index.
-/

namespace TonEncoder

open ByteWidth

/-! ## Cells -/

/-- The limits of `vm/cells/CellTraits.h`. -/
def maxRefs : Nat := 4
def maxBits : Nat := 1023
def hashBytes : Nat := 32
def depthBytes : Nat := 2

/-- `LevelMask::get_hashes_count`: one hash for each level in the mask, and one. -/
def getHashesCount (levelMask : Nat) : Nat :=
  ((List.range 32).filter levelMask.testBit).length + 1

/-- A data cell, by what its serialized size depends on. -/
structure DataCell where
  bits : Nat
  refsCount : Nat
  levelMask : Nat
  bits_le : bits ≤ maxBits
  refsCount_le : refsCount ≤ maxRefs
  levelMask_lt : levelMask < 8
deriving DecidableEq

/-- `DataCell::get_serialized_size`: the references are not counted. -/
def DataCell.getSerializedSize (cell : DataCell) (withHashes : Bool) : Nat :=
  ((cell.bits + 23) >>> 3) +
    if withHashes then getHashesCount cell.levelMask * (hashBytes + depthBytes) else 0

theorem DataCell.getSerializedSize_eq (cell : DataCell) :
    cell.getSerializedSize false = (cell.bits + 23) / 8 := by
  simp [DataCell.getSerializedSize, Nat.shiftRight_eq_div_pow]

theorem DataCell.getSerializedSize_le (cell : DataCell) (withHashes : Bool) :
    cell.getSerializedSize false ≤ cell.getSerializedSize withHashes := by
  cases withHashes <;> simp [DataCell.getSerializedSize]

/-! ## Modes -/

/-- The flags of `BagOfCells::Mode`. -/
def withIndex : Nat := 1
def withCRC32C : Nat := 2
def withTopHash : Nat := 4
def withIntHashes : Nat := 8
def withCacheBits : Nat := 16

/-- `mode & flag`. -/
def hasFlag (mode flag : Nat) : Bool := mode &&& flag != 0

/-- `BagOfCells::CellInfo`: a cell of the bag, with its weight and whether it is
a root. -/
structure CellInfo where
  dcRef : DataCell
  wt : Nat
  isRootCell : Bool
deriving DecidableEq

def CellInfo.isSpecial (info : CellInfo) : Bool := info.wt == 0

/-- Whether a mode stores the hashes of a cell: of the special cells
(`WithIntHashes`) and of the roots (`WithTopHash`). -/
def CellInfo.withHash (info : CellInfo) (mode : Nat) : Bool :=
  (hasFlag mode withIntHashes && info.isSpecial) ||
    (hasFlag mode withTopHash && info.isRootCell)

/-- A bag with one root: the distinct cells of a cell DAG. -/
structure BagOfCells where
  cellList : List CellInfo
  cellList_ne : cellList ≠ []

namespace BagOfCells

def cellCount (bag : BagOfCells) : Nat := bag.cellList.length

/-- The bytes of a cell in the bag, its references included. -/
def cellSize (mode refByteSize : Nat) (info : CellInfo) : Nat :=
  info.dcRef.getSerializedSize (info.withHash mode) + info.dcRef.refsCount * refByteSize

/-- The total cell data size. -/
def dataSize (bag : BagOfCells) (mode refByteSize : Nat) : Nat :=
  (bag.cellList.map (cellSize mode refByteSize)).sum

/-! ## The layout -/

/-- `BagOfCells::Info`. -/
structure Info where
  rootCount : Nat
  cellCount : Nat
  absentCount : Nat
  refByteSize : Nat
  offsetByteSize : Nat
  hasIndex : Bool
  hasCrc32c : Bool
  hasCacheBits : Bool
  rootsOffset : Nat
  indexOffset : Nat
  dataOffset : Nat
  dataSize : Nat
  totalSize : Nat
deriving DecidableEq, Repr

/-- The layout of a bag in a mode. The counts take the least width that holds
the cell count and the sizes the least width that holds the data size, or its
double when an offset also holds a cache bit. -/
def layout (bag : BagOfCells) (mode : Nat) : Info :=
  let hasIndex := hasFlag mode withIndex
  let hasCrc32c := hasFlag mode withCRC32C
  let hasCacheBits := hasFlag mode withCacheBits
  let refByteSize := byteWidth bag.cellCount
  let dataSize := bag.dataSize mode refByteSize
  let offsetByteSize := byteWidth (if hasCacheBits then dataSize * 2 else dataSize)
  let rootCount := 1
  -- magic, flags and `offset_byte_size`, three counts, the data size
  let rootsOffset := 4 + 1 + 1 + 3 * refByteSize + offsetByteSize
  let indexOffset := rootsOffset + rootCount * refByteSize
  let dataOffset := indexOffset + if hasIndex then bag.cellCount * offsetByteSize else 0
  { rootCount
    cellCount := bag.cellCount
    absentCount := 0
    refByteSize
    offsetByteSize
    hasIndex
    hasCrc32c
    hasCacheBits
    rootsOffset
    indexOffset
    dataOffset
    dataSize
    totalSize := dataOffset + dataSize + if hasCrc32c then 4 else 0 }

/-- The mode that the programs compress: a checksum and nothing else. -/
def compactMode : Nat := 2

/-- The mode in which blocks are stored: every flag. -/
def blockMode : Nat := 31

theorem withHash_compactMode (info : CellInfo) : info.withHash compactMode = false := rfl

/-- The sizes of the compact form. -/
theorem layout_compactMode (bag : BagOfCells) :
    (bag.layout compactMode).offsetByteSize =
        byteWidth (bag.dataSize compactMode (byteWidth bag.cellCount)) ∧
      (bag.layout compactMode).totalSize =
        10 + 4 * byteWidth bag.cellCount + (bag.layout compactMode).offsetByteSize +
          bag.dataSize compactMode (byteWidth bag.cellCount) := by
  have hindex : hasFlag compactMode withIndex = false := rfl
  have hcrc : hasFlag compactMode withCRC32C = true := rfl
  have hcache : hasFlag compactMode withCacheBits = false := rfl
  simp only [layout, hindex, hcrc, hcache, Bool.false_eq_true, if_false, if_true]
  constructor
  · trivial
  · omega

/-- The sizes of the stored form. -/
theorem layout_blockMode (bag : BagOfCells) :
    (bag.layout blockMode).offsetByteSize =
        byteWidth (bag.dataSize blockMode (byteWidth bag.cellCount) * 2) ∧
      (bag.layout blockMode).totalSize =
        10 + 4 * byteWidth bag.cellCount + (bag.layout blockMode).offsetByteSize +
          bag.cellCount * (bag.layout blockMode).offsetByteSize +
          bag.dataSize blockMode (byteWidth bag.cellCount) := by
  have hindex : hasFlag blockMode withIndex = true := rfl
  have hcrc : hasFlag blockMode withCRC32C = true := rfl
  have hcache : hasFlag blockMode withCacheBits = true := rfl
  simp only [layout, hindex, hcrc, hcache, if_true]
  constructor
  · trivial
  · omega

/-- The plain form is the compact form without its checksum. -/
theorem totalSize_plainMode_add (bag : BagOfCells) :
    (bag.layout 0).totalSize + 4 = (bag.layout compactMode).totalSize := by
  have hindex : hasFlag compactMode withIndex = false := rfl
  have hcrc : hasFlag compactMode withCRC32C = true := rfl
  have hcache : hasFlag compactMode withCacheBits = false := rfl
  have hindex' : hasFlag 0 withIndex = false := rfl
  have hcrc' : hasFlag 0 withCRC32C = false := rfl
  have hcache' : hasFlag 0 withCacheBits = false := rfl
  have hdata : ∀ refByteSize, bag.dataSize 0 refByteSize = bag.dataSize compactMode refByteSize :=
    fun _ => rfl
  simp only [layout, hindex, hcrc, hcache, hindex', hcrc', hcache', hdata, Bool.false_eq_true,
    if_false, if_true, Nat.add_zero]

theorem totalSize_plainMode_le (bag : BagOfCells) :
    (bag.layout 0).totalSize ≤ (bag.layout compactMode).totalSize :=
  le_of_add_le_left bag.totalSize_plainMode_add.le

/-- No mode makes the cells smaller than the compact one. -/
theorem dataSize_compactMode_le (bag : BagOfCells) (mode refByteSize : Nat) :
    bag.dataSize compactMode refByteSize ≤ bag.dataSize mode refByteSize := by
  apply List.sum_le_sum
  intro info _
  unfold cellSize
  have hsize := info.dcRef.getSerializedSize_le (info.withHash mode)
  rw [withHash_compactMode]
  omega

/-- **Monotonicity over the modes.** The stored form is longer than the compact
form, at least by an index of the compact form's offsets. The offsets of the
stored form are no narrower, since they hold the double of a data size that is
no smaller. -/
theorem totalSize_compact_add_index_le (bag : BagOfCells) :
    (bag.layout compactMode).totalSize +
        bag.cellCount * (bag.layout compactMode).offsetByteSize ≤
      (bag.layout blockMode).totalSize := by
  obtain ⟨hoff, htotal⟩ := layout_compactMode bag
  obtain ⟨hoff', htotal'⟩ := layout_blockMode bag
  have hdata := dataSize_compactMode_le bag blockMode (byteWidth bag.cellCount)
  have hwidth : (bag.layout compactMode).offsetByteSize ≤
      (bag.layout blockMode).offsetByteSize := by
    rw [hoff, hoff']
    -- `dataSize ≤ dataSize' ≤ dataSize' * 2`
    exact byteWidth_mono (by omega)
  have hindex : bag.cellCount * (bag.layout compactMode).offsetByteSize ≤
      bag.cellCount * (bag.layout blockMode).offsetByteSize :=
    Nat.mul_le_mul_left _ hwidth
  omega

/-! ## Bounds on the cells -/

/-- A cell without hashes takes at least its descriptor bytes. -/
theorem two_le_cellSize (refByteSize : Nat) (info : CellInfo) :
    2 ≤ cellSize compactMode refByteSize info := by
  unfold cellSize
  rw [withHash_compactMode, DataCell.getSerializedSize_eq]
  omega

/-- A cell without hashes takes at most its descriptor bytes, 128 bytes of data
and four references. -/
theorem cellSize_le (refByteSize : Nat) (info : CellInfo) :
    cellSize compactMode refByteSize info ≤ 2 + 128 + 4 * refByteSize := by
  have hbits := info.dcRef.bits_le
  have hrefs : info.dcRef.refsCount * refByteSize ≤ 4 * refByteSize :=
    Nat.mul_le_mul_right _ info.dcRef.refsCount_le
  unfold cellSize
  rw [withHash_compactMode, DataCell.getSerializedSize_eq]
  unfold maxBits at hbits
  omega

theorem two_mul_cellCount_le (bag : BagOfCells) (refByteSize : Nat) :
    2 * bag.cellCount ≤ bag.dataSize compactMode refByteSize := by
  have h := List.card_nsmul_le_sum (bag.cellList.map (cellSize compactMode refByteSize)) 2
    (by
      intro size hsize
      obtain ⟨info, _, rfl⟩ := List.mem_map.mp hsize
      exact two_le_cellSize refByteSize info)
  rw [List.length_map, smul_eq_mul, Nat.mul_comm] at h
  exact h

theorem dataSize_le_mul_cellCount (bag : BagOfCells) (refByteSize : Nat) :
    bag.dataSize compactMode refByteSize ≤ bag.cellCount * (2 + 128 + 4 * refByteSize) := by
  have h := List.sum_le_card_nsmul (bag.cellList.map (cellSize compactMode refByteSize))
    (2 + 128 + 4 * refByteSize)
    (by
      intro size hsize
      obtain ⟨info, _, rfl⟩ := List.mem_map.mp hsize
      exact cellSize_le refByteSize info)
  rw [List.length_map, smul_eq_mul] at h
  exact h

end BagOfCells

/-! ## The sizes of a block -/

/-- The sizes of the compact form of a block: the counts and the sizes take the
least widths that hold the number of cells and their total size, which lies
between the smallest and the largest cells, and the block is longer at least by
an index. -/
structure CompactSize (block serialized cellCount dataSize : Nat) : Prop where
  two_mul_le : 2 * cellCount ≤ dataSize
  le_mul : dataSize ≤ cellCount * (2 + 128 + 4 * byteWidth cellCount)
  serialized_le : serialized ≤ 10 + 4 * byteWidth cellCount + byteWidth dataSize + dataSize
  add_index_le : serialized + cellCount * byteWidth dataSize ≤ block

/-- A shorter form has the same bounds. -/
theorem CompactSize.mono {block serialized serialized' cellCount dataSize : Nat}
    (h : CompactSize block serialized cellCount dataSize) (hle : serialized' ≤ serialized) :
    CompactSize block serialized' cellCount dataSize := by
  have hser := h.serialized_le
  have hindex := h.add_index_le
  constructor
  · exact h.two_mul_le
  · exact h.le_mul
  · omega
  · omega

/-- The layouts of a bag have such sizes. -/
theorem BagOfCells.exists_compactSize (bag : BagOfCells) :
    ∃ cellCount dataSize, CompactSize (bag.layout blockMode).totalSize
      (bag.layout compactMode).totalSize cellCount dataSize := by
  have hindex := bag.totalSize_compact_add_index_le
  rcases bag.layout_compactMode with ⟨hoffset, hsize⟩
  rw [hoffset] at hindex hsize
  refine ⟨bag.cellCount, bag.dataSize compactMode (byteWidth bag.cellCount), ?_⟩
  constructor
  · exact bag.two_mul_cellCount_le _
  · exact bag.dataSize_le_mul_cellCount _
  · rw [hsize]
  · exact hindex

end TonEncoder

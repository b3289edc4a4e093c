import TonEncoder.Boc
import TonEncoder.Codec.BigEndian
import TonEncoder.Codec.Crc
import TonEncoder.Codec.Process
import TonEncoder.Codec.Sha256

/-! # Reference bags of cells

A serializer of bags whose cells have whole bytes, and the bags that the examples
are about:

* `serialize`: the bytes of a bag in a mode, in the layout of `vm/boc.h`;
* `length_serialize`: they are as many as the layout says;
* `complete`: the cells of a complete tree, in the order of the serializer;
* `Sample`: four bags, from the two cells which the examples of the library
  serialize up to a block of nearly 2 MiB, and their forms in three modes;
* `root_eq_of_forms`: a form has one root, since no two roots have forms of one length.
-/

namespace TonEncoder.Reference

open Process ByteWidth

/-! ## Cells -/

/-- A cell of level 0, with the indices of its references. -/
structure RawCell where
  data : Bytes
  refs : List Nat
  /-- The hash and the depth of a special cell. -/
  special : Option Bytes
  data_le : data.length ≤ 127
  refs_le : refs.length ≤ maxRefs
  length_special : ∀ stored ∈ special, stored.length = hashBytes + depthBytes

namespace RawCell

/-- What the layout depends on. The root is not marked as one: as in the blocks under
`tests/`, its hash is not stored. -/
def info (cell : RawCell) : CellInfo where
  dcRef :=
    { bits := 8 * cell.data.length
      refsCount := cell.refs.length
      levelMask := 0
      bits_le := by
        have hdata := cell.data_le
        unfold maxBits
        omega
      refsCount_le := cell.refs_le
      levelMask_lt := by omega }
  wt := if cell.special.isSome then 0 else 1
  isRootCell := false

/-- The hash and the depth, where the mode stores them. -/
def stored (mode : Nat) (cell : RawCell) : Bytes :=
  if hasFlag mode withIntHashes then cell.special.getD [] else []

/-- The descriptors, the hash and the depth, the data and the references. -/
def bytes (mode refByteSize : Nat) (cell : RawCell) : Bytes :=
  [UInt8.ofNat (cell.refs.length + if cell.info.withHash mode then 16 else 0),
    UInt8.ofNat (2 * cell.data.length)] ++ cell.stored mode ++ cell.data ++
    cell.refs.flatMap (BigEndian.toBytes refByteSize)

theorem withHash_info (cell : RawCell) (mode : Nat) :
    cell.info.withHash mode = (hasFlag mode withIntHashes && cell.special.isSome) := by
  cases hspecial : cell.special <;> simp [info, CellInfo.withHash, CellInfo.isSpecial, hspecial]

theorem length_stored (cell : RawCell) (mode : Nat) :
    (cell.stored mode).length = if cell.info.withHash mode then hashBytes + depthBytes else 0 := by
  rw [withHash_info, stored]
  cases hasFlag mode withIntHashes with
  | false => rfl
  | true =>
      cases hspecial : cell.special with
      | none => rfl
      | some stored =>
          have hlength := cell.length_special stored hspecial
          simpa using hlength

theorem cellSize_info (cell : RawCell) (mode refByteSize : Nat) :
    BagOfCells.cellSize mode refByteSize cell.info =
      2 + (if cell.info.withHash mode then hashBytes + depthBytes else 0) + cell.data.length +
        cell.refs.length * refByteSize := by
  have hhashes : getHashesCount cell.info.dcRef.levelMask = 1 := by
    simp only [info]
    decide
  rw [BagOfCells.cellSize, DataCell.getSerializedSize, Nat.shiftRight_eq_div_pow, hhashes,
    Nat.one_mul]
  generalize (if cell.info.withHash mode then hashBytes + depthBytes else 0) = stored
  simp only [info]
  omega

theorem length_bytes (cell : RawCell) (mode refByteSize : Nat) :
    (cell.bytes mode refByteSize).length = BagOfCells.cellSize mode refByteSize cell.info := by
  rw [cellSize_info, ← length_stored]
  simp [bytes]
  omega

end RawCell

/-! ## The serializer -/

/-- The bag of a list of cells, the root first. -/
def bagOf (cells : List RawCell) (hne : cells ≠ []) : BagOfCells where
  cellList := cells.map RawCell.info
  cellList_ne := by simpa using hne

/-- The index: the end of each cell. An offset is doubled where it also holds a
cache bit. -/
def index (offsetByteSize factor : Nat) : Nat → List Bytes → Bytes
  | _, [] => []
  | start, cell :: cells =>
      BigEndian.toBytes offsetByteSize ((start + cell.length) * factor) ++
        index offsetByteSize factor (start + cell.length) cells

/-- The magic number. -/
def magic : Bytes := [0xb5, 0xee, 0x9c, 0x72]

/-- The flags of a header. -/
def flags (info : BagOfCells.Info) : Nat :=
  info.refByteSize + (if info.hasIndex then 128 else 0) + (if info.hasCrc32c then 64 else 0) +
    if info.hasCacheBits then 32 else 0

/-- What comes before the checksum, from the bytes of the cells. -/
def body (info : BagOfCells.Info) (cells : List Bytes) : Bytes :=
  magic ++ [UInt8.ofNat (flags info), UInt8.ofNat info.offsetByteSize] ++
    BigEndian.toBytes info.refByteSize info.cellCount ++
    BigEndian.toBytes info.refByteSize info.rootCount ++
    BigEndian.toBytes info.refByteSize info.absentCount ++
    BigEndian.toBytes info.offsetByteSize info.dataSize ++
    -- the index of the root
    BigEndian.toBytes info.refByteSize 0 ++
    (if info.hasIndex then
      index info.offsetByteSize (if info.hasCacheBits then 2 else 1) 0 cells
    else []) ++
    cells.flatten

/-- The CRC-32C of a text, its low byte first. -/
def checksum (text : Bytes) : Bytes :=
  (BigEndian.toBytes 4 (Crc.crc 0x82F63B78 text).toNat).reverse

/-- The bytes of a bag in a mode. -/
def serialize (cells : List RawCell) (hne : cells ≠ []) (mode : Nat) : Bytes :=
  let info := (bagOf cells hne).layout mode
  let text := body info (cells.map (RawCell.bytes mode info.refByteSize))
  text ++ if info.hasCrc32c then checksum text else []

/-! ## Lengths -/

theorem length_index (offsetByteSize factor start : Nat) (cells : List Bytes) :
    (index offsetByteSize factor start cells).length = cells.length * offsetByteSize := by
  induction cells generalizing start with
  | nil => simp [index]
  | cons cell cells ih =>
      rw [index, List.length_append, BigEndian.length_toBytes, ih, List.length_cons]
      ring

theorem length_flatten_bytes (cells : List RawCell) (hne : cells ≠ []) (mode refByteSize : Nat) :
    (cells.map (RawCell.bytes mode refByteSize)).flatten.length =
      (bagOf cells hne).dataSize mode refByteSize := by
  have hsizes : (fun cell : RawCell => (cell.bytes mode refByteSize).length) =
      fun cell => BagOfCells.cellSize mode refByteSize cell.info :=
    funext fun cell => cell.length_bytes mode refByteSize
  rw [List.length_flatten, BagOfCells.dataSize, bagOf, List.map_map, List.map_map]
  exact congrArg (fun size => (cells.map size).sum) hsizes

theorem length_body (info : BagOfCells.Info) (cells : List Bytes) :
    (body info cells).length = 6 + 4 * info.refByteSize + info.offsetByteSize +
      (if info.hasIndex then cells.length * info.offsetByteSize else 0) +
      cells.flatten.length := by
  have hmagic : magic.length = 4 := rfl
  cases hindex : info.hasIndex with
  | true =>
      simp only [body, hindex, if_true, List.length_append, BigEndian.length_toBytes, length_index,
        List.length_cons, List.length_nil, hmagic]
      omega
  | false =>
      simp only [body, hindex, Bool.false_eq_true, if_false, List.length_append,
        BigEndian.length_toBytes, List.length_cons, List.length_nil, hmagic]
      omega

/-- **The serializer keeps the layout.** -/
theorem length_serialize (cells : List RawCell) (hne : cells ≠ []) (mode : Nat) :
    (serialize cells hne mode).length = ((bagOf cells hne).layout mode).totalSize := by
  have hcells := length_flatten_bytes cells hne mode (byteWidth cells.length)
  have hcount : (bagOf cells hne).cellCount = cells.length := by
    simp [bagOf, BagOfCells.cellCount]
  have hchecksum : ∀ text, (checksum text).length = 4 := by
    simp [checksum]
  have hcrc : ∀ text : Bytes, (if ((bagOf cells hne).layout mode).hasCrc32c then
      checksum text else []).length =
        if ((bagOf cells hne).layout mode).hasCrc32c then 4 else 0 := by
    intro text
    split
    · exact hchecksum text
    · exact List.length_nil
  rw [serialize, List.length_append, hcrc, length_body, List.length_map]
  simp only [BagOfCells.layout, hcount, hcells]
  omega

/-! ## Random bytes -/

/-- The bytes of a linear congruential generator. -/
def random : Nat → Nat
  | 0 => 1
  | n + 1 => (1103515245 * random n + 12345) % 2 ^ 31

/-- Its `i`-th `n` bytes. -/
def noise (i n : Nat) : Bytes :=
  (List.range n).map fun j => UInt8.ofNat (random (i * n + j) / 2 ^ 23)

theorem length_noise (i n : Nat) : (noise i n).length = n := by
  simp [noise]

/-! ## Complete trees -/

/-- The children of a cell, by their numbers in the order of a heap. -/
def children (k : Nat) : List Nat := [4 * k + 1, 4 * k + 2, 4 * k + 3, 4 * k + 4]

/-- The hash of the cell of height `h` and number `k`: of its descriptors and data, and
of the depths and the hashes of its children. -/
def cellHash (n : Nat) : Nat → Nat → Bytes
  | 0, k => Sha256.hash ([0, UInt8.ofNat (2 * n)] ++ noise k n)
  | h + 1, k =>
      Sha256.hash ([4, UInt8.ofNat (2 * n)] ++ noise k n ++
        (children k).flatMap (fun _ => BigEndian.toBytes depthBytes h) ++
        (children k).flatMap fun c => cellHash n h c)

theorem length_cellHash (n h k : Nat) : (cellHash n h k).length = hashBytes := by
  cases h <;> exact Sha256.length_hash _

/-- The weight of a cell below the root: it is that of its subtree, unless this is more
than the share of the cell. Then the cell is special, and weighs nothing. -/
def weight : Nat → Nat
  | 0 => 1
  | h + 1 => if 1 + 4 * weight h ≤ 15 then 1 + 4 * weight h else 0

/-- The cells below a cell down to the next special ones, by their heights and numbers,
in the order of the serializer. -/
def region : Nat → Nat → List (Nat × Nat)
  | 0, _ => []
  | h + 1, k =>
      (children k).map (fun c => (h, c)) ++
        if weight h = 0 then [] else (children k).flatMap fun c => region h c

/-- The cells below these, which come behind them. -/
def beyond : Nat → Nat → List (Nat × Nat)
  | 0, _ => []
  | h + 1, k =>
      (children k).flatMap fun c => (if weight h = 0 then region h c else []) ++ beyond h c

/-- A cell with `n` bytes. -/
def treeCell (n : Nat) (hn : n ≤ 127) (order : List (Nat × Nat)) (special : Bool) :
    Nat × Nat → RawCell
  | (h, k) =>
      { data := noise k n
        refs := if h = 0 then [] else (children k).map fun c => order.idxOf (h - 1, c)
        special :=
          if special then some (cellHash n h k ++ BigEndian.toBytes depthBytes h) else none
        data_le := by rwa [length_noise]
        refs_le := by split <;> simp [children, maxRefs]
        length_special := by
          intro stored hstored
          split at hstored
          · cases hstored
            rw [List.length_append, length_cellHash, BigEndian.length_toBytes]
          · cases hstored }

/-- The cells of the complete tree of height `h`, with `n` bytes in each. -/
def complete (h n : Nat) (hn : n ≤ 127) : List RawCell :=
  let places := region h 0 ++ beyond h 0
  let order := (h, 0) :: places
  treeCell n hn order false (h, 0) ::
    places.map fun place => treeCell n hn order (weight place.1 = 0) place

/-- What the cells below a cell of height `h` add up to, when a cell of height `i` counts
`size i`. -/
def sumBelow (size : Nat → Nat) : Nat → Nat
  | 0 => 0
  | h + 1 => 4 * (size h + sumBelow size h)

/-- **Each cell once.** The cells below a cell are those in the two lists. -/
theorem sum_places (size : Nat → Nat) (h k : Nat) :
    ((region h k).map fun place => size place.1).sum +
      ((beyond h k).map fun place => size place.1).sum = sumBelow size h := by
  induction h generalizing k with
  | zero => rfl
  | succ h ih =>
      have h₁ := ih (4 * k + 1)
      have h₂ := ih (4 * k + 2)
      have h₃ := ih (4 * k + 3)
      have h₄ := ih (4 * k + 4)
      by_cases hweight : weight h = 0
      · -- what is below a special child is beyond
        simp only [region, beyond, children, hweight, if_true, sumBelow, List.map_append,
          List.map_cons, List.map_nil, List.flatMap_cons, List.flatMap_nil, List.sum_append,
          List.sum_cons, List.sum_nil]
        omega
      · simp only [region, beyond, children, hweight, if_false, sumBelow, List.map_append,
          List.map_cons, List.map_nil, List.flatMap_cons, List.flatMap_nil, List.sum_append,
          List.sum_cons, List.sum_nil, List.nil_append]
        omega

theorem length_complete (h n : Nat) (hn : n ≤ 127) :
    (complete h n hn).length = 1 + sumBelow (fun _ => 1) h := by
  have hsum := sum_places (fun _ => 1) h 0
  simp only [List.map_const', List.sum_replicate, smul_eq_mul, mul_one] at hsum
  simp only [complete, List.length_cons, List.length_map, List.length_append]
  omega

theorem complete_ne_nil (h n : Nat) (hn : n ≤ 127) : complete h n hn ≠ [] := List.cons_ne_nil _ _

/-- The size of a cell of a complete tree. -/
def treeCellSize (n mode refByteSize : Nat) (special : Bool) (h : Nat) : Nat :=
  2 + (if hasFlag mode withIntHashes && special then hashBytes + depthBytes else 0) + n +
    (if h = 0 then 0 else 4) * refByteSize

theorem cellSize_treeCell (n : Nat) (hn : n ≤ 127) (order : List (Nat × Nat)) (special : Bool)
    (place : Nat × Nat) (mode refByteSize : Nat) :
    BagOfCells.cellSize mode refByteSize (treeCell n hn order special place).info =
      treeCellSize n mode refByteSize special place.1 := by
  have hrefs : (treeCell n hn order special place).refs.length = if place.1 = 0 then 0 else 4 := by
    simp only [treeCell]
    split <;> simp [children]
  have hspecial : (treeCell n hn order special place).special.isSome = special := by
    cases special <;> rfl
  rw [RawCell.cellSize_info, RawCell.withHash_info, hrefs, hspecial, treeCellSize, treeCell,
    length_noise]

theorem dataSize_complete (h n : Nat) (hn : n ≤ 127) (mode refByteSize : Nat) :
    (bagOf (complete h n hn) (complete_ne_nil h n hn)).dataSize mode refByteSize =
      treeCellSize n mode refByteSize false h +
        sumBelow (fun i => treeCellSize n mode refByteSize (weight i = 0) i) h := by
  rw [← sum_places _ h 0]
  simp only [BagOfCells.dataSize, bagOf, complete, List.map_cons, List.map_map, List.sum_cons,
    List.map_append, List.sum_append, Function.comp_def, cellSize_treeCell]

/-! ## The samples -/

/-- The roots: of the two cells that the examples of the library serialize, of one
cell of 127 bytes, and of two complete trees of random bytes. -/
inductive Sample where
  | pair
  | wide
  | noise
  | tree
deriving DecidableEq, Repr

/-- The data of the wide cell: four letters, and four bytes are never repeated. -/
def wideData : Bytes :=
  [97, 97, 97, 97, 98, 97, 97, 97, 99, 97, 97, 97, 100, 97, 97, 98, 98, 97, 97, 98, 99, 97, 97,
   98, 100, 97, 97, 99, 98, 97, 97, 99, 99, 97, 97, 99, 100, 97, 97, 100, 98, 97, 97, 100, 99,
   97, 97, 100, 100, 97, 98, 97, 98, 97, 99, 97, 98, 97, 100, 97, 98, 98, 98, 97, 98, 98, 99, 97,
   98, 98, 100, 97, 98, 99, 98, 97, 98, 99, 99, 97, 98, 99, 100, 97, 98, 100, 98, 97, 98, 100,
   99, 97, 98, 100, 100, 97, 99, 97, 99, 97, 100, 97, 99, 98, 98, 97, 99, 98, 99, 97, 99, 98,
   100, 97, 99, 99, 98, 97, 99, 99, 99, 97, 99, 99, 100, 97, 99]

def cells : Sample → List RawCell
  | .pair =>
      [⟨[171, 205, 18, 52], [1], none, by decide, by decide, by simp⟩,
       ⟨[0, 0, 0, 100, 10, 20, 30, 40, 50, 0, 0], [], none, by decide, by decide, by simp⟩]
  | .wide => [⟨wideData, [], none, le_of_eq rfl, Nat.zero_le _, by simp⟩]
  | .noise => complete 1 100 (by decide)
  | .tree => complete 7 87 (by decide)

theorem cells_ne_nil (root : Sample) : cells root ≠ [] := by
  cases root with
  | pair => exact List.cons_ne_nil _ _
  | wide => exact List.cons_ne_nil _ _
  | noise => exact complete_ne_nil 1 100 (by decide)
  | tree => exact complete_ne_nil 7 87 (by decide)

def bag (root : Sample) : BagOfCells := bagOf (cells root) (cells_ne_nil root)

/-- The plain form of a sample: no checksum, and no flag of one. -/
def plainForm (root : Sample) : Bytes := serialize (cells root) (cells_ne_nil root) 0

/-- The compact form of a sample. -/
def compactForm (root : Sample) : Bytes := serialize (cells root) (cells_ne_nil root) 2

/-- The stored form of a sample. -/
def blockForm (root : Sample) : Bytes := serialize (cells root) (cells_ne_nil root) 31

/-! ## The sizes of the samples -/

/-- The number of cells of a sample. -/
def cellCount : Sample → Nat
  | .pair => 2
  | .wide => 1
  | .noise => 5
  | .tree => 21845

theorem cellCount_bag (root : Sample) : (bag root).cellCount = cellCount root := by
  have hcount : (bag root).cellCount = (cells root).length := by
    simp [bag, bagOf, BagOfCells.cellCount]
  rw [hcount]
  cases root with
  | pair => rfl
  | wide => rfl
  | noise => exact length_complete 1 100 (by decide)
  | tree => exact length_complete 7 87 (by decide)

/-- The width of a reference. -/
def refByteSize : Sample → Nat
  | .tree => 2
  | _ => 1

theorem byteWidth_cellCount (root : Sample) :
    byteWidth (bag root).cellCount = refByteSize root := by
  rw [cellCount_bag]
  cases root <;> norm_num [byteWidth, cellCount, refByteSize]

/-- The size of the cells of a sample. -/
def cellsLength : Sample → Nat
  | .pair => 20
  | .wide => 129
  | .noise => 514
  | .tree => 1987893

/-- The number of its special cells. -/
def specialCount : Sample → Nat
  | .tree => 1040
  | _ => 0

theorem dataSize_bag (root : Sample) (mode : Nat) :
    (bag root).dataSize mode (refByteSize root) =
      cellsLength root + if hasFlag mode withIntHashes then specialCount root * 34 else 0 := by
  cases root with
  | pair =>
      simp [bag, bagOf, cells, BagOfCells.dataSize, RawCell.cellSize_info, RawCell.withHash_info,
        refByteSize, cellsLength, specialCount]
  | wide =>
      simp [bag, bagOf, cells, BagOfCells.dataSize, RawCell.cellSize_info, RawCell.withHash_info,
        refByteSize, cellsLength, specialCount, wideData]
  | noise =>
      show (bagOf (complete 1 100 _) _).dataSize mode 1 = _
      rw [dataSize_complete]
      cases hflag : hasFlag mode withIntHashes <;>
        simp [sumBelow, treeCellSize, weight, hflag, cellsLength, specialCount]
  | tree =>
      show (bagOf (complete 7 87 _) _).dataSize mode 2 = _
      rw [dataSize_complete]
      cases hflag : hasFlag mode withIntHashes <;>
        simp [sumBelow, treeCellSize, weight, hflag, cellsLength, specialCount, hashBytes,
          depthBytes]

/-- The length of the compact form. -/
def compactLength : Sample → Nat
  | .pair => 35
  | .wide => 144
  | .noise => 530
  | .tree => 1987914

theorem length_compactForm (root : Sample) :
    (compactForm root).length = compactLength root := by
  show (serialize (cells root) (cells_ne_nil root) BagOfCells.compactMode).length = _
  rw [length_serialize]
  show ((bag root).layout BagOfCells.compactMode).totalSize = _
  rw [(bag root).layout_compactMode.2, (bag root).layout_compactMode.1, byteWidth_cellCount,
    dataSize_bag]
  have hflag : hasFlag BagOfCells.compactMode withIntHashes = false := rfl
  cases root <;> norm_num [byteWidth, cellsLength, refByteSize, compactLength, hflag]

/-- The plain form lacks four bytes of the compact one. -/
theorem length_plainForm (root : Sample) : (plainForm root).length + 4 = compactLength root := by
  have hplain := (bag root).totalSize_plainMode_add
  have hcompact := length_compactForm root
  rw [compactForm, length_serialize] at hcompact
  rw [plainForm, length_serialize]
  exact hplain.trans hcompact

/-- The length of the stored form. -/
def blockLength : Sample → Nat
  | .pair => 37
  | .wide => 147
  | .noise => 540
  | .tree => 2088809

theorem length_blockForm (root : Sample) : (blockForm root).length = blockLength root := by
  show (serialize (cells root) (cells_ne_nil root) BagOfCells.blockMode).length = _
  rw [length_serialize]
  show ((bag root).layout BagOfCells.blockMode).totalSize = _
  rw [(bag root).layout_blockMode.2, (bag root).layout_blockMode.1, byteWidth_cellCount,
    dataSize_bag, cellCount_bag]
  have hflag : hasFlag BagOfCells.blockMode withIntHashes = true := rfl
  -- an offset takes one, two, two and three bytes
  cases root <;> norm_num [byteWidth, cellsLength, specialCount, refByteSize, cellCount,
    blockLength, hflag]

/-- The samples are within the limit of 2 MiB. -/
theorem length_blockForm_le (root : Sample) : (blockForm root).length ≤ 2 ^ 21 := by
  rw [length_blockForm]
  cases root <;> simp [blockLength]

theorem compactForm_ne_nil (root : Sample) : compactForm root ≠ [] := by
  apply List.ne_nil_of_length_pos
  rw [length_compactForm]
  cases root <;> simp [compactLength]

theorem blockForm_ne_nil (root : Sample) : blockForm root ≠ [] := by
  apply List.ne_nil_of_length_pos
  rw [length_blockForm]
  cases root <;> simp [blockLength]

/-- The forms differ, at least by the index. -/
theorem blockForm_ne_compactForm (root : Sample) : blockForm root ≠ compactForm root := by
  intro h
  have hlength := congrArg List.length h
  rw [length_blockForm, length_compactForm] at hlength
  cases root <;> simp [blockLength, compactLength] at hlength

/-! ## A form has one root -/

/-- The forms of a sample. -/
def forms (root : Sample) : List Bytes := [plainForm root, compactForm root, blockForm root]

/-- The lengths of the forms. -/
theorem length_of_mem_forms {root : Sample} {data : Bytes} (h : data ∈ forms root) :
    data.length + 4 = compactLength root ∨ data.length = compactLength root ∨
      data.length = blockLength root := by
  simp only [forms, List.mem_cons, List.not_mem_nil, or_false] at h
  rcases h with rfl | rfl | rfl
  · exact Or.inl (length_plainForm root)
  · exact Or.inr (Or.inl (length_compactForm root))
  · exact Or.inr (Or.inr (length_blockForm root))

theorem root_eq_of_forms {root root' : Sample} {data : Bytes} (h : data ∈ forms root)
    (h' : data ∈ forms root') : root = root' := by
  have hlength := length_of_mem_forms h
  have hlength' := length_of_mem_forms h'
  cases root <;> cases root' <;> simp only [compactLength, blockLength] at hlength hlength' <;>
    first
      | rfl
      | omega

end TonEncoder.Reference

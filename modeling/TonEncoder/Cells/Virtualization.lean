import TonEncoder.Boc
import TonEncoder.Td
import TonEncoder.Codec.BigEndian
import TonEncoder.Codec.Chunks
import TonEncoder.Codec.Steps

/-! # Cells and their levels

A cell has a hash and a depth for each level in its level mask, and one of each for
level zero. A `PrunnedCell` stands for a cell by these alone. A `VirtualCell` is
another cell seen up to a level, and virtual cells can be made of virtual cells.

* `Look` is what a cell shows of itself, and `Look.cut` what is left of it up to a
  level.
* `PrunnedCell.create_readBack`: which pruned cells can be made, and that each shows at
  each of its levels the hash and the depth that it was given for it.
* `looks_of_run`: a cell that was virtualized any number of times, in any way that
  passes the checks, shows what the least of the levels leaves. So does what is loaded
  from it, once it is virtualized again.
-/

namespace TonEncoder.Virtualization

open Process

/-! ## Level masks -/

/-- The limits of `vm/cells/CellTraits.h`. -/
def maxLevel : Nat := 3
def maxDepth : Nat := 1024

/-- `td::count_leading_zeroes32` -/
def countLeadingZeroes32 (x : Nat) : Nat := if x = 0 then 32 else 31 - x.log2

/-- `LevelMask`: level `i + 1` is significant when bit `i` is set. -/
@[ext] structure LevelMask where
  mask : Nat
  mask_lt : mask < 2 ^ 32
deriving DecidableEq, Repr

namespace LevelMask

def getLevel (levelMask : LevelMask) : Nat := 32 - countLeadingZeroes32 levelMask.mask

def getHashI (levelMask : LevelMask) : Nat :=
  ((List.range 32).filter levelMask.mask.testBit).length

/-- The mask that `apply` makes. -/
def low (levelMask : LevelMask) (level : Nat) : LevelMask :=
  ⟨levelMask.mask &&& (1 <<< level - 1), Nat.and_le_left.trans_lt levelMask.mask_lt⟩

/-- Only levels below 32 can be asked for (`DCHECK`). -/
def apply (levelMask : LevelMask) (level : Nat) : Option LevelMask :=
  if level < 32 then some (levelMask.low level) else none

def isSignificant (levelMask : LevelMask) (level : Nat) : Option Bool := do
  let applied ← levelMask.apply level
  let res := level == 0 || (levelMask.mask >>> (level - 1)) % 2 != 0
  if res == (applied.getLevel == level) then some res else none

variable (m : LevelMask)

theorem getHashesCount_eq : getHashesCount m.mask = m.getHashI + 1 := rfl

theorem getLevel_le_iff {k : Nat} : m.getLevel ≤ k ↔ m.mask < 2 ^ k := by
  unfold getLevel countLeadingZeroes32
  by_cases hzero : m.mask = 0
  · simp [hzero]
  · have h32 := (Nat.log2_lt hzero).mpr m.mask_lt
    have hk : m.mask.log2 < k ↔ m.mask < 2 ^ k := Nat.log2_lt hzero
    rw [if_neg hzero, ← hk]
    omega

theorem getLevel_le : m.getLevel ≤ 32 := m.getLevel_le_iff.mpr m.mask_lt

theorem low_mask (k : Nat) : (m.low k).mask = m.mask % 2 ^ k := by
  change m.mask &&& (1 <<< k - 1) = _
  rw [Nat.one_shiftLeft, Nat.and_two_pow_sub_one_eq_mod]

theorem getLevel_low_le (k : Nat) : (m.low k).getLevel ≤ k := by
  rw [getLevel_le_iff, low_mask]
  exact Nat.mod_lt _ (by positivity)

theorem getLevel_low_le_getLevel (k : Nat) : (m.low k).getLevel ≤ m.getLevel := by
  rw [getLevel_le_iff, low_mask]
  exact (Nat.mod_le _ _).trans_lt (m.getLevel_le_iff.mp le_rfl)

@[simp] theorem low_low (j k : Nat) : (m.low j).low k = m.low (min j k) := by
  ext
  simp only [low_mask]
  rcases le_total j k with hle | hle
  · rw [min_eq_left hle]
    have hlt : m.mask % 2 ^ j < 2 ^ j := Nat.mod_lt _ (by positivity)
    exact Nat.mod_eq_of_lt (hlt.trans_le (Nat.pow_le_pow_right (by omega) hle))
  · rw [min_eq_right hle, Nat.mod_mod_of_dvd _ (pow_dvd_pow 2 hle)]

theorem low_eq_self {k : Nat} (h : m.getLevel ≤ k) : m.low k = m := by
  ext
  rw [low_mask, Nat.mod_eq_of_lt (m.getLevel_le_iff.mp h)]

/-- Nothing is lost up to the highest level that is left. -/
theorem low_getLevel_low (k : Nat) : m.low (m.low k).getLevel = m.low k := by
  have h := (m.low k).low_eq_self le_rfl
  rwa [low_low, min_eq_right (m.getLevel_low_le k)] at h

theorem getLevel_low_succ_le_iff (k : Nat) :
    (m.low (k + 1)).getLevel ≤ k ↔ m.mask.testBit k = false := by
  have hmod : m.mask % 2 ^ k < 2 ^ k := Nat.mod_lt _ (by positivity)
  rw [getLevel_le_iff, low_mask, Nat.mod_pow_succ, Nat.testBit_eq_decide_div_mod_eq]
  rcases Nat.mod_two_eq_zero_or_one (m.mask / 2 ^ k) with hbit | hbit
  · simp [hbit, hmod]
  · simp [hbit]

/-- The check of `is_significant` never fails. -/
theorem isSignificant_eq {level : Nat} (h : level < 32) :
    m.isSignificant level = some (level == 0 || m.mask.testBit (level - 1)) := by
  have hbit : ((m.mask >>> (level - 1)) % 2 != 0) = m.mask.testBit (level - 1) := by
    rw [Nat.testBit, Nat.one_and_eq_mod_two]
  have hlevel : ((m.low level).getLevel == level) = (level == 0 || m.mask.testBit (level - 1)) := by
    cases level with
    | zero =>
        have hle := m.getLevel_low_le 0
        simpa using hle
    | succ k =>
        have hle := m.getLevel_low_le (k + 1)
        have hiff := m.getLevel_low_succ_le_iff k
        cases hset : m.mask.testBit k with
        | false =>
            have : (m.low (k + 1)).getLevel ≤ k := hiff.mpr hset
            simp [hset]
            omega
        | true =>
            have : ¬ (m.low (k + 1)).getLevel ≤ k := by simp [hiff, hset]
            simp [hset]
            omega
  simp [isSignificant, apply, h, hbit, hlevel]

theorem getHashI_low {k : Nat} (hk : k ≤ 32) :
    (m.low k).getHashI = ((List.range k).filter m.mask.testBit).length := by
  have hsplit : List.range 32 = List.range k ++ (List.range (32 - k)).map (k + ·) := by
    rw [← List.range_add, Nat.add_sub_cancel' hk]
  have hbelow : (List.range k).filter (m.low k).mask.testBit =
      (List.range k).filter m.mask.testBit := by
    apply List.filter_congr
    intro i hi
    rw [low_mask, Nat.testBit_mod_two_pow]
    simp [List.mem_range.mp hi]
  have habove : ((List.range (32 - k)).map (k + ·)).filter (m.low k).mask.testBit = [] := by
    rw [List.filter_eq_nil_iff]
    intro i hi
    rcases List.mem_map.mp hi with ⟨j, -, rfl⟩
    rw [low_mask, Nat.testBit_mod_two_pow]
    simp
  rw [getHashI, hsplit, List.filter_append, hbelow, habove, List.append_nil]

theorem getHashI_low_le {k : Nat} (hk : k ≤ 32) : (m.low k).getHashI ≤ m.getHashI := by
  rw [getHashI_low m hk, getHashI]
  exact ((List.range_sublist.mpr hk).filter _).length_le

theorem getHashI_low_succ {k : Nat} (hk : k < 32) :
    (m.low (k + 1)).getHashI = (m.low k).getHashI + (m.mask.testBit k).toNat := by
  rw [getHashI_low m (by omega), getHashI_low m (by omega), List.range_succ, List.filter_append,
    List.length_append]
  cases hset : m.mask.testBit k <;> simp [hset]

/-- The significant levels. -/
def levels (m : LevelMask) : List Nat :=
  (List.range 32).filter fun level => m.isSignificant level = some true

/-- The significant levels have the hashes one after the other. -/
theorem map_getHashI_levels (h : m.getLevel < 32) :
    m.levels.map (fun level => (m.low level).getHashI) = List.range (m.getHashI + 1) := by
  suffices hupto : ∀ k < 32, ((List.range (k + 1)).filter
      fun level => m.isSignificant level = some true).map (fun level => (m.low level).getHashI) =
        List.range ((m.low k).getHashI + 1) by
    have hall := hupto 31 (by omega)
    rwa [m.low_eq_self (by omega)] at hall
  intro k hk
  induction k with
  | zero =>
      have hzero := getHashI_low m (k := 0) (by omega)
      simp [List.range_succ, m.isSignificant_eq, hzero]
  | succ k ih =>
      rw [List.range_succ, List.filter_append, List.map_append, ih (by omega),
        getHashI_low_succ m (by omega)]
      cases hset : m.mask.testBit k with
      | false => simp [m.isSignificant_eq hk, hset]
      | true =>
          have hsucc := getHashI_low_succ m (k := k) (by omega)
          simp [m.isSignificant_eq hk, hset, hsucc, List.range_succ]

end LevelMask

/-! ## What a cell shows -/

/-- The levels that can be asked for. -/
abbrev Level := Fin 32

/-- The highest significant level up to `level`. -/
def LevelMask.significant (m : LevelMask) (level : Level) : Level :=
  ⟨(m.low level).getLevel, (m.getLevel_low_le _).trans_lt level.isLt⟩

/-- The level mask, the hashes and the depths of a cell. Only at significant levels
are there new ones. -/
@[ext] structure Look where
  levelMask : LevelMask
  hash : Level → Bytes
  depth : Level → Nat
  hash_eq : ∀ level, hash (levelMask.significant level) = hash level
  depth_eq : ∀ level, depth (levelMask.significant level) = depth level

namespace Look

/-- The lower of a level and a limit. -/
def upTo (limit : Nat) (level : Level) : Level :=
  ⟨min level limit, (min_le_left _ _).trans_lt level.isLt⟩

theorem upTo_eq_self {limit : Nat} {level : Level} (h : level ≤ limit) : upTo limit level = level :=
  Fin.ext (min_eq_left h)

theorem upTo_upTo (limit limit' : Nat) (level : Level) :
    upTo limit (upTo limit' level) = upTo (min limit limit') level := by
  apply Fin.ext
  simp only [upTo]
  omega

/-- A cut mask has the significant levels up to the cut. -/
theorem upTo_significant_low (m : LevelMask) (limit : Nat) (level : Level) :
    upTo limit ((m.low limit).significant level) = m.significant (upTo limit level) := by
  have hle := m.getLevel_low_le (min limit level)
  apply Fin.ext
  simp only [upTo, LevelMask.significant, LevelMask.low_low, min_comm (level : Nat) limit]
  omega

/-- What is left of a look up to a level. -/
def cut (look : Look) (limit : Nat) : Look where
  levelMask := look.levelMask.low limit
  hash level := look.hash (upTo limit level)
  depth level := look.depth (upTo limit level)
  hash_eq level := by rw [upTo_significant_low, look.hash_eq]
  depth_eq level := by rw [upTo_significant_low, look.depth_eq]

theorem cut_cut (look : Look) (limit limit' : Nat) :
    (look.cut limit).cut limit' = look.cut (min limit limit') := by
  ext
  · simp [cut]
  · simp only [cut, upTo_upTo]
  · simp only [cut, upTo_upTo]

/-- Above its level a cell shows nothing more. -/
theorem cut_eq_self (look : Look) {limit : Nat} (h : look.levelMask.getLevel ≤ limit) :
    look.cut limit = look := by
  have hsignificant : ∀ level : Level,
      look.levelMask.significant (upTo limit level) = look.levelMask.significant level := by
    intro level
    rw [← upTo_significant_low, look.levelMask.low_eq_self h]
    exact upTo_eq_self ((look.levelMask.getLevel_low_le_getLevel level).trans h)
  ext level
  · exact congrArg LevelMask.mask (look.levelMask.low_eq_self h)
  · rw [cut, ← look.hash_eq, hsignificant, look.hash_eq]
  · rw [cut, ← look.depth_eq, hsignificant, look.depth_eq]

end Look

/-! ## Pruned cells -/

structure PrunnedCellInfo where
  levelMask : LevelMask
  hash : Bytes
  depth : Bytes
deriving DecidableEq, Repr

/-- `PrunnedCell`: what its storage holds. -/
structure PrunnedCell where
  levelMask : LevelMask
  hashes : List Bytes
  depths : List Nat
  length_hashes : hashes.length = levelMask.getHashI + 1
  length_depths : depths.length = levelMask.getHashI + 1
deriving DecidableEq, Repr

/-- The numbers of `td::bitstring`, by the bytes that they are read from or written to.
Their functions are not at hand: a number has the bits that it was read from. -/
structure Bitstring where
  bitsLoadUlong : Bytes → Nat → Nat
  bitsStoreLong : Nat → Nat → Bytes
  bitsLoadUlong_lt : ∀ src bits, bitsLoadUlong src bits < 2 ^ bits
  bitsStoreLong_load : ∀ src bits, src.length * 8 = bits →
    bitsStoreLong (bitsLoadUlong src bits) bits = src

/-- Numbers that start with their high bytes. -/
def bigEndian : Bitstring where
  bitsLoadUlong src bits := BigEndian.ofBytes (src.take (bits / 8))
  bitsStoreLong val bits := BigEndian.toBytes (bits / 8) val
  bitsLoadUlong_lt := by
    intro src bits
    have hlength : (src.take (bits / 8)).length * 8 ≤ bits := by
      rw [List.length_take]
      omega
    refine (BigEndian.ofBytes_lt _).trans_le ?_
    rw [show 256 = 2 ^ 8 by rfl, ← pow_mul, mul_comm]
    exact Nat.pow_le_pow_right (by omega) hlength
  bitsStoreLong_load := by
    intro src bits hbits
    have hlength : bits / 8 = src.length := by omega
    rw [hlength, List.take_length, BigEndian.toBytes_ofBytes]

/-- `DataCell::depth_bits` -/
def depthBits : Nat := depthBytes * 8

section Depths

variable (bitstring : Bitstring)

/-- `DataCell::store_depth` -/
def storeDepth (depth : Nat) : Bytes := bitstring.bitsStoreLong depth depthBits

/-- `DataCell::load_depth` -/
def loadDepth (src : Bytes) : Nat := bitstring.bitsLoadUlong src depthBits &&& 0xffff

/-- The mask of `load_depth` leaves all bits. -/
theorem storeDepth_loadDepth {src : Bytes} (h : src.length = depthBytes) :
    storeDepth bitstring (loadDepth bitstring src) = src := by
  have hlt : bitstring.bitsLoadUlong src depthBits < 2 ^ 16 := bitstring.bitsLoadUlong_lt src _
  rw [storeDepth, loadDepth, show 0xffff = 2 ^ 16 - 1 by rfl,
    Nat.and_two_pow_sub_one_of_lt_two_pow hlt, bitstring.bitsStoreLong_load]
  rw [h, depthBits]

end Depths

namespace PrunnedCell

variable (bitstring : Bitstring)

/-- `Info` keeps three bits of the mask. -/
theorem low_three {m : LevelMask} (h : m.getLevel ≤ maxLevel) : m.low 3 = m := m.low_eq_self h

/-- The hashes that `init` copies into the storage. -/
def storedHashes (info : PrunnedCellInfo) : List Bytes :=
  (List.range (getHashesCount info.levelMask.mask)).map fun i =>
    Chunks.slice info.hash (i * hashBytes) hashBytes

/-- The depths that `init` reads into the storage. -/
def storedDepths (info : PrunnedCellInfo) : List Nat :=
  (List.range (getHashesCount info.levelMask.mask)).map fun i =>
    loadDepth bitstring (Chunks.slice info.depth (i * depthBytes) depthBytes)

/-- `PrunnedCell::init`: there is none when a check fails. -/
def init (info : PrunnedCellInfo) (h : info.levelMask.getLevel ≤ maxLevel) :
    Option (Result PrunnedCell) :=
  let n := getHashesCount info.levelMask.mask
  if info.hash.length = n * hashBytes ∧ info.depth.length = n * depthBytes then
    if (storedDepths bitstring info).any (maxDepth < ·) then
      some (.error ⟨0, "Depth is too big"⟩)
    else
      some (.ok
        { levelMask := info.levelMask.low 3
          hashes := storedHashes info
          depths := storedDepths bitstring info
          length_hashes := by
            rw [low_three h, storedHashes, List.length_map, List.length_range,
              LevelMask.getHashesCount_eq]
          length_depths := by
            rw [low_three h, storedDepths, List.length_map, List.length_range,
              LevelMask.getHashesCount_eq] })
  else none

def create (info : PrunnedCellInfo) : Option (Result PrunnedCell) :=
  if h : info.levelMask.getLevel ≤ maxLevel then init bitstring info h
  else some (.error ⟨0, "Level is too big"⟩)

def doGetHash (cell : PrunnedCell) (level : Nat) : Option Bytes :=
  (cell.levelMask.apply level).bind fun levelMask => cell.hashes[levelMask.getHashI]?

def doGetDepth (cell : PrunnedCell) (level : Nat) : Option Nat :=
  (cell.levelMask.apply level).bind fun levelMask => cell.depths[levelMask.getHashI]?

variable {bitstring} {info : PrunnedCellInfo} {cell : PrunnedCell}

/-- A slice that lies within the data has its length. -/
theorem length_slice {data : Bytes} {n width i : Nat} (h : data.length = n * width) (hi : i < n) :
    (Chunks.slice data (i * width) width).length = width := by
  have hle : (i + 1) * width ≤ n * width := Nat.mul_le_mul_right width hi
  rw [Nat.succ_mul] at hle
  rw [Chunks.slice, List.length_take, List.length_drop]
  omega

/-- Entries of one width, one after the other, are data. -/
structure Entries (entries : List Bytes) (width : Nat) (data : Bytes) : Prop where
  flatten : entries.flatten = data
  length : ∀ entry ∈ entries, entry.length = width

theorem entries_slices {data : Bytes} {n width : Nat} (h : data.length = n * width) :
    Entries ((List.range n).map fun i => Chunks.slice data (i * width) width) width data where
  flatten := by rw [Chunks.flatten_slices, ← h, List.take_length]
  length := by
    intro entry hmem
    rcases List.mem_map.mp hmem with ⟨i, hi, rfl⟩
    exact length_slice h (List.mem_range.mp hi)

/-- The cell that `create` makes has all that it was given. -/
theorem create_eq_ok (h : create bitstring info = some (.ok cell)) :
    info.levelMask.getLevel ≤ maxLevel ∧ cell.levelMask = info.levelMask ∧
      Entries cell.hashes hashBytes info.hash ∧
      Entries (cell.depths.map (storeDepth bitstring)) depthBytes info.depth := by
  unfold create at h
  split at h
  case isFalse => cases h
  case isTrue hlevel =>
    simp only [init] at h
    split at h
    case isFalse => cases h
    case isTrue hlength =>
      split at h
      case isTrue => cases h
      case isFalse =>
        cases h
        refine ⟨hlevel, low_three hlevel, entries_slices hlength.1, ?_⟩
        have hstored : (storedDepths bitstring info).map (storeDepth bitstring) =
            (List.range (getHashesCount info.levelMask.mask)).map fun i =>
              Chunks.slice info.depth (i * depthBytes) depthBytes := by
          rw [storedDepths, List.map_map]
          apply List.map_congr_left
          intro i hi
          exact storeDepth_loadDepth _ (length_slice hlength.2 (List.mem_range.mp hi))
        rw [hstored]
        exact entries_slices hlength.2

/-- The index of a hash or a depth is within the storage. -/
theorem getHashI_lt (cell : PrunnedCell) (level : Level) :
    (cell.levelMask.low level).getHashI < cell.levelMask.getHashI + 1 :=
  Nat.lt_succ_of_le (LevelMask.getHashI_low_le _ level.isLt.le)

/-- What a pruned cell shows. -/
def look (cell : PrunnedCell) : Look where
  levelMask := cell.levelMask
  hash level := cell.hashes.get
    ⟨(cell.levelMask.low level).getHashI, (cell.getHashI_lt level).trans_eq cell.length_hashes.symm⟩
  depth level := cell.depths.get
    ⟨(cell.levelMask.low level).getHashI, (cell.getHashI_lt level).trans_eq cell.length_depths.symm⟩
  hash_eq level := by simp only [LevelMask.significant, LevelMask.low_getLevel_low]
  depth_eq level := by simp only [LevelMask.significant, LevelMask.low_getLevel_low]

theorem doGetHash_eq (cell : PrunnedCell) (level : Level) :
    cell.doGetHash level = some (cell.look.hash level) := by
  simp [doGetHash, look, LevelMask.apply]

theorem doGetDepth_eq (cell : PrunnedCell) (level : Level) :
    cell.doGetDepth level = some (cell.look.depth level) := by
  simp [doGetDepth, look, LevelMask.apply]

/-- A storage with one entry for each significant level is read entry by entry. -/
theorem map_levels {α : Type} {m : LevelMask} (hlevel : m.getLevel < 32) {entries : List α}
    (hlength : entries.length = m.getHashI + 1) :
    m.levels.map (fun level => (m.apply level).bind fun applied => entries[applied.getHashI]?) =
      entries.map some := by
  have happly : m.levels.map (fun level => (m.apply level).bind fun applied =>
      entries[applied.getHashI]?) =
        (m.levels.map fun level => (m.low level).getHashI).map fun i => entries[i]? := by
    rw [List.map_map]
    apply List.map_congr_left
    intro level hmem
    have hlt : level < 32 := List.mem_range.mp (List.mem_filter.mp hmem).1
    simp [LevelMask.apply, hlt]
  rw [happly, m.map_getHashI_levels hlevel, ← hlength]
  apply List.ext_getElem
  · simp
  · simp

/-- When there is a cell: the level is one of a cell, there is a hash and a depth for
each significant level, and no depth is too big. -/
theorem create_ok_iff : (∃ cell, create bitstring info = some (.ok cell)) ↔
    info.levelMask.getLevel ≤ maxLevel ∧
      info.hash.length = getHashesCount info.levelMask.mask * hashBytes ∧
      info.depth.length = getHashesCount info.levelMask.mask * depthBytes ∧
      ∀ depth ∈ storedDepths bitstring info, depth ≤ maxDepth := by
  unfold create
  split
  case isFalse hlevel => simp [hlevel]
  case isTrue hlevel =>
    simp only [init]
    split
    case isFalse hlength =>
      simp only [reduceCtorEq, exists_false, false_iff]
      intro h
      exact hlength ⟨h.2.1, h.2.2.1⟩
    case isTrue hlength =>
      split
      case isTrue hbig =>
        simp only [List.any_eq_true, decide_eq_true_eq] at hbig
        rcases hbig with ⟨depth, hmem, hlt⟩
        simp only [Option.some.injEq, reduceCtorEq, exists_false, false_iff]
        intro h
        exact absurd (h.2.2.2 depth hmem) (not_le.mpr hlt)
      case isFalse hbig =>
        simp only [List.any_eq_true, decide_eq_true_eq, not_exists, not_and, not_lt] at hbig
        exact ⟨fun _ => ⟨hlevel, hlength.1, hlength.2, hbig⟩, fun _ => ⟨_, rfl⟩⟩

/-- **A pruned cell shows what it was given.** There is a cell for an info of a cell's
level with a hash and a depth for each significant level, no depth of which is too big.
Its hashes and depths at these levels are those of the info, in their order. -/
theorem create_readBack (bitstring : Bitstring) (info : PrunnedCellInfo) :
    ((∃ cell, create bitstring info = some (.ok cell)) ↔
      info.levelMask.getLevel ≤ maxLevel ∧
        info.hash.length = getHashesCount info.levelMask.mask * hashBytes ∧
        info.depth.length = getHashesCount info.levelMask.mask * depthBytes ∧
        ∀ depth ∈ storedDepths bitstring info, depth ≤ maxDepth) ∧
    ∀ cell, create bitstring info = some (.ok cell) → cell.levelMask = info.levelMask ∧
      ∃ (hashes : List Bytes) (depths : List Nat),
        info.levelMask.levels.map cell.doGetHash = hashes.map some ∧
        Entries hashes hashBytes info.hash ∧
        info.levelMask.levels.map cell.doGetDepth = depths.map some ∧
        Entries (depths.map (storeDepth bitstring)) depthBytes info.depth := by
  refine ⟨create_ok_iff, ?_⟩
  intro cell h
  rcases create_eq_ok h with ⟨hlevel, hmask, hhash, hdepth⟩
  refine ⟨hmask, ?_⟩
  rw [← hmask] at hlevel ⊢
  have hlt : cell.levelMask.getLevel < 32 := hlevel.trans_lt (by decide)
  exact ⟨cell.hashes, cell.depths, map_levels hlt cell.length_hashes, hhash,
    map_levels hlt cell.length_depths, hdepth⟩

/-- A cell with hashes and depths for the levels 0, 1 and 3. -/
def threeHashes : PrunnedCellInfo where
  levelMask := ⟨5, by decide⟩
  hash := List.replicate hashBytes 10 ++ List.replicate hashBytes 11 ++ List.replicate hashBytes 12
  depth := [0, 7, 1, 2, 4, 0]

theorem create_threeHashes :
    ∃ cell, create bigEndian threeHashes = some (.ok cell) ∧
      ∃ (hashes : List Bytes) (depths : List Nat),
        [0, 1, 3].map cell.doGetHash = hashes.map some ∧
        Entries hashes hashBytes threeHashes.hash ∧
        [0, 1, 3].map cell.doGetDepth = depths.map some ∧
        Entries (depths.map (storeDepth bigEndian)) depthBytes threeHashes.depth := by
  have hspec := create_readBack bigEndian threeHashes
  rcases hspec.1.mpr (by decide) with ⟨cell, hcell⟩
  rcases hspec.2 cell hcell with ⟨_, hread⟩
  have hlevels : threeHashes.levelMask.levels = [0, 1, 3] := by decide
  rw [hlevels] at hread
  exact ⟨cell, hcell, hread⟩

end PrunnedCell

/-! ## Virtual cells -/

/-- `VirtualizationParameters::max_level` -/
def maxVirtLevel : Nat := 255

structure VirtualizationParameters where
  level : Nat := maxVirtLevel
  virtualization : Nat := 0
  level_le : level ≤ maxVirtLevel := by decide
  /-- the check of the constructor -/
  virtualization_ne : virtualization ≠ 0 ∨ level = maxVirtLevel := by decide
deriving DecidableEq, Repr

/-- `VirtualizationParameters::apply` -/
def VirtualizationParameters.apply (virt outer : VirtualizationParameters) :
    Option VirtualizationParameters :=
  if virt.level ≤ outer.level then some virt
  else if virt.virtualization ≤ outer.virtualization then some outer
  else none

/-- A data cell, by what its virtual cells depend on. `DataCell::do_get_hash` and
`DataCell::do_get_depth` are not at hand: what they give comes with the cell. -/
structure LevelCell extends DataCell where
  look : Look
  virtualization : Nat
  look_levelMask : look.levelMask.mask = levelMask

/-- The cells that stand for themselves. -/
inductive Plain where
  | data (cell : LevelCell)
  | prunned (cell : PrunnedCell)

inductive Cell where
  | plain (cell : Plain)
  /-- `VirtualCell` -/
  | virtual (virt : VirtualizationParameters) (cell : Cell)

namespace Plain

def look : Plain → Look
  | .data cell => cell.look
  | .prunned cell => cell.look

/-- A level that cannot be asked for fails a check. -/
def getHash : Plain → Nat → Option Bytes
  | .data cell, level => if h : level < 32 then some (cell.look.hash ⟨level, h⟩) else none
  | .prunned cell, level => cell.doGetHash level

def getDepth : Plain → Nat → Option Nat
  | .data cell, level => if h : level < 32 then some (cell.look.depth ⟨level, h⟩) else none
  | .prunned cell, level => cell.doGetDepth level

def getVirtualization : Plain → Nat
  | .data cell => cell.virtualization
  | .prunned _ => 0

end Plain

/-- `LoadedCell` -/
structure LoadedCell where
  dataCell : LevelCell
  virt : VirtualizationParameters

namespace Cell

def getLevelMask : Cell → Option LevelMask
  | .plain cell => some cell.look.levelMask
  | .virtual virt cell => do (← cell.getLevelMask).apply virt.level

/-- `VirtualCell::fix_level` -/
def fixLevel (levelMask : LevelMask) (level : Nat) : Option Nat :=
  (levelMask.apply level).map LevelMask.getLevel

def getHash : Cell → Nat → Option Bytes
  | .plain cell, level => cell.getHash level
  | .virtual virt cell, level => do
      let levelMask ← (Cell.virtual virt cell).getLevelMask
      cell.getHash (← fixLevel levelMask level)

def getDepth : Cell → Nat → Option Nat
  | .plain cell, level => cell.getDepth level
  | .virtual virt cell, level => do
      let levelMask ← (Cell.virtual virt cell).getLevelMask
      cell.getDepth (← fixLevel levelMask level)

def getVirtualization : Cell → Nat
  | .plain cell => cell.getVirtualization
  | .virtual virt _ => virt.virtualization

def loadCell : Cell → Option (Result LoadedCell)
  | .plain (.data cell) => some (.ok ⟨cell, {}⟩)
  | .plain (.prunned _) => some (.error ⟨0, "Can't load prunned branch"⟩)
  | .virtual virt cell => do
      match ← cell.loadCell with
      | .ok loaded =>
          let virt ← loaded.virt.apply virt
          some (.ok { loaded with virt })
      | .error status => some (.error status)

/-- `VirtualCell::create` -/
def create (virt : VirtualizationParameters) (cell : Cell) : Option Cell := do
  let levelMask ← cell.getLevelMask
  if levelMask.getLevel ≤ virt.level then some cell
  else if cell.getVirtualization ≤ virt.virtualization then some (.virtual virt cell)
  else none

/-- `VirtualCell::virtualize`. That of other cells is not at hand. -/
def virtualize : Cell → VirtualizationParameters → Option Cell
  | .plain _, _ => none
  | .virtual virt cell, outer => do
      let newVirt ← virt.apply outer
      if newVirt = virt then some (.virtual virt cell) else create newVirt cell

/-- The two ways to see a cell up to a level. -/
inductive Act where
  | create (virt : VirtualizationParameters)
  | virtualize (virt : VirtualizationParameters)
deriving DecidableEq, Repr

def Act.virt : Act → VirtualizationParameters
  | .create virt => virt
  | .virtualize virt => virt

def step (cell : Cell) : Act → Option Cell
  | .create virt => create virt cell
  | .virtualize virt => cell.virtualize virt

/-- The least of the levels. -/
def leastLevel (acts : List Act) : Nat :=
  (acts.map fun act => act.virt.level).foldr min maxVirtLevel

/-! ## What virtual cells show -/

/-- No check fails, and what is shown is `look`. -/
structure Looks (cell : Cell) (look : Look) : Prop where
  levelMask : cell.getLevelMask = some look.levelMask
  hash : ∀ level : Level, cell.getHash level = some (look.hash level)
  depth : ∀ level : Level, cell.getDepth level = some (look.depth level)

variable {cell cell' : Cell} {plainCell : Plain} {look look' : Look}
  {virt outer : VirtualizationParameters}

theorem looks_plain (plainCell : Plain) : (plain plainCell).Looks plainCell.look := by
  cases plainCell with
  | data cell => exact ⟨rfl, fun level => dif_pos level.isLt, fun level => dif_pos level.isLt⟩
  | prunned cell => exact ⟨rfl, cell.doGetHash_eq, cell.doGetDepth_eq⟩

theorem Looks.unique (h : cell.Looks look) (h' : cell.Looks look') : look = look' := by
  have hmask := Option.some.inj (h.levelMask.symm.trans h'.levelMask)
  ext level
  · rw [hmask]
  · rw [Option.some.inj ((h.hash level).symm.trans (h'.hash level))]
  · exact Option.some.inj ((h.depth level).symm.trans (h'.depth level))

/-- A virtual cell shows what is left up to its level. -/
theorem Looks.virtual (h : cell.Looks look) (hlevel : virt.level < 32) :
    (Cell.virtual virt cell).Looks (look.cut virt.level) := by
  have hmask : (Cell.virtual virt cell).getLevelMask = some (look.levelMask.low virt.level) := by
    simp [getLevelMask, h.levelMask, LevelMask.apply, hlevel]
  have hfix : ∀ level : Level, fixLevel (look.levelMask.low virt.level) level =
      some ((look.levelMask.low virt.level).significant level) := by
    intro level
    simp [fixLevel, LevelMask.apply, LevelMask.significant]
  -- the level that is asked for below is not above that of the virtual cell
  have hupTo : ∀ level : Level, Look.upTo virt.level
      ((look.levelMask.low virt.level).significant level) =
        (look.levelMask.low virt.level).significant level := by
    intro level
    apply Look.upTo_eq_self
    exact (LevelMask.getLevel_low_le_getLevel _ level).trans (look.levelMask.getLevel_low_le _)
  constructor
  case levelMask => exact hmask
  case hash =>
    intro level
    have heq := (look.cut virt.level).hash_eq level
    simp only [Look.cut, hupTo] at heq
    simp [getHash, hmask, hfix, h.hash, heq, Look.cut]
  case depth =>
    intro level
    have heq := (look.cut virt.level).depth_eq level
    simp only [Look.cut, hupTo] at heq
    simp [getDepth, hmask, hfix, h.depth, heq, Look.cut]

/-! ## Cells that were made -/

/-- What `create` sees to: a virtual cell has a lower level than the cell it is made
of, and no less virtualization. -/
def Made : Cell → Prop
  | .plain _ => True
  | .virtual virt cell =>
      cell.Made ∧
        (∀ levelMask, cell.getLevelMask = some levelMask → virt.level < levelMask.getLevel) ∧
        cell.getVirtualization ≤ virt.virtualization

/-- The cell inside. -/
def base : Cell → Plain
  | .plain base => base
  | .virtual _ cell => cell.base

/-- The least of the levels around it. -/
def limit : Cell → Nat
  | .plain _ => maxVirtLevel
  | .virtual virt cell => min cell.limit virt.level

theorem Made.looks (h : cell.Made) : cell.Looks (cell.base.look.cut cell.limit) := by
  induction cell with
  | plain base =>
      rw [limit, Look.cut_eq_self]
      · exact looks_plain base
      · exact (LevelMask.getLevel_le _).trans (by decide)
  | virtual virt cell ih =>
      rcases h with ⟨hmade, hbelow, -⟩
      have hlooks := ih hmade
      have hlevel := (hbelow _ hlooks.levelMask).trans_le (LevelMask.getLevel_le _)
      rw [limit, ← Look.cut_cut]
      exact hlooks.virtual hlevel

/-- When the check of the constructor does not fail. -/
theorem exists_create_iff (h : cell.Looks look) :
    (∃ cell', create virt cell = some cell') ↔
      look.levelMask.getLevel ≤ virt.level ∨ cell.getVirtualization ≤ virt.virtualization := by
  simp only [create, h.levelMask, Option.bind_eq_bind, Option.bind_some]
  split
  case isTrue hle => simp [hle]
  case isFalse hlt => simp [hlt]

theorem looks_of_create (hmade : cell.Made) (h : cell.Looks look)
    (hcreate : create virt cell = some cell') :
    cell'.Made ∧ cell'.base = cell.base ∧ cell'.Looks (look.cut virt.level) := by
  simp only [create, h.levelMask, Option.bind_eq_bind, Option.bind_some] at hcreate
  split at hcreate
  case isTrue hle =>
    -- the cell shows nothing above the level
    cases hcreate
    rw [look.cut_eq_self hle]
    exact ⟨hmade, rfl, h⟩
  case isFalse hlt =>
    split at hcreate
    case isFalse => cases hcreate
    case isTrue hvirtualization =>
      cases hcreate
      have hlevel : virt.level < 32 := (not_le.mp hlt).trans_le (LevelMask.getLevel_le _)
      refine ⟨⟨hmade, ?_, hvirtualization⟩, rfl, h.virtual hlevel⟩
      intro levelMask hmask
      cases h.levelMask.symm.trans hmask
      exact not_le.mp hlt

theorem looks_of_virtualize (hmade : cell.Made) (h : cell.Looks look)
    (hvirtualize : cell.virtualize outer = some cell') :
    cell'.Made ∧ cell'.base = cell.base ∧ cell'.Looks (look.cut outer.level) := by
  cases cell with
  | plain base => cases hvirtualize
  | virtual virt cell =>
      have hinner := hmade.1.looks
      have hlevel := (hmade.2.1 _ hinner.levelMask).trans_le (LevelMask.getLevel_le _)
      have hmask := hinner.virtual hlevel
      rw [h.unique hmask, Look.cut_cut]
      by_cases hle : virt.level ≤ outer.level
      · simp only [virtualize, VirtualizationParameters.apply, if_pos hle, Option.bind_eq_bind,
          Option.bind_some, if_true] at hvirtualize
        cases hvirtualize
        rw [min_eq_left hle]
        exact ⟨hmade, rfl, hmask⟩
      · have hne : outer ≠ virt := by
          intro heq
          exact hle (heq ▸ le_rfl)
        rw [min_eq_right (not_le.mp hle).le]
        simp only [virtualize, VirtualizationParameters.apply, if_neg hle] at hvirtualize
        split at hvirtualize
        case isFalse => cases hvirtualize
        case isTrue =>
          simp only [Option.bind_eq_bind, Option.bind_some, if_neg hne] at hvirtualize
          rcases looks_of_create hmade.1 hinner hvirtualize with ⟨hmade', hbase, hlooks⟩
          exact ⟨hmade', hbase, hlooks⟩

theorem looks_of_step {act : Act} (hmade : cell.Made) (h : cell.Looks look)
    (hstep : cell.step act = some cell') :
    cell'.Made ∧ cell'.base = cell.base ∧ cell'.Looks (look.cut act.virt.level) := by
  cases act with
  | create virt => exact looks_of_create hmade h hstep
  | virtualize virt => exact looks_of_virtualize hmade h hstep

theorem looks_of_steps {acts : List Act} (hmade : cell.Made) (h : cell.Looks look)
    (hrun : Steps.run step cell acts = some cell') :
    cell'.Made ∧ cell'.base = cell.base ∧ cell'.Looks (look.cut (leastLevel acts)) := by
  induction acts generalizing cell look with
  | nil =>
      cases hrun
      rw [Look.cut_eq_self]
      · exact ⟨hmade, rfl, h⟩
      · exact (LevelMask.getLevel_le _).trans (by decide)
  | cons act acts ih =>
      rcases Steps.run_cons_eq_some_iff.mp hrun with ⟨next, hstep, hrest⟩
      rcases looks_of_step hmade h hstep with ⟨hmade', hbase, hlooks⟩
      rcases ih hmade' hlooks hrest with ⟨hmade'', hbase', hlooks'⟩
      rw [Look.cut_cut] at hlooks'
      exact ⟨hmade'', hbase'.trans hbase, hlooks'⟩

/-! ## Loading -/

theorem Made.virtualization_le (h : cell.Made) :
    cell.base.getVirtualization ≤ cell.getVirtualization := by
  induction cell with
  | plain plainCell => exact le_rfl
  | virtual virt cell ih => exact (ih h.1).trans h.2.2

/-- What is loaded is the cell inside, with the least of the levels. No check of
`apply` fails. -/
theorem Made.load {data : LevelCell} (h : cell.Made) (hbase : cell.base = .data data) :
    ∃ virt, cell.loadCell = some (.ok ⟨data, virt⟩) ∧ virt.level = cell.limit ∧
      virt.virtualization ≤ cell.getVirtualization ∧
      (virt.level = maxVirtLevel ∨ data.virtualization ≤ virt.virtualization) := by
  induction cell with
  | plain plainCell =>
      cases hbase
      exact ⟨{}, rfl, rfl, Nat.zero_le _, .inl rfl⟩
  | virtual virt cell ih =>
      rcases h with ⟨hmade, hbelow, hvirtualization⟩
      rcases ih hmade hbase with ⟨loaded, hload, hlevel, hle, hdata⟩
      by_cases hlower : loaded.level ≤ virt.level
      · refine ⟨loaded, ?_, ?_, hle.trans hvirtualization, hdata⟩
        · simp [loadCell, hload, VirtualizationParameters.apply, hlower]
        · rw [limit, ← hlevel, min_eq_left hlower]
      · have hcheck : loaded.virtualization ≤ virt.virtualization := hle.trans hvirtualization
        refine ⟨virt, ?_, ?_, le_rfl, .inr ?_⟩
        · simp [loadCell, hload, VirtualizationParameters.apply, hlower, hcheck]
        · rw [limit, ← hlevel, min_eq_right (not_le.mp hlower).le]
        · have hinside := hmade.virtualization_le
          have hinner : cell.base = .data data := hbase
          rw [hinner] at hinside
          exact hinside.trans hvirtualization

theorem Made.load_prunned {prunned : PrunnedCell} (h : cell.base = .prunned prunned) :
    cell.loadCell = some (.error ⟨0, "Can't load prunned branch"⟩) := by
  induction cell with
  | plain plainCell =>
      cases h
      rfl
  | virtual virt cell ih => simp [loadCell, ih h]

/-- A data cell can be seen up to the level that it was loaded with. -/
theorem Made.create_load {data : LevelCell} (h : cell.Made) (hbase : cell.base = .data data)
    (hlooks : cell.Looks look) :
    ∃ virt cell', cell.loadCell = some (.ok ⟨data, virt⟩) ∧
      create virt (.plain (.data data)) = some cell' ∧ cell'.Looks look := by
  rcases h.load hbase with ⟨virt, hload, hlevel, -, hdata⟩
  have hlook := hlooks.unique h.looks
  rw [hbase, ← hlevel] at hlook
  have hcheck : data.look.levelMask.getLevel ≤ virt.level ∨
      data.virtualization ≤ virt.virtualization := by
    rcases hdata with hmax | hcheck
    · exact .inl ((LevelMask.getLevel_le _).trans (hmax ▸ by decide))
    · exact .inr hcheck
  rcases (exists_create_iff (looks_plain (.data data))).mpr hcheck with ⟨cell', hcreate⟩
  have hmade : (plain (.data data)).Made := trivial
  rcases looks_of_create hmade (looks_plain _) hcreate with ⟨-, -, hlooks'⟩
  exact ⟨virt, cell', hload, hcreate, hlook ▸ hlooks'⟩

/-- What loading a cell gives, where there is `plainCell` inside: a data cell that shows
`look` again once it is seen up to the level that comes with it. A pruned cell
cannot be loaded. -/
def Loads (cell : Cell) (look : Look) : Plain → Prop
  | .data data => ∃ virt cell', cell.loadCell = some (.ok ⟨data, virt⟩) ∧
      create virt (.plain (.data data)) = some cell' ∧ cell'.Looks look
  | .prunned _ => cell.loadCell = some (.error ⟨0, "Can't load prunned branch"⟩)

theorem Made.loads (h : cell.Made) (hlooks : cell.Looks look) : cell.Loads look cell.base := by
  cases hbase : cell.base with
  | data data => exact h.create_load hbase hlooks
  | prunned prunned => exact Made.load_prunned hbase

/-- **Virtualization.** Whatever virtual cells are made of a cell, one of the other or
one in place of the other, on every run that passes its checks what they show is the
cell up to the least of the levels. Loading keeps to it. -/
theorem looks_of_run {acts : List Act} (hrun : Steps.run step (.plain plainCell) acts = some cell) :
    cell.Looks (plainCell.look.cut (leastLevel acts)) ∧
      cell.Loads (plainCell.look.cut (leastLevel acts)) plainCell := by
  have hplain : (plain plainCell).Made := trivial
  rcases looks_of_steps hplain (looks_plain _) hrun with ⟨hmade, hbase, hlooks⟩
  have hloads := hmade.loads hlooks
  rw [hbase] at hloads
  exact ⟨hlooks, hloads⟩

/-- A data cell with three levels. -/
def threeLevels : LevelCell where
  bits := 0
  refsCount := 0
  levelMask := 7
  bits_le := Nat.zero_le _
  refsCount_le := Nat.zero_le _
  levelMask_lt := by decide
  look :=
    { levelMask := ⟨7, by decide⟩
      hash level := [UInt8.ofNat (LevelMask.significant ⟨7, by decide⟩ level)]
      depth level := LevelMask.significant ⟨7, by decide⟩ level
      hash_eq level := by simp only [LevelMask.significant, LevelMask.low_getLevel_low]
      depth_eq level := by simp only [LevelMask.significant, LevelMask.low_getLevel_low] }
  virtualization := 0
  look_levelMask := rfl

/-- One virtual cell in place of another, and one of that. -/
def seen : List Act :=
  [.create { level := 2, virtualization := 1 }, .virtualize { level := 1, virtualization := 1 },
    .create { level := 0, virtualization := 2 }]

theorem looks_of_seen :
    ∃ cell, Steps.run step (.plain (.data threeLevels)) seen = some cell ∧
      cell.Looks (threeLevels.look.cut 0) := by
  have hrun : ∃ cell, Steps.run step (.plain (.data threeLevels)) seen = some cell := ⟨_, rfl⟩
  rcases hrun with ⟨cell, hrun⟩
  exact ⟨cell, hrun, (looks_of_run hrun).1⟩

end Cell

end TonEncoder.Virtualization

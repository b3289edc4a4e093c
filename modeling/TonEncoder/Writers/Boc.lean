import TonEncoder.Codec.BigEndian
import TonEncoder.Codec.Crc
import TonEncoder.Writers.Files

/-! # The writers of `vm/boc-writers.h`

A bag of cells is stored through a writer: `BufferWriter` fills a region of
memory, `FileWriter` collects the bytes in a buffer of its own and hands them to
a file whenever the buffer is full. What is stored is decided by a client that
is written once for both (`serialize_to_impl` is a template over the writer).

`Client.writeToBuffer` and `Client.writeToFile` run a client on a fresh writer of
either kind. The checks of the writers are those of `DCHECK`, which are compiled in
where `NDEBUG` is not defined.
-/

namespace TonEncoder

open Process

/-! ## Checksums -/

/-- `td::crc32c` and `td::crc32c_extend`: a checksum is extended by the bytes
that follow. -/
structure Crc32c where
  crc32c : Bytes → UInt32
  crc32cExtend : UInt32 → Bytes → UInt32
  crc32cExtend_crc32c : ∀ start rest, crc32cExtend (crc32c start) rest = crc32c (start ++ rest)

/-- The checksum with the polynomial of Castagnoli. -/
def castagnoli : Crc32c where
  crc32c := Crc.crc 0x82F63B78
  crc32cExtend := Crc.extend 0x82F63B78
  crc32cExtend_crc32c := Crc.extend_crc 0x82F63B78

example : castagnoli.crc32c [0x31, 0x32, 0x33, 0x34, 0x35, 0x36, 0x37, 0x38, 0x39] = 0xE3069283 := by
  decide +kernel

/-! ## The buffer writer -/

/-- `BufferWriter`: the bytes from `store_start` to `store_ptr`, in a region
that ends at `store_end`. -/
structure BufferWriter where
  stored : Bytes
  size : Nat
  stored_le : stored.length ≤ size

namespace BufferWriter

/-- A writer at the start of a region. -/
def new (size : Nat) : BufferWriter := ⟨[], size, Nat.zero_le size⟩

def position (writer : BufferWriter) : Nat := writer.stored.length

def remaining (writer : BufferWriter) : Nat := writer.size - writer.position

def empty (writer : BufferWriter) : Bool := writer.position == writer.size

/-- The store pointer moves over `data`, and `chk` looks at where it is. -/
def put (writer : BufferWriter) (data : Bytes) : Option BufferWriter :=
  if h : (writer.stored ++ data).length ≤ writer.size then
    some ⟨writer.stored ++ data, writer.size, h⟩
  else
    none

/-- The loop of `store_uint`, which goes from the last byte to the first. -/
def storeUintLoop : UInt64 → Nat → Bytes → Bytes
  | _, 0, tail => tail
  | value, bytes + 1, tail => storeUintLoop (value >>> 8) bytes ((value &&& 0xff).toUInt8 :: tail)

def storeUint (writer : BufferWriter) (value : UInt64) (bytes : Nat) : Option BufferWriter :=
  writer.put (storeUintLoop value bytes [])

def storeBytes (writer : BufferWriter) (data : Bytes) : Option BufferWriter :=
  writer.put data

def getCrc32 (crc : Crc32c) (writer : BufferWriter) : UInt32 := crc.crc32c writer.stored

@[simp] theorem new_stored (size : Nat) : (new size).stored = [] := rfl
@[simp] theorem new_size (size : Nat) : (new size).size = size := rfl

theorem put_eq_some_iff {writer writer' : BufferWriter} {data : Bytes} :
    writer.put data = some writer' ↔
      writer'.stored = writer.stored ++ data ∧ writer'.size = writer.size := by
  constructor
  · intro hput
    unfold put at hput
    split at hput
    · cases hput
      exact ⟨rfl, rfl⟩
    · cases hput
  · intro h
    obtain ⟨stored, size, stored_le⟩ := writer'
    obtain ⟨rfl, rfl⟩ := h
    exact dif_pos stored_le

theorem put_eq_none_iff {writer : BufferWriter} {data : Bytes} :
    writer.put data = none ↔ writer.size < writer.position + data.length := by
  unfold put position
  split <;> rename_i h <;> rw [List.length_append] at h <;> simp <;> omega

/-- `store_uint` stores the low bytes of the value, the highest of them first. -/
theorem storeUintLoop_eq (value : UInt64) (bytes : Nat) (tail : Bytes) :
    storeUintLoop value bytes tail = BigEndian.toBytes bytes value.toNat ++ tail := by
  induction bytes generalizing value tail with
  | zero => rfl
  | succ bytes ih =>
      have hbyte : (value &&& 0xff).toUInt8 = UInt8.ofNat value.toNat := by
        apply UInt8.toNat_inj.mp
        have hmask : ∀ n : Nat, n &&& 255 = n % 256 := fun n => Nat.and_two_pow_sub_one_eq_mod n 8
        simp [hmask]
      have hshift : (value >>> 8).toNat = value.toNat / 256 := by
        simp [Nat.shiftRight_eq_div_pow]
      rw [storeUintLoop, ih, hbyte, hshift, BigEndian.toBytes_succ, List.append_assoc]
      rfl

end BufferWriter

/-! ## The file writer -/

/-- `FileWriter`. `res` is the status of the first call that failed; the file is
the one `fd` refers to. -/
structure FileWriter where
  disk : Disk
  expectedSize : Nat
  flushedSize : Nat
  currentCrc32 : UInt32
  writer : BufferWriter
  res : Option Status

namespace FileWriter

variable (crc : Crc32c) (fd : FileFd)

/-- `BUF_SIZE` -/
def bufSize : Nat := 1 <<< 22

def new (disk : Disk) (expectedSize : Nat) : FileWriter where
  disk
  expectedSize
  flushedSize := 0
  currentCrc32 := crc.crc32c []
  writer := .new bufSize
  res := none

def position (file : FileWriter) : Nat := file.flushedSize + file.writer.position

/-- The difference is taken in `size_t`. -/
def remaining (file : FileWriter) : Nat :=
  (file.expectedSize + 2 ^ 64 - file.position) % 2 ^ 64

def chk (file : FileWriter) : Bool := file.position ≤ file.expectedSize

def empty (file : FileWriter) : Bool := file.remaining == 0

/-- The checksum goes on from the flushed bytes over those in the buffer. -/
def getCrc32 (file : FileWriter) : UInt32 :=
  crc.crc32cExtend file.currentCrc32 file.writer.stored

/-- `flush`: the buffer counts as flushed whether or not the file takes it, and
after an error nothing more is written. -/
def flush (file : FileWriter) : Option FileWriter :=
  if file.chk then
    if file.writer.stored = [] then
      some file
    else
      let written :=
        match file.res with
        | none => fd.writeLoop file.disk file.writer.stored
        | some status => (file.disk, some status)
      some
        { disk := written.1
          expectedSize := file.expectedSize
          flushedSize := file.flushedSize + file.writer.position
          currentCrc32 := file.getCrc32 crc
          writer := .new bufSize
          res := written.2 }
  else
    none

/-- `flush_if_needed`, with its check that `s` bytes fit in the buffer at all. -/
def flushIfNeeded (file : FileWriter) (s : Nat) : Option FileWriter :=
  if s ≤ bufSize then
    if bufSize - file.writer.position < s then file.flush crc fd else some file
  else
    none

def storeUint (file : FileWriter) (value : UInt64) (bytes : Nat) : Option FileWriter :=
  (file.flushIfNeeded crc fd bytes).bind fun file =>
    (file.writer.storeUint value bytes).map fun writer => { file with writer }

def storeBytes (file : FileWriter) (data : Bytes) : Option FileWriter :=
  (file.flushIfNeeded crc fd data.length).bind fun file =>
    (file.writer.storeBytes data).map fun writer => { file with writer }

/-- `finalize`: the status is moved out of the writer. -/
def finalize (file : FileWriter) : Option (Option Status × FileWriter) :=
  (file.flush crc fd).map fun file => (file.res, { file with res := none })

/-- The destructor flushes once more. -/
def destroy (file : FileWriter) : Option Disk := (file.flush crc fd).map FileWriter.disk

end FileWriter

/-! ## Clients -/

/-- What a writer shows of itself. -/
structure Observation where
  position : Nat
  remaining : Nat
  empty : Bool
  crc32 : UInt32
deriving DecidableEq, Repr

/-- The members that a template over the writer may use. -/
structure WriterT (W : Type) where
  storeUint : W → UInt64 → Nat → Option W
  storeBytes : W → Bytes → Option W
  chk : W → Bool
  observe : W → Observation

def BufferWriter.writerT (crc : Crc32c) : WriterT BufferWriter where
  storeUint := BufferWriter.storeUint
  storeBytes := BufferWriter.storeBytes
  chk _ := true
  observe writer := ⟨writer.position, writer.remaining, writer.empty, writer.getCrc32 crc⟩

def FileWriter.writerT (crc : Crc32c) (fd : FileFd) : WriterT FileWriter where
  storeUint := FileWriter.storeUint crc fd
  storeBytes := FileWriter.storeBytes crc fd
  chk := FileWriter.chk
  observe file := ⟨file.position, file.remaining, file.empty, file.getCrc32 crc⟩

/-- A function written once for both writers: it stores, checks, and goes on as
what it sees of the writer tells it to. -/
inductive Client (α : Type) where
  | done (result : α)
  | storeUint (value : UInt64) (bytes : Nat) (next : Client α)
  | storeBytes (data : Bytes) (next : Client α)
  | chk (next : Client α)
  | observe (next : Observation → Client α)

namespace Client

variable {α W : Type}

/-- A failed check ends the run. -/
def run (writerT : WriterT W) : Client α → W → Option (α × W)
  | .done result, writer => some (result, writer)
  | .storeUint value bytes next, writer =>
      (writerT.storeUint writer value bytes).bind (next.run writerT)
  | .storeBytes data next, writer => (writerT.storeBytes writer data).bind (next.run writerT)
  | .chk next, writer => if writerT.chk writer then next.run writerT writer else none
  | .observe next, writer => (next (writerT.observe writer)).run writerT writer

/-- No store of the run is longer than `limit`. -/
def StoresLe (writerT : WriterT W) (limit : Nat) : Client α → W → Prop
  | .done _, _ => True
  | .storeUint value bytes next, writer => bytes ≤ limit ∧
      ∀ writer', writerT.storeUint writer value bytes = some writer' →
        next.StoresLe writerT limit writer'
  | .storeBytes data next, writer => data.length ≤ limit ∧
      ∀ writer', writerT.storeBytes writer data = some writer' →
        next.StoresLe writerT limit writer'
  | .chk next, writer => next.StoresLe writerT limit writer
  | .observe next, writer => (next (writerT.observe writer)).StoresLe writerT limit writer

/-- A client on a buffer of the given size: its result and the stored bytes. -/
def writeToBuffer (crc : Crc32c) (client : Client α) (size : Nat) : Option (α × Bytes) :=
  (client.run (BufferWriter.writerT crc) (.new size)).map fun (result, writer) =>
    (result, writer.stored)

/-- A client on a file, with `finalize` and the destructor after it: its result,
the status and the file. -/
def writeToFile (crc : Crc32c) (fd : FileFd) (client : Client α) (disk : Disk)
    (expectedSize : Nat) : Option (α × Option Status × Disk) :=
  (client.run (FileWriter.writerT crc fd) (.new crc disk expectedSize)).bind
    fun (result, file) => (file.finalize crc fd).bind fun (status, file) =>
      (file.destroy crc fd).map fun disk => (result, status, disk)

end Client

end TonEncoder

import TonEncoder.Writers.Boc

/-! # The file writer refines the buffer writer

A client cannot tell the two writers apart, and what it stores through a file
writer is what it stores in a buffer, for all ways a file takes its bytes. The file
writer takes no store that is longer than its own buffer.

* `FileWriter.Refines` holds of a file writer and the buffer writer that has
  stored the same bytes: those that were flushed, and those still in the buffer.
* A file writer looks at its expected size only when it flushes. Past that size
  (`FileWriter.Overrun`) it goes on, but never to a successful `finalize`.
-/

namespace TonEncoder

open Process

namespace FileWriter

variable {crc : Crc32c} {fd : FileFd} {disk : Disk} {flushed : Bytes} {file : FileWriter}
  {buffer buffer' : BufferWriter}

/-! ## The relation -/

/-- The file writer, which has flushed `flushed`, and the buffer writer hold the
same bytes. -/
structure Refines (crc : Crc32c) (fd : FileFd) (disk : Disk) (flushed : Bytes)
    (file : FileWriter) (buffer : BufferWriter) : Prop where
  expectedSize : file.expectedSize = buffer.size
  writerSize : file.writer.size = bufSize
  stored : buffer.stored = flushed ++ file.writer.stored
  flushedSize : file.flushedSize = flushed.length
  currentCrc32 : file.currentCrc32 = crc.crc32c flushed
  delivered : fd.Delivered disk flushed file.res file.disk

theorem Refines.new (crc : Crc32c) (fd : FileFd) (disk : Disk) (expectedSize : Nat) :
    Refines crc fd disk [] (.new crc disk expectedSize) (.new expectedSize) where
  expectedSize := rfl
  writerSize := rfl
  stored := rfl
  flushedSize := rfl
  currentCrc32 := rfl
  delivered := .nil disk

namespace Refines

variable (h : Refines crc fd disk flushed file buffer)
include h

theorem position : file.position = buffer.position := by
  simp [FileWriter.position, BufferWriter.position, h.flushedSize, h.stored]

theorem chk : file.chk = true := by
  have hle := buffer.stored_le
  have hposition := h.position
  simp only [BufferWriter.position] at hposition
  simp [FileWriter.chk, h.expectedSize]
  omega

theorem remaining (hsize : buffer.size < 2 ^ 64) : file.remaining = buffer.remaining := by
  have hle : buffer.position ≤ buffer.size := buffer.stored_le
  rw [FileWriter.remaining, BufferWriter.remaining, h.position, h.expectedSize]
  omega

theorem empty (hsize : buffer.size < 2 ^ 64) : file.empty = buffer.empty := by
  have hle : buffer.position ≤ buffer.size := buffer.stored_le
  rw [FileWriter.empty, h.remaining hsize, BufferWriter.remaining, BufferWriter.empty,
    Bool.eq_iff_iff, beq_iff_eq, beq_iff_eq]
  omega

theorem getCrc32 : file.getCrc32 crc = buffer.getCrc32 crc := by
  rw [FileWriter.getCrc32, BufferWriter.getCrc32, h.currentCrc32, crc.crc32cExtend_crc32c, h.stored]

/-- The two writers show the same. -/
theorem observe (hsize : buffer.size < 2 ^ 64) :
    (FileWriter.writerT crc fd).observe file = (BufferWriter.writerT crc).observe buffer := by
  simp only [FileWriter.writerT, BufferWriter.writerT, h.position, h.remaining hsize,
    h.empty hsize, h.getCrc32]

/-! ## One step -/

/-- A flush leaves the bytes where they are: it moves those in the buffer to the
flushed ones. -/
theorem flush :
    ∃ file', file.flush crc fd = some file' ∧ file'.writer.stored = [] ∧
      Refines crc fd disk (flushed ++ file.writer.stored) file' buffer := by
  rw [FileWriter.flush, if_pos h.chk]
  by_cases hstored : file.writer.stored = []
  · rw [if_pos hstored, hstored, List.append_nil]
    exact ⟨file, rfl, hstored, h⟩
  · rw [if_neg hstored]
    refine ⟨_, rfl, rfl, ?_⟩
    constructor
    case expectedSize => exact h.expectedSize
    case writerSize => rfl
    case stored => simp [h.stored]
    case flushedSize => simp [h.flushedSize, BufferWriter.position]
    case currentCrc32 =>
        change file.getCrc32 crc = _
        rw [h.getCrc32, BufferWriter.getCrc32, h.stored]
    case delivered =>
        have hdelivered := h.delivered
        cases hres : file.res with
        | none =>
            rw [hres] at hdelivered
            exact hdelivered.append (FileFd.writeLoop_delivered fd file.disk file.writer.stored)
        | some status =>
            rw [hres] at hdelivered
            exact hdelivered.skip file.writer.stored

/-- After `flush_if_needed` there is room in the buffer. -/
theorem flushIfNeeded {s : Nat} (hs : s ≤ bufSize) :
    ∃ flushed' file', file.flushIfNeeded crc fd s = some file' ∧
      file'.writer.position + s ≤ bufSize ∧ Refines crc fd disk flushed' file' buffer := by
  rw [FileWriter.flushIfNeeded, if_pos hs]
  by_cases hroom : bufSize - file.writer.position < s
  · obtain ⟨file', hflush, hempty, hrefines⟩ := h.flush
    rw [if_pos hroom]
    refine ⟨_, file', hflush, ?_, hrefines⟩
    simpa [BufferWriter.position, hempty] using hs
  · have hle : file.writer.position ≤ file.writer.size := file.writer.stored_le
    rw [h.writerSize] at hle
    rw [if_neg hroom]
    exact ⟨flushed, file, rfl, by omega, h⟩

end Refines

/-- Both members that store make room and then put their bytes in the buffer. -/
def put (crc : Crc32c) (fd : FileFd) (file : FileWriter) (data : Bytes) : Option FileWriter :=
  (file.flushIfNeeded crc fd data.length).bind fun file =>
    (file.writer.put data).map fun writer => { file with writer }

theorem storeUint_eq_put (file : FileWriter) (value : UInt64) (bytes : Nat) :
    file.storeUint crc fd value bytes =
      file.put crc fd (BufferWriter.storeUintLoop value bytes []) := by
  have hlength : (BufferWriter.storeUintLoop value bytes []).length = bytes := by
    simp [BufferWriter.storeUintLoop_eq]
  rw [put, hlength]
  rfl

/-- A file writer takes no store that is longer than its buffer. -/
theorem put_eq_none_of_lt {data : Bytes} (h : bufSize < data.length) :
    file.put crc fd data = none := by
  rw [put, flushIfNeeded, if_neg (Nat.not_le.mpr h)]
  rfl

/-- A file writer takes whatever fits in its buffer. -/
theorem Refines.exists_put (h : Refines crc fd disk flushed file buffer) {data : Bytes}
    (hdata : data.length ≤ bufSize) :
    ∃ flushed' file' file'' buffer'', file.put crc fd data = some file' ∧
      Refines crc fd disk flushed' file'' buffer ∧
      buffer''.stored = file''.writer.stored ++ data ∧ buffer''.size = bufSize ∧
      file' = { file'' with writer := buffer'' } := by
  obtain ⟨flushed', file'', hflush, hroom, hrefines⟩ := h.flushIfNeeded hdata
  have hput : file''.writer.put data ≠ none := by
    intro hnone
    have hover := BufferWriter.put_eq_none_iff.mp hnone
    rw [hrefines.writerSize] at hover
    omega
  obtain ⟨writer, hwriter⟩ := Option.ne_none_iff_exists'.mp hput
  obtain ⟨hstored, hsize⟩ := BufferWriter.put_eq_some_iff.mp hwriter
  refine ⟨flushed', _, file'', writer, ?_, hrefines, hstored, hsize.trans hrefines.writerSize, rfl⟩
  rw [put, hflush, Option.bind_some, hwriter, Option.map_some]

/-- What the buffer writer takes, the file writer takes. -/
theorem Refines.put (h : Refines crc fd disk flushed file buffer) {data : Bytes}
    (hdata : data.length ≤ bufSize) (hput : buffer.put data = some buffer') :
    ∃ flushed' file', file.put crc fd data = some file' ∧
      Refines crc fd disk flushed' file' buffer' := by
  obtain ⟨hstored, hsize⟩ := BufferWriter.put_eq_some_iff.mp hput
  obtain ⟨flushed', file', file'', writer, hfile, hrefines, hwriter, hwriterSize, rfl⟩ :=
    h.exists_put hdata
  refine ⟨flushed', _, hfile, ?_⟩
  constructor
  case expectedSize => exact hrefines.expectedSize.trans hsize.symm
  case writerSize => exact hwriterSize
  case stored => rw [hstored, hrefines.stored, hwriter, List.append_assoc]
  case flushedSize => exact hrefines.flushedSize
  case currentCrc32 => exact hrefines.currentCrc32
  case delivered => exact hrefines.delivered

/-! ## Past the expected size -/

/-- More is stored than the writer expects. -/
def Overrun (file : FileWriter) : Prop := file.expectedSize < file.position

theorem Overrun.chk (h : file.Overrun) : file.chk = false :=
  decide_eq_false (Nat.not_le_of_lt h)

theorem Overrun.flush (h : file.Overrun) : file.flush crc fd = none := by
  rw [FileWriter.flush, h.chk]
  rfl

/-- Another store fails or leaves the writer past its expected size. -/
theorem Overrun.put {file' : FileWriter} (h : file.Overrun) {data : Bytes}
    (hput : file.put crc fd data = some file') : file'.Overrun := by
  have hkept : ∀ file'', file.flushIfNeeded crc fd data.length = some file'' → file'' = file := by
    intro file'' hflush
    unfold flushIfNeeded at hflush
    rw [h.flush] at hflush
    split at hflush
    · split at hflush
      · cases hflush
      · exact (Option.some.inj hflush).symm
    · cases hflush
  unfold FileWriter.put at hput
  obtain ⟨file'', hflush, hput⟩ := Option.bind_eq_some_iff.mp hput
  obtain ⟨writer, hwriter, rfl⟩ := Option.map_eq_some_iff.mp hput
  obtain ⟨hstored, -⟩ := BufferWriter.put_eq_some_iff.mp hwriter
  obtain rfl := hkept file'' hflush
  unfold Overrun position BufferWriter.position at h ⊢
  simp only [hstored, List.length_append]
  omega

/-- Where the buffer writer runs out of room, the file writer fails or runs past
its expected size. -/
theorem Refines.overrun (h : Refines crc fd disk flushed file buffer) {data : Bytes}
    {file' : FileWriter} (hdata : data.length ≤ bufSize) (hput : buffer.put data = none)
    (hfile : file.put crc fd data = some file') : file'.Overrun := by
  obtain ⟨flushed', file₁, file'', writer, hfile₁, hrefines, hwriter, -, rfl⟩ := h.exists_put hdata
  obtain rfl := Option.some.inj (hfile.symm.trans hfile₁)
  have hfull := BufferWriter.put_eq_none_iff.mp hput
  have hposition := hrefines.position
  show file''.expectedSize < file''.flushedSize + writer.stored.length
  rw [hwriter, List.length_append, hrefines.expectedSize]
  rw [← hposition] at hfull
  unfold FileWriter.position BufferWriter.position at hfull
  omega

end FileWriter

/-! ## Whole runs -/

namespace Client

variable {α : Type} {crc : Crc32c} {fd : FileFd} {disk : Disk} {flushed : Bytes}
  {file : FileWriter} {buffer buffer' : BufferWriter} {result : α}

open FileWriter (bufSize)
open FileFd

/-- A run of a file writer and the end of it. -/
def finish (crc : Crc32c) (fd : FileFd) (client : Client α) (file : FileWriter) :
    Option (α × Option Status × FileWriter) :=
  (client.run (FileWriter.writerT crc fd) file).bind fun (result, file) =>
    (file.finalize crc fd).map fun (status, file) => (result, status, file)

theorem finish_storeBytes (data : Bytes) (next : Client α) :
    (Client.storeBytes data next).finish crc fd file =
      (file.put crc fd data).bind (next.finish crc fd) := by
  rw [finish, run, Option.bind_assoc]
  rfl

theorem finish_storeUint (value : UInt64) (bytes : Nat) (next : Client α) :
    (Client.storeUint value bytes next).finish crc fd file =
      (file.put crc fd (BufferWriter.storeUintLoop value bytes [])).bind (next.finish crc fd) := by
  rw [finish, run, Option.bind_assoc, ← FileWriter.storeUint_eq_put]
  rfl

theorem finish_put_of_overrun {next : Client α} {data : Bytes} (h : file.Overrun)
    (hnext : ∀ {file : FileWriter}, file.Overrun → next.finish crc fd file = none) :
    (file.put crc fd data).bind (next.finish crc fd) = none := by
  cases hput : file.put crc fd data with
  | none => rfl
  | some file' => exact hnext (h.put hput)

/-- From past the expected size no client ends well. -/
theorem finish_of_overrun (client : Client α) (h : file.Overrun) :
    client.finish crc fd file = none := by
  induction client generalizing file with
  | done result =>
      simp [finish, run, FileWriter.finalize, h.flush]
  | storeUint value bytes next ih =>
      rw [finish_storeUint]
      exact finish_put_of_overrun h ih
  | storeBytes data next ih =>
      rw [finish_storeBytes]
      exact finish_put_of_overrun h ih
  | chk next ih =>
      rw [finish, run]
      simp [FileWriter.writerT, h.chk]
  | observe next ih => exact ih _ h

/-- A client that ends on the buffer writer ends on the file writer, with the
same result. -/
theorem run_refines (client : Client α)
    (hstores : client.StoresLe (BufferWriter.writerT crc) bufSize buffer)
    (h : FileWriter.Refines crc fd disk flushed file buffer) (hsize : buffer.size < 2 ^ 64)
    (hrun : client.run (BufferWriter.writerT crc) buffer = some (result, buffer')) :
    ∃ flushed' file', client.run (FileWriter.writerT crc fd) file = some (result, file') ∧
      FileWriter.Refines crc fd disk flushed' file' buffer' := by
  induction client generalizing flushed file buffer with
  | done result' =>
      cases hrun
      exact ⟨flushed, file, rfl, h⟩
  | storeUint value bytes next ih =>
      obtain ⟨buffer₁, hput, hrun⟩ := Option.bind_eq_some_iff.mp hrun
      have hlength : (BufferWriter.storeUintLoop value bytes []).length ≤ bufSize := by
        simpa [BufferWriter.storeUintLoop_eq] using hstores.1
      obtain ⟨flushed', file', hfile, hrefines⟩ := h.put hlength hput
      rw [← FileWriter.storeUint_eq_put] at hfile
      have hsize' := (BufferWriter.put_eq_some_iff.mp hput).2
      obtain ⟨flushed'', file'', hnext, hrefines'⟩ :=
        ih (hstores.2 _ hput) hrefines (hsize'.symm ▸ hsize) hrun
      exact ⟨flushed'', file'', Option.bind_eq_some_iff.mpr ⟨file', hfile, hnext⟩, hrefines'⟩
  | storeBytes data next ih =>
      obtain ⟨buffer₁, hput, hrun⟩ := Option.bind_eq_some_iff.mp hrun
      obtain ⟨flushed', file', hfile, hrefines⟩ := h.put hstores.1 hput
      have hsize' := (BufferWriter.put_eq_some_iff.mp hput).2
      obtain ⟨flushed'', file'', hnext, hrefines'⟩ :=
        ih (hstores.2 _ hput) hrefines (hsize'.symm ▸ hsize) hrun
      exact ⟨flushed'', file'', Option.bind_eq_some_iff.mpr ⟨file', hfile, hnext⟩, hrefines'⟩
  | chk next ih =>
      obtain ⟨flushed', file', hnext, hrefines⟩ := ih hstores h hsize hrun
      refine ⟨flushed', file', ?_, hrefines⟩
      rw [run]
      exact (if_pos h.chk).trans hnext
  | observe next ih =>
      rw [StoresLe, ← h.observe hsize] at hstores
      rw [run, ← h.observe hsize] at hrun
      exact ih _ hstores h hsize hrun

/-- The step of the next theorem: the buffer writer takes a store after which the run
of the file writer ends well. -/
theorem exists_put_of_finish {next : Client α} {data : Bytes}
    {ended : α × Option Status × FileWriter}
    (h : FileWriter.Refines crc fd disk flushed file buffer)
    (hfinish : (file.put crc fd data).bind (next.finish crc fd) = some ended) :
    data.length ≤ bufSize ∧ ∃ flushed' file' buffer', buffer.put data = some buffer' ∧
      FileWriter.Refines crc fd disk flushed' file' buffer' ∧ buffer'.size = buffer.size ∧
      next.finish crc fd file' = some ended := by
  have hdata : data.length ≤ bufSize := by
    by_contra hlong
    rw [FileWriter.put_eq_none_of_lt (not_le.mp hlong)] at hfinish
    cases hfinish
  refine ⟨hdata, ?_⟩
  obtain ⟨file', hfile, hnext⟩ := Option.bind_eq_some_iff.mp hfinish
  cases hput : buffer.put data with
  | some buffer' =>
      obtain ⟨flushed', file'', hfile', hrefines⟩ := h.put hdata hput
      cases hfile.symm.trans hfile'
      exact ⟨flushed', file', buffer', rfl, hrefines, (BufferWriter.put_eq_some_iff.mp hput).2,
        hnext⟩
  | none =>
      -- the file writer would go on, past its expected size
      rw [finish_of_overrun next (h.overrun hdata hput hfile)] at hnext
      cases hnext

/-- A client that ends well on the file writer ends on the buffer writer, and none of
its stores is longer than the buffer of the former. -/
theorem run_of_finish (client : Client α) {ended : α × Option Status × FileWriter}
    (h : FileWriter.Refines crc fd disk flushed file buffer) (hsize : buffer.size < 2 ^ 64)
    (hfinish : client.finish crc fd file = some ended) :
    (∃ result buffer', client.run (BufferWriter.writerT crc) buffer = some (result, buffer')) ∧
      client.StoresLe (BufferWriter.writerT crc) bufSize buffer := by
  induction client generalizing flushed file buffer with
  | done result => exact ⟨⟨result, buffer, rfl⟩, trivial⟩
  | storeUint value bytes next ih =>
      rw [finish_storeUint] at hfinish
      obtain ⟨hdata, flushed', file', buffer₁, hput, hrefines, hsize', hnext⟩ :=
        exists_put_of_finish h hfinish
      rw [BufferWriter.storeUintLoop_eq, List.append_nil, BigEndian.length_toBytes] at hdata
      obtain ⟨⟨result, buffer', hrun⟩, hstores⟩ := ih hrefines (hsize'.symm ▸ hsize) hnext
      refine ⟨⟨result, buffer', Option.bind_eq_some_iff.mpr ⟨buffer₁, hput, hrun⟩⟩, hdata, ?_⟩
      intro writer hwriter
      cases hput.symm.trans hwriter
      exact hstores
  | storeBytes data next ih =>
      rw [finish_storeBytes] at hfinish
      obtain ⟨hdata, flushed', file', buffer₁, hput, hrefines, hsize', hnext⟩ :=
        exists_put_of_finish h hfinish
      obtain ⟨⟨result, buffer', hrun⟩, hstores⟩ := ih hrefines (hsize'.symm ▸ hsize) hnext
      refine ⟨⟨result, buffer', Option.bind_eq_some_iff.mpr ⟨buffer₁, hput, hrun⟩⟩, hdata, ?_⟩
      intro writer hwriter
      cases hput.symm.trans hwriter
      exact hstores
  | chk next ih =>
      rw [finish, run] at hfinish
      simp only [FileWriter.writerT, h.chk, if_true] at hfinish
      exact ih h hsize hfinish
  | observe next ih =>
      rw [finish, run, h.observe hsize] at hfinish
      exact ih _ h hsize hfinish

/-! ## Files and buffers -/

theorem writeToFile_eq_finish (client : Client α) (expectedSize : Nat) :
    client.writeToFile crc fd disk expectedSize =
      (client.finish crc fd (.new crc disk expectedSize)).bind fun (result, status, file) =>
        (file.destroy crc fd).map fun disk => (result, status, disk) := by
  unfold writeToFile finish
  cases client.run (FileWriter.writerT crc fd) (.new crc disk expectedSize) with
  | none => rfl
  | some ended =>
      simp only [Option.bind_some]
      cases ended.2.finalize crc fd <;> rfl

/-- A writer that has been finalized writes nothing more in its destructor. -/
theorem finalize_refines (h : FileWriter.Refines crc fd disk flushed file buffer) :
    ∃ status file', file.finalize crc fd = some (status, file') ∧
      file'.destroy crc fd = some file'.disk ∧
      fd.Delivered disk buffer.stored status file'.disk := by
  obtain ⟨file', hflush, hempty, hrefines⟩ := h.flush
  refine ⟨file'.res, { file' with res := none }, ?_, ?_, ?_⟩
  · rw [FileWriter.finalize, hflush, Option.map_some]
  · have hchk : FileWriter.chk { file' with res := none } = true := hrefines.chk
    rw [FileWriter.destroy, FileWriter.flush, if_pos hchk, if_pos hempty, Option.map_some]
  · rw [h.stored]
    exact hrefines.delivered

/-- The bytes that a client stores in a buffer are delivered to a file, and its
result is the same. -/
theorem writeToFile_of_writeToBuffer (fd : FileFd) (disk : Disk) (client : Client α)
    {expectedSize : Nat} (hsize : expectedSize < 2 ^ 64)
    (hstores : client.StoresLe (BufferWriter.writerT crc) bufSize (.new expectedSize))
    {bytes : Bytes} (h : client.writeToBuffer crc expectedSize = some (result, bytes)) :
    ∃ status disk', client.writeToFile crc fd disk expectedSize = some (result, status, disk') ∧
      fd.Delivered disk bytes status disk' := by
  unfold writeToBuffer at h
  obtain ⟨⟨result', buffer'⟩, hrun, hbytes⟩ := Option.map_eq_some_iff.mp h
  cases hbytes
  obtain ⟨flushed', file', hfile, hrefines⟩ :=
    run_refines client hstores (.new crc fd disk expectedSize) hsize hrun
  obtain ⟨status, file'', hfinalize, hdestroy, hdelivered⟩ := finalize_refines hrefines
  refine ⟨status, file''.disk, ?_, hdelivered⟩
  simp [writeToFile, hfile, hfinalize, hdestroy]

/-- What a client that ends well has delivered to a file is what it stores in a
buffer. -/
theorem writeToBuffer_of_writeToFile (client : Client α) {expectedSize : Nat}
    (hsize : expectedSize < 2 ^ 64) {status : Option Status} {disk' : Disk}
    (h : client.writeToFile crc fd disk expectedSize = some (result, status, disk')) :
    ∃ bytes, client.writeToBuffer crc expectedSize = some (result, bytes) ∧
      client.StoresLe (BufferWriter.writerT crc) bufSize (.new expectedSize) ∧
      fd.Delivered disk bytes status disk' := by
  have hfinish := h
  rw [writeToFile_eq_finish] at hfinish
  obtain ⟨ended, hended, -⟩ := Option.bind_eq_some_iff.mp hfinish
  obtain ⟨⟨result', buffer', hrun⟩, hstores⟩ :=
    run_of_finish client (.new crc fd disk expectedSize) hsize hended
  have hbuffer : client.writeToBuffer crc expectedSize = some (result', buffer'.stored) := by
    rw [writeToBuffer, hrun]
    rfl
  obtain ⟨status', disk'', hfile, hdelivered⟩ :=
    writeToFile_of_writeToBuffer fd disk client hsize hstores hbuffer
  cases h.symm.trans hfile
  exact ⟨buffer'.stored, hbuffer, hstores, hdelivered⟩

/-! ## Fields -/

/-- A client that stores fields, each with its width. -/
def storeFields : List (UInt64 × Nat) → Client Unit
  | [] => .done ()
  | (value, bytes) :: fields => .storeUint value bytes (storeFields fields)

/-- The numbers in fields of the given widths. -/
def readFields : List Nat → Bytes → List Nat
  | [], _ => []
  | bytes :: widths, data =>
      BigEndian.ofBytes (data.take bytes) :: readFields widths (data.drop bytes)

/-- The bytes of fields that stand side by side. -/
def fieldBytes (fields : List (UInt64 × Nat)) : Bytes :=
  fields.flatMap fun field => BigEndian.toBytes field.2 field.1.toNat

theorem run_storeFields {fields : List (UInt64 × Nat)}
    (h : (storeFields fields).run (BufferWriter.writerT crc) buffer = some ((), buffer')) :
    buffer'.stored = buffer.stored ++ fieldBytes fields := by
  induction fields generalizing buffer with
  | nil =>
      cases h
      simp [fieldBytes]
  | cons field fields ih =>
      obtain ⟨buffer₁, hput, hrun⟩ := Option.bind_eq_some_iff.mp h
      have hstored := (BufferWriter.put_eq_some_iff.mp hput).1
      rw [BufferWriter.storeUintLoop_eq, List.append_nil] at hstored
      rw [ih hrun, hstored, List.append_assoc]
      rfl

theorem readFields_fieldBytes (fields : List (UInt64 × Nat)) :
    readFields (fields.map Prod.snd) (fieldBytes fields) =
      fields.map fun field => field.1.toNat % 256 ^ field.2 := by
  induction fields with
  | nil => rfl
  | cons field fields ih =>
      have hlength := BigEndian.length_toBytes field.2 field.1.toNat
      simp only [fieldBytes, List.flatMap_cons, List.map_cons, readFields] at ih ⊢
      rw [List.take_left' hlength, List.drop_left' hlength, ih, BigEndian.ofBytes_toBytes]

/-- Three bytes are flushed once, when the writer is finalized. -/
theorem writeToFile_three (fd : FileFd) :
    (storeFields [(5, 1), (600, 2)]).writeToFile castagnoli fd ⟨[7], 0⟩ 3 =
      some ((), (fd.writeLoop ⟨[7], 0⟩ [5, 2, 88]).2, (fd.writeLoop ⟨[7], 0⟩ [5, 2, 88]).1) := by
  rw [writeToFile_eq_finish]
  simp [finish, run, storeFields, FileWriter.writerT, FileWriter.storeUint, FileWriter.new,
    FileWriter.flushIfNeeded, bufSize, BufferWriter.storeUint, BufferWriter.put, BufferWriter.new,
    BufferWriter.storeUintLoop, BufferWriter.position, FileWriter.finalize, FileWriter.flush,
    FileWriter.chk, FileWriter.position, FileWriter.destroy]
  exact ⟨rfl, rfl⟩

/-! ## The writers agree -/

/-- For every client, a file writer ends well exactly when a buffer writer of
the expected size does and no store is longer than the buffer of the file writer. It
then has the same result, and the file was handed the bytes of the buffer up to the
first call that failed. -/
theorem writeToFile_refines (crc : Crc32c) (fd : FileFd) (client : Client α) (disk : Disk)
    (expectedSize : Nat) (hsize : expectedSize < 2 ^ 64) :
    ((client.writeToFile crc fd disk expectedSize).isSome ↔
        (client.writeToBuffer crc expectedSize).isSome ∧
          client.StoresLe (BufferWriter.writerT crc) bufSize (.new expectedSize)) ∧
      ∀ result status disk', client.writeToFile crc fd disk expectedSize =
          some (result, status, disk') →
        ∃ bytes, client.writeToBuffer crc expectedSize = some (result, bytes) ∧
          fd.Delivered disk bytes status disk' := by
  constructor
  · constructor
    · intro hfile
      obtain ⟨⟨result, status, disk'⟩, hsome⟩ := Option.isSome_iff_exists.mp hfile
      obtain ⟨bytes, hbuffer, hstores, -⟩ := writeToBuffer_of_writeToFile client hsize hsome
      exact ⟨Option.isSome_iff_exists.mpr ⟨_, hbuffer⟩, hstores⟩
    · rintro ⟨hbuffer, hstores⟩
      obtain ⟨⟨result, bytes⟩, hsome⟩ := Option.isSome_iff_exists.mp hbuffer
      obtain ⟨status, disk', hfile, -⟩ :=
        writeToFile_of_writeToBuffer fd disk client hsize hstores hsome
      exact Option.isSome_iff_exists.mpr ⟨_, hfile⟩
  · intro result status disk' hsome
    obtain ⟨bytes, hbuffer, -, hdelivered⟩ := writeToBuffer_of_writeToFile client hsize hsome
    exact ⟨bytes, hbuffer, hdelivered⟩

/-- Three bytes are taken, and a store of 4 MiB and one byte is not, although it fits
the expected size. -/
theorem writeToFile_refines_samples :
    ((storeFields [(5, 1), (600, 2)]).writeToFile castagnoli pairFd ⟨[7], 0⟩ 3).isSome ∧
      ¬ ((Client.storeBytes (List.replicate (bufSize + 1) 0) (.done ())).writeToFile castagnoli
        pairFd ⟨[7], 0⟩ (2 ^ 23)).isSome := by
  constructor
  · refine (writeToFile_refines castagnoli pairFd _ ⟨[7], 0⟩ 3 (by decide)).1.mpr ⟨rfl, ?_⟩
    simp [storeFields, StoresLe, bufSize]
  · intro hsome
    have hboth :=
      (writeToFile_refines castagnoli pairFd _ ⟨[7], 0⟩ (2 ^ 23) (by decide)).1.mp hsome
    have hlong : (List.replicate (bufSize + 1) (0 : UInt8)).length ≤ bufSize := hboth.2.1
    rw [List.length_replicate] at hlong
    exact Nat.not_succ_le_self _ hlong

/-- `finalize` reports no error exactly when the file has all that was stored;
otherwise the file ends before its first missing byte. -/
theorem finalize_ok_iff (crc : Crc32c) (fd : FileFd) (client : Client α) (disk : Disk)
    (expectedSize : Nat) (hsize : expectedSize < 2 ^ 64) (result : α) (status : Option Status)
    (disk' : Disk)
    (hrun : client.writeToFile crc fd disk expectedSize = some (result, status, disk')) :
    ∃ bytes, client.writeToBuffer crc expectedSize = some (result, bytes) ∧
      (status = none ↔ disk'.content = disk.content ++ bytes) ∧
      disk.content <+: disk'.content ∧ disk'.content <+: disk.content ++ bytes := by
  obtain ⟨bytes, hbuffer, -, hdelivered⟩ := writeToBuffer_of_writeToFile client hsize hrun
  refine ⟨bytes, hbuffer, ?_⟩
  cases status with
  | none =>
      rw [hdelivered.content_of_none]
      exact ⟨by simp, List.prefix_append _ _, List.prefix_rfl⟩
  | some status =>
      obtain ⟨done, missing, hmissing, hbytes, hcontent⟩ := hdelivered.content_of_some
      rw [hcontent, ← hbytes]
      refine ⟨?_, List.prefix_append _ _, ?_⟩
      · simpa using hmissing.symm
      · rw [← List.append_assoc]
        exact List.prefix_append _ _

theorem finalize_full :
    ∃ bytes, (storeFields [(5, 1), (600, 2)]).writeToBuffer castagnoli 3 = some ((), bytes) ∧
      [7, 5, 2] ≠ [7] ++ bytes ∧ [7, 5, 2] <+: [7] ++ bytes := by
  have hrun := writeToFile_three fullFd
  rw [writeLoop_fullFd] at hrun
  obtain ⟨bytes, hbuffer, hstatus, -, hprefix⟩ :=
    finalize_ok_iff castagnoli fullFd _ ⟨[7], 0⟩ 3 (by decide) () _ _ hrun
  refine ⟨bytes, hbuffer, ?_, hprefix⟩
  intro hall
  cases hstatus.mpr hall

/-- Fields that were stored through a file writer without an error are read back
from the file, each cut to its width. -/
theorem readFields_writeToFile (crc : Crc32c) (fd : FileFd) (fields : List (UInt64 × Nat))
    (disk disk' : Disk) (expectedSize : Nat) (hsize : expectedSize < 2 ^ 64)
    (hrun : (storeFields fields).writeToFile crc fd disk expectedSize = some ((), none, disk')) :
    readFields (fields.map Prod.snd) (disk'.content.drop disk.content.length) =
      fields.map fun field => field.1.toNat % 256 ^ field.2 := by
  obtain ⟨bytes, hbuffer, -, hdelivered⟩ := writeToBuffer_of_writeToFile _ hsize hrun
  obtain ⟨⟨ended, buffer'⟩, hrun', hended⟩ := Option.map_eq_some_iff.mp hbuffer
  cases hended
  have hbytes : buffer'.stored = fieldBytes fields := run_storeFields hrun'
  have hcontent : disk'.content = disk.content ++ buffer'.stored := hdelivered.content_of_none
  rw [hcontent, List.drop_left' rfl, hbytes, readFields_fieldBytes]

theorem readFields_pair :
    ∃ disk', (storeFields [(5, 1), (600, 2)]).writeToFile castagnoli pairFd ⟨[7], 0⟩ 3 =
        some ((), none, disk') ∧
      readFields [1, 2] (disk'.content.drop 1) = [5, 600] := by
  have hrun := writeToFile_three pairFd
  rw [writeLoop_pairFd] at hrun
  exact ⟨_, hrun, readFields_writeToFile castagnoli pairFd [(5, 1), (600, 2)] ⟨[7], 0⟩ _ 3
    (by decide) hrun⟩

end Client

end TonEncoder

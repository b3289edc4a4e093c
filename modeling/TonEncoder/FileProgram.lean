import TonEncoder.SizeLimit

/-! # `solution.cpp`

The program at the top of the repository. It reads its request from `input.txt`
and writes the result to `output.txt`. It compresses the serialization in mode 0
in chunks of 128 KiB, with no gzip behind them, and reads one LZ4 block of at most
256 KiB back.

* `compress_run`, `decompress_run`: the functions return their result or end the
  process. LZ4 gives no empty block, so that the check of the loop never fails and
  the handlers have nothing to handle;
* `roundTrip_of_one_chunk`: the functions bring back a block of one chunk;
* `root_eq_of_compress`: the buffer has one root;
* `length_compress_le`: the buffer keeps the limit of `run_tests.py`;
* `runEnds_run`: a run either writes its result and has status zero, or writes nothing
  and has not.
-/

namespace TonEncoder.FileProgram

open Process

variable {Cell : Type} (lib : TonCryptoLib Cell)

/-! ## Compression and decompression -/

/-- `chunk_size`: 128 KiB. -/
def chunkSize : Nat := 128 * 1024

theorem chunkSize_pos : 0 < chunkSize := by
  unfold chunkSize
  omega

/-- The loop of `compress` from index `i` on. -/
def chunkLoop (serialized : Bytes) (i : Nat)
    (finalCompressedBuilder : lib.builders.BufferBuilder) : Proc lib.builders.BufferBuilder :=
  if i < serialized.length then do
    let chunk := Chunks.slice serialized i (min chunkSize (serialized.length - i))
    let compressedChunk := lib.lz4Compress chunk
    if compressedChunk.isEmpty then
      throwStd "Chunk compression failed!"
    chunkLoop serialized (i + chunkSize)
      (lib.builders.append finalCompressedBuilder compressedChunk)
  else pure finalCompressedBuilder
termination_by serialized.length - i
decreasing_by
  have := chunkSize_pos
  omega

def compress (data : Bytes) : Proc Bytes :=
  catchStd (do
      let root ← (lib.stdBocDeserialize data).moveAsOk
      let serialized ← (lib.stdBocSerialize root 0).moveAsOk
      let finalCompressedBuilder ← chunkLoop lib serialized 0 lib.builders.empty
      return lib.builders.extract finalCompressedBuilder)
    fun what => do
      errLine ("Compression failed: " ++ what)
      return []

/-- The cap of the one LZ4 block that `decompress` reads: 256 KiB. -/
def maxDecompressedSize : Nat := 128 * 1024 * 2

def decompress (data : Bytes) : Proc Bytes :=
  catchStd (lz4DecompressRoot lib maxDecompressedSize 31 data)
    fun what => do
      errLine ("Decompression failed: " ++ what)
      return []

/-! ## The main function -/

/-- The line that reports a size. -/
def sizeLine (what : String) (size : Nat) : Bytes :=
  ascii (what ++ " size: " ++ toString size ++ " bytes")

/-- The main function, on the contents of `input.txt`, if it can be opened, and
whether `output.txt` can be. It gives the exit code and what it wrote to
`output.txt`: a file that was opened takes what is written to it. -/
def main (inputFile : Option Bytes) (outputOpens : Bool) : Proc (Nat × Option Bytes) :=
  catchStd (do
      match inputFile with
      | none => throwStd "Could not open input file!"
      | some contents =>
          let mode := modeWord contents
          let base64Data := dataWord contents
          if mode != ascii "compress" && mode != ascii "decompress" then
            throwStd "Invalid mode. Use 'compress' or 'decompress'."
          let data := lib.base64Decode base64Data
          let data ← if mode == ascii "compress" then do
              let data ← compress lib data
              putLine (sizeLine "Compressed" data.length)
              pure data
            else do
              let data ← decompress lib data
              putLine (sizeLine "Decompressed" data.length)
              pure data
          if !outputOpens then
            throwStd "Could not open output file!"
          let output := lib.strBase64Encode data
          putLine (ascii "Operation completed. Output written to output.txt")
          return (0, some (output ++ [newline])))
    fun what => do
      errLine ("Error: " ++ what)
      return (1, none)

/-! ## How the functions end -/

/-- The blocks of the chunks of a serialization, concatenated. -/
def lz4Stream (serialized : Bytes) : Bytes :=
  Chunks.stream lib.lz4Compress chunkSize serialized

/-- The ways in which `compress` ends on `data`. -/
inductive CompressEnds (data : Bytes) : Outcome Bytes → Prop where
  | deserializeError {status : Status} (hdeser : lib.stdBocDeserialize data = .error status) :
      CompressEnds data (.fatal (unexpectedStatus status))
  | serializeError {root : Cell} {status : Status}
      (hdeser : lib.stdBocDeserialize data = .ok root)
      (hser : lib.stdBocSerialize root 0 = .error status) :
      CompressEnds data (.fatal (unexpectedStatus status))
  | done {root : Cell} {serialized : Bytes} (hdeser : lib.stdBocDeserialize data = .ok root)
      (hser : lib.stdBocSerialize root 0 = .ok serialized) :
      CompressEnds data (.returned (lz4Stream lib serialized))

variable {lib}

/-- An iteration of the loop appends a block. The check of the block never fails. -/
theorem chunkLoop_of_lt (hne : ∀ x, lib.lz4Compress x ≠ []) {serialized : Bytes} {i : Nat}
    (hi : i < serialized.length) (builder : lib.builders.BufferBuilder) :
    chunkLoop lib serialized i builder =
      chunkLoop lib serialized (i + chunkSize) (lib.builders.append builder
        (lib.lz4Compress (Chunks.slice serialized i (min chunkSize (serialized.length - i))))) := by
  have hblock := hne (Chunks.slice serialized i (min chunkSize (serialized.length - i)))
  rw [← List.isEmpty_eq_false_iff] at hblock
  rw [chunkLoop, if_pos hi]
  simp only [hblock, Bool.false_eq_true, if_false]

/-- The loop returns the stream of the chunks it has not read yet. The induction is
on what is left of the serialization. -/
theorem chunkLoop_run (hne : ∀ x, lib.lz4Compress x ≠ []) (serialized : Bytes) (i : Nat)
    (builder : lib.builders.BufferBuilder) (con : Console) :
    ∃ builder', chunkLoop lib serialized i builder con = (.returned builder', con) ∧
      lib.builders.extract builder' =
        lib.builders.extract builder ++ lz4Stream lib (serialized.drop i) := by
  induction hn : serialized.length - i using Nat.strong_induction_on generalizing i builder with
  | _ n ih =>
      by_cases hi : i < serialized.length
      · -- an iteration, and the loop from the next index on
        have hless : serialized.length - (i + chunkSize) < n := by
          have := chunkSize_pos
          omega
        rw [chunkLoop_of_lt hne hi]
        rcases ih _ hless (i + chunkSize) _ rfl with ⟨builder', hrun, hextract⟩
        refine ⟨builder', hrun, ?_⟩
        rw [hextract, lib.builders.extract_append, lz4Stream, lz4Stream,
          Chunks.stream_drop _ chunkSize_pos hi, List.append_assoc]
      · have hdrop : serialized.drop i = [] := List.drop_eq_nil_of_le (by omega)
        refine ⟨builder, ?_, ?_⟩
        · rw [chunkLoop, if_neg hi, pure_run]
        · rw [hdrop, lz4Stream, Chunks.stream_nil, List.append_nil]

/-- No exception reaches the handler of `compress`. -/
theorem compress_run (hne : ∀ x, lib.lz4Compress x ≠ []) {data : Bytes}
    {outcome : Outcome Bytes} (h : CompressEnds lib data outcome) (con : Console) :
    compress lib data con = (outcome, con) := by
  cases h with
  | deserializeError hdeser =>
      apply catchStd_fatal
      rw [hdeser, moveAsOk_error_bind_run]
  | serializeError hdeser hser =>
      apply catchStd_fatal
      rw [hdeser, moveAsOk_ok_bind_run, hser, moveAsOk_error_bind_run]
  | @done root serialized hdeser hser =>
      rcases chunkLoop_run hne serialized 0 lib.builders.empty con with ⟨builder, hloop, hextract⟩
      rw [lib.builders.extract_empty, List.drop_zero, List.nil_append] at hextract
      apply catchStd_returned
      rw [hdeser, moveAsOk_ok_bind_run, hser, moveAsOk_ok_bind_run, bind_returned _ hloop,
        pure_run, hextract]

/-- Nor does one reach the handler of `decompress`. -/
theorem decompress_run {data : Bytes} {outcome : Outcome Bytes}
    (h : Lz4DecompressEnds lib maxDecompressedSize 31 data outcome) (con : Console) :
    decompress lib data con = (outcome, con) := by
  have hrun := lz4DecompressRoot_run h con
  cases h with
  | lz4Error => exact catchStd_fatal _ hrun
  | deserializeError => exact catchStd_fatal _ hrun
  | serializeError => exact catchStd_fatal _ hrun
  | done => exact catchStd_returned _ hrun

/-- `compress` ends in one of its ways on every input. -/
theorem exists_compressEnds (lib : TonCryptoLib Cell) (data : Bytes) :
    ∃ outcome, CompressEnds lib data outcome := by
  rcases hdeser : lib.stdBocDeserialize data with root | status
  · rcases hser : lib.stdBocSerialize root 0 with serialized | status
    · exact ⟨_, .done hdeser hser⟩
    · exact ⟨_, .serializeError hdeser hser⟩
  · exact ⟨_, .deserializeError hdeser⟩

/-- What `compress` returns is the stream of the serialization of the root. -/
theorem compress_returned (hne : ∀ x, lib.lz4Compress x ≠ []) {data c : Bytes} {root : Cell}
    {con con' : Console} (hdeser : lib.stdBocDeserialize data = .ok root)
    (hrun : compress lib data con = (.returned c, con')) :
    ∃ serialized, lib.stdBocSerialize root 0 = .ok serialized ∧ lz4Stream lib serialized = c := by
  rcases exists_compressEnds lib data with ⟨outcome, hends⟩
  rw [compress_run hne hends con, Prod.mk.injEq] at hrun
  rcases hrun with ⟨rfl, _⟩
  cases hends with
  | @done root' serialized hdeser' hser =>
      rw [hdeser, Result.ok.injEq] at hdeser'
      subst hdeser'
      exact ⟨serialized, hser, rfl⟩

/-! ## What the buffer keeps -/

section OneChunk

variable {hround : BocRoundTrip lib} {hlz4 : Lz4RoundTrip lib} {root : Cell} {data : Bytes}

theorem chunkSize_le_maxDecompressedSize : chunkSize ≤ maxDecompressedSize := by
  unfold chunkSize maxDecompressedSize
  omega

/-- The stack that `decompress` reads, on the texts of one chunk. -/
def wire (hround : BocRoundTrip lib) (hlz4 : Lz4RoundTrip lib) : PartialCodec Cell Bytes :=
  lz4Wire hround hlz4 0 chunkSize_le_maxDecompressedSize

/-- On one chunk `compress` recodes: the stream is the block of the chunk. -/
theorem computes_compress (hempty : BocRejectsEmpty lib) (hne : ∀ x, lib.lz4Compress x ≠ []) :
    PartialCodec.Computes (compress lib) ((storedForm hround).recode (wire hround hlz4)) := by
  intro data c h con
  rw [PartialCodec.recode_eq_some_iff] at h
  rcases h with ⟨root, hdeser, hencode⟩
  rcases lz4Wire_encode_eq_some_iff.mp hencode with ⟨serialized, hser, hfits, rfl⟩
  have hstream : lz4Stream lib serialized = lib.lz4Compress serialized :=
    Chunks.stream_of_length_le _ (serialize_ne_nil hround hempty hser) hfits
  rw [← hstream]
  exact compress_run hne (.done (storedForm_decode_eq_some_iff.mp hdeser) hser) con

theorem computes_decompress :
    PartialCodec.Computes (decompress lib) ((wire hround hlz4).recode (storedForm hround)) := by
  intro c data h con
  exact decompress_run (lz4DecompressEnds_iff_recode.mpr h) con

/-- **Round trip on one chunk.** -/
theorem roundTrip_of_one_chunk (hround : BocRoundTrip lib) (hempty : BocRejectsEmpty lib)
    (hlz4 : Lz4RoundTrip lib) (hne : ∀ x, lib.lz4Compress x ≠ []) {serialized : Bytes}
    (hdata : lib.stdBocSerialize root 31 = .ok data)
    (hser : lib.stdBocSerialize root 0 = .ok serialized) (hfits : serialized.length ≤ chunkSize)
    (con : Console) :
    ∃ c, compress lib data con = (.returned c, con) ∧
      decompress lib c con = (.returned data, con) := by
  have hstored : (storedForm hround).encode root = some data :=
    storedForm_encode_eq_some_iff.mpr hdata
  have hwire : (wire hround hlz4).encode root = some (lib.lz4Compress serialized) :=
    lz4Wire_encode_eq_some_iff.mpr ⟨serialized, hser, hfits, rfl⟩
  exact ⟨_, PartialCodec.round_of_computes (computes_compress hempty hne) computes_decompress
    hstored hwire con⟩

end OneChunk

/-- **`compress` is injective on roots**, whatever the numbers of chunks. -/
theorem root_eq_of_compress (hround : BocRoundTrip lib)
    (hcode : Chunks.StreamCode lib.lz4Compress) {data₁ data₂ c : Bytes} {root₁ root₂ : Cell}
    {con₁ con₁' con₂ con₂' : Console} (hdeser₁ : lib.stdBocDeserialize data₁ = .ok root₁)
    (hdeser₂ : lib.stdBocDeserialize data₂ = .ok root₂)
    (hrun₁ : compress lib data₁ con₁ = (.returned c, con₁'))
    (hrun₂ : compress lib data₂ con₂ = (.returned c, con₂')) : root₁ = root₂ := by
  rcases compress_returned hcode.ne_nil hdeser₁ hrun₁ with ⟨serialized₁, hser₁, rfl⟩
  rcases compress_returned hcode.ne_nil hdeser₂ hrun₂ with ⟨serialized₂, hser₂, hstream⟩
  have hserialized : serialized₂ = serialized₁ :=
    Chunks.stream_injective hcode chunkSize_pos hstream
  subst hserialized
  refine root_eq_of_serialize ?_ hser₁ hser₂
  intro root
  exact hround root 0

/-- The stream of the tree has 16 chunks. -/
theorem chunkSize_lt_plainForm_tree : chunkSize * 15 < (Reference.plainForm .tree).length := by
  have hlength : (Reference.plainForm .tree).length + 4 = 1987914 :=
    Reference.length_plainForm .tree
  unfold chunkSize
  omega

/-- Two forms of the tree, which are compressed to one buffer of 16 chunks. -/
theorem root_eq_of_compress_tree :
    ∃ c root₁ root₂, Reference.blockForm .tree ≠ Reference.compactForm .tree ∧ c ≠ [] ∧
      Reference.lib.stdBocDeserialize (Reference.blockForm .tree) = .ok root₁ ∧
      Reference.lib.stdBocDeserialize (Reference.compactForm .tree) = .ok root₂ ∧
      compress Reference.lib (Reference.blockForm .tree) ⟨[], [], []⟩ =
        (.returned c, ⟨[], [], []⟩) ∧
      compress Reference.lib (Reference.compactForm .tree) ⟨[], [], []⟩ =
        (.returned c, ⟨[], [], []⟩) ∧ root₁ = root₂ := by
  have hcode := Reference.streamCode
  have hblock := Reference.deserialize_blockForm .tree
  have hcompact := Reference.deserialize_compactForm .tree
  have hser := Reference.serialize_plainMode .tree
  have hrun := compress_run hcode.ne_nil (.done hblock hser) ⟨[], [], []⟩
  have hrun' := compress_run hcode.ne_nil (.done hcompact hser) ⟨[], [], []⟩
  refine ⟨_, _, _, Reference.blockForm_ne_compactForm .tree, ?_, hblock, hcompact, hrun, hrun',
    root_eq_of_compress Reference.bocRoundTrip hcode hblock hcompact hrun hrun'⟩
  -- past one chunk a stream has a first block, which is not empty
  have hlt : chunkSize < (Reference.plainForm .tree).length :=
    lt_of_le_of_lt (Nat.le_mul_of_pos_right chunkSize (by decide)) chunkSize_lt_plainForm_tree
  rcases Chunks.stream_of_lt_length _ hcode.ne_nil chunkSize_pos hlt with ⟨t, ht, hstream⟩
  rw [lz4Stream, hstream]
  intro hnil
  exact ht (List.append_eq_nil_iff.mp hnil).2

/-- **The buffer keeps the limit** of `run_tests.py`, in up to 16 chunks. -/
theorem length_compress_le {bag : Cell → BagOfCells} (hround : BocRoundTrip lib)
    (hlayout : BocLayout lib bag) (hexpand : Lz4Expansion lib)
    (hne : ∀ x, lib.lz4Compress x ≠ []) {root : Cell} {data c : Bytes} {con con' : Console}
    (hdata : lib.stdBocSerialize root 31 = .ok data) (hsize : data.length ≤ sizeLimit)
    (hrun : compress lib data con = (.returned c, con')) : c.length ≤ sizeLimit := by
  rcases compress_returned hne (hround root 31 data hdata) hrun with ⟨serialized, hser, rfl⟩
  have hstream := Chunks.length_stream_le chunkSize_pos hexpand serialized
  have hplain : serialized.length ≤ ((bag root).layout BagOfCells.compactMode).totalSize := by
    rw [hlayout root 0 serialized hser]
    exact (bag root).totalSize_plainMode_le
  rcases (bag root).exists_compactSize with ⟨cellCount, dataSize, hcompact⟩
  rw [← hlayout root BagOfCells.blockMode data hdata] at hcompact
  have hroom := (hcompact.mono hplain).expansion_le hsize
  -- 2 MiB are 16 chunks
  have hchunks : (serialized.length + (chunkSize - 1)) / chunkSize ≤ 16 := by
    unfold sizeLimit at hroom
    unfold chunkSize
    omega
  unfold lz4Stream
  omega

/-- The block of nearly 2 MiB, in 16 chunks. -/
theorem length_compress_le_tree :
    ∃ c, compress Reference.lib (Reference.blockForm .tree) ⟨[], [], []⟩ =
        (.returned c, ⟨[], [], []⟩) ∧ c.length ≤ sizeLimit := by
  have hne := Reference.streamCode.ne_nil
  have hser := Reference.serialize_plainMode .tree
  have hrun := compress_run hne (.done (Reference.deserialize_blockForm .tree) hser) ⟨[], [], []⟩
  exact ⟨_, hrun, length_compress_le Reference.bocRoundTrip Reference.bocLayout
    Reference.lz4Expansion hne (Reference.serialize_blockMode .tree)
    (Reference.length_blockForm_le .tree) hrun⟩

/-! ## How a run ends -/

/-- What is seen of a run. -/
structure FileReport where
  exit : Exit
  stdout : Bytes
  stderr : List String
  written : Option Bytes
deriving DecidableEq, Repr

/-- A run of the program. -/
def run (lib : TonCryptoLib Cell) (inputFile : Option Bytes) (outputOpens : Bool) : FileReport :=
  match main lib inputFile outputOpens ⟨[], [], []⟩ with
  | (.returned (code, written), con) => ⟨.status code, con.stdout, con.stderr, written⟩
  | (.exception _, con) => ⟨.killed, con.stdout, con.stderr, none⟩
  | (.fatal _, con) => ⟨.killed, con.stdout, con.stderr, none⟩

/-- A run that failed: it has written nothing. -/
def Failed (r : FileReport) : Prop := r.exit ≠ .success ∧ r.written = none

/-- A run that wrote a buffer. -/
def completed (lib : TonCryptoLib Cell) (what : String) (buffer : Bytes) : FileReport where
  exit := .success
  stdout := sizeLine what buffer.length ++
    newline :: (ascii "Operation completed. Output written to output.txt" ++ [newline])
  stderr := []
  written := some (lib.strBase64Encode buffer ++ [newline])

/-- The ways in which a run ends. -/
inductive RunEnds (lib : TonCryptoLib Cell) (inputFile : Option Bytes) (outputOpens : Bool) :
    FileReport → Prop where
  | failed {r : FileReport} (hfailed : Failed r) : RunEnds lib inputFile outputOpens r
  | compressed {contents buffer : Bytes} (hinput : inputFile = some contents)
      (hopens : outputOpens = true) (hmode : modeWord contents = ascii "compress")
      (hends : CompressEnds lib (lib.base64Decode (dataWord contents)) (.returned buffer)) :
      RunEnds lib inputFile outputOpens (completed lib "Compressed" buffer)
  | decompressed {contents buffer : Bytes} (hinput : inputFile = some contents)
      (hopens : outputOpens = true) (hmode : modeWord contents = ascii "decompress")
      (hends : Lz4DecompressEnds lib maxDecompressedSize 31
        (lib.base64Decode (dataWord contents)) (.returned buffer)) :
      RunEnds lib inputFile outputOpens (completed lib "Decompressed" buffer)

section RunEnds

variable {contents : Bytes} {outcome : Outcome Bytes}

theorem run_noInput (outputOpens : Bool) : Failed (run lib none outputOpens) := by
  simp [Failed, run, main, catchStd, Exit.success]

theorem run_invalidMode (outputOpens : Bool) (hcompress : modeWord contents ≠ ascii "compress")
    (hdecompress : modeWord contents ≠ ascii "decompress") :
    Failed (run lib (some contents) outputOpens) := by
  simp [Failed, run, main, catchStd, hcompress, hdecompress, Exit.success]

/-- A run that compresses to a buffer writes the line of it. -/
theorem run_compress_returned (hne : ∀ x, lib.lz4Compress x ≠ []) {buffer : Bytes}
    (hmode : modeWord contents = ascii "compress")
    (hends : CompressEnds lib (lib.base64Decode (dataWord contents)) (.returned buffer)) :
    run lib (some contents) true = completed lib "Compressed" buffer := by
  have hrun := compress_run hne hends ⟨[], [], []⟩
  simp [run, main, catchStd, hmode, bind_returned _ hrun, completed, Exit.success]

/-- A run that compresses. -/
theorem run_compress (hne : ∀ x, lib.lz4Compress x ≠ []) (outputOpens : Bool)
    (hmode : modeWord contents = ascii "compress")
    (hends : CompressEnds lib (lib.base64Decode (dataWord contents)) outcome) :
    RunEnds lib (some contents) outputOpens (run lib (some contents) outputOpens) := by
  have hrun := compress_run hne hends ⟨[], [], []⟩
  cases outcome with
  | returned buffer =>
      cases outputOpens with
      | false =>
          -- the size is printed before the file is opened, but nothing is written
          apply RunEnds.failed
          simp [Failed, run, main, catchStd, hmode, bind_returned _ hrun, Exit.success]
      | true =>
          rw [run_compress_returned hne hmode hends]
          exact .compressed rfl rfl hmode hends
  | exception what => cases hends
  | fatal message =>
      apply RunEnds.failed
      simp [Failed, run, main, catchStd, hmode, bind_fatal _ hrun, Exit.success]

/-- A run that decompresses to a block writes the line of it. -/
theorem run_decompress_returned {buffer : Bytes} (hmode : modeWord contents = ascii "decompress")
    (hends : Lz4DecompressEnds lib maxDecompressedSize 31
      (lib.base64Decode (dataWord contents)) (.returned buffer)) :
    run lib (some contents) true = completed lib "Decompressed" buffer := by
  have hmodes : ascii "decompress" ≠ ascii "compress" := by decide
  have hrun := decompress_run hends ⟨[], [], []⟩
  simp [run, main, catchStd, hmode, hmodes, bind_returned _ hrun, completed, Exit.success]

/-- A run that decompresses. -/
theorem run_decompress (outputOpens : Bool) (hmode : modeWord contents = ascii "decompress")
    (hends : Lz4DecompressEnds lib maxDecompressedSize 31
      (lib.base64Decode (dataWord contents)) outcome) :
    RunEnds lib (some contents) outputOpens (run lib (some contents) outputOpens) := by
  have hmodes : ascii "decompress" ≠ ascii "compress" := by decide
  have hrun := decompress_run hends ⟨[], [], []⟩
  cases outcome with
  | returned buffer =>
      cases outputOpens with
      | false =>
          apply RunEnds.failed
          simp [Failed, run, main, catchStd, hmode, hmodes, bind_returned _ hrun, Exit.success]
      | true =>
          rw [run_decompress_returned hmode hends]
          exact .decompressed rfl rfl hmode hends
  | exception what => cases hends
  | fatal message =>
      apply RunEnds.failed
      simp [Failed, run, main, catchStd, hmode, hmodes, bind_fatal _ hrun, Exit.success]

end RunEnds

/-- **Every run of the program** writes the result of its request with status zero,
or fails and writes nothing. -/
theorem runEnds_run (hne : ∀ x, lib.lz4Compress x ≠ []) (inputFile : Option Bytes)
    (outputOpens : Bool) : RunEnds lib inputFile outputOpens (run lib inputFile outputOpens) := by
  cases inputFile with
  | none => exact .failed (run_noInput outputOpens)
  | some contents =>
      by_cases hcompress : modeWord contents = ascii "compress"
      · rcases exists_compressEnds lib (lib.base64Decode (dataWord contents)) with ⟨_, hends⟩
        exact run_compress hne outputOpens hcompress hends
      · by_cases hdecompress : modeWord contents = ascii "decompress"
        · rcases exists_lz4DecompressEnds lib 31 (lib.base64Decode (dataWord contents))
            maxDecompressedSize with ⟨_, hends⟩
          exact run_decompress outputOpens hdecompress hends
        · exact .failed (run_invalidMode outputOpens hcompress hdecompress)

/-- A run that writes the buffer of the wide cell. -/
theorem runEnds_run_wide :
    run Reference.lib (some (request (ascii "compress") (Base64.encode
        (Reference.blockForm .wide)))) true =
      completed Reference.lib "Compressed" (lz4Stream Reference.lib (Reference.plainForm .wide)) ∧
    RunEnds Reference.lib (some (request (ascii "compress") (Base64.encode
        (Reference.blockForm .wide)))) true
      (run Reference.lib (some (request (ascii "compress") (Base64.encode
        (Reference.blockForm .wide)))) true) := by
  have hne := Reference.streamCode.ne_nil
  have hword := Base64.isWord_encode (Reference.blockForm_ne_nil .wide)
  have hends : CompressEnds Reference.lib (Reference.blockForm .wide)
      (.returned (lz4Stream Reference.lib (Reference.plainForm .wide))) :=
    .done (Reference.deserialize_blockForm .wide) (Reference.serialize_plainMode .wide)
  rw [← Reference.base64Decode_encode (Reference.blockForm .wide),
    ← dataWord_request isWord_compress hword] at hends
  constructor
  · exact run_compress_returned hne (modeWord_request isWord_compress _) hends
  · exact runEnds_run hne (some (request (ascii "compress") _)) true

end TonEncoder.FileProgram

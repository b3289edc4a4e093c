import TonEncoder.CryptoLib
import TonEncoder.Request

/-! # `tester/solution.cpp`

The program that `run_tests.py` runs. It reads a mode and a base64 text, and
prints the base64 of the result:

* `compress`: the root of the block is serialized in mode 2, the serialization
  is cut into chunks of 1 MiB, each chunk is compressed by LZ4, the blocks are
  concatenated, and the stream goes through gzip;
* `decompress`: gunzip, one LZ4 block of at most 1 MiB, and the root of the
  result is serialized in mode 31.

Both functions catch standard exceptions. `CompressEnds` and `DecompressEnds`
list every way in which they end, and `RunEnds` does so for a run of the
program; the modules that build on this one argue by these cases and unfold no
program again.
-/

namespace TonEncoder.Tester

open Process

variable {Cell : Type} (lib : TonCryptoLib Cell)

/-- A binary buffer as a string of the same bytes. -/
def binaryToAscii (binaryData : Bytes) : Bytes := binaryData

/-- A string as a vector of the same bytes. -/
def asciiToBinary (asciiStr : Bytes) : Bytes := asciiStr

/-! ## Compression -/

/-- `chunk_size`: 1 MiB. -/
def chunkSize : Nat := 1024 * 1024

theorem chunkSize_pos : 0 < chunkSize := by
  unfold chunkSize
  omega

/-- The loop of `compress` from index `i` on. -/
def chunkLoop (serialized : Bytes) (i : Nat)
    (finalCompressedBuilder : lib.builders.BufferBuilder) : lib.builders.BufferBuilder :=
  if i < serialized.length then
    let chunk := Chunks.slice serialized i (min chunkSize (serialized.length - i))
    let compressedChunk := lib.lz4Compress chunk
    chunkLoop serialized (i + chunkSize)
      (lib.builders.append finalCompressedBuilder compressedChunk)
  else finalCompressedBuilder
termination_by serialized.length - i
decreasing_by
  have := chunkSize_pos
  omega

def compress (data : Bytes) : Proc Bytes :=
  catchStd (do
      let root ← (lib.stdBocDeserialize data).moveAsOk
      let serialized ← (lib.stdBocSerialize root 2).moveAsOk
      let finalCompressedBuilder := chunkLoop lib serialized 0 lib.builders.empty
      let finalCompressed := lib.builders.extract finalCompressedBuilder
      let maxCompressionRatio : ℚ := 1
      let finalCompressedGzipped := lib.gzencode finalCompressed maxCompressionRatio
      -- the one failure that the handler sees
      if finalCompressedGzipped.isEmpty then
        throwStd "Gzip compression returned empty data."
      return finalCompressedGzipped)
    fun what => do
      errLine ("Compression failed: " ++ what)
      return []

/-! ## Decompression -/

/-- The cap of the one LZ4 block that `decompress` reads: 1 MiB. -/
def maxDecompressedSize : Nat := 1 <<< 20

def decompress (data : Bytes) : Proc Bytes :=
  catchStd (do
      let decompressed := lib.gzdecode data
      let serialized ← (lib.lz4Decompress decompressed maxDecompressedSize).moveAsOk
      let root ← (lib.stdBocDeserialize serialized).moveAsOk
      let data ← (lib.stdBocSerialize root 31).moveAsOk
      -- the gunzipped stream has been used by now
      if decompressed.isEmpty then
        throwStd "Gzip decompression returned empty data."
      return data)
    fun what => do
      errLine ("Decompression failed: " ++ what)
      return []

/-! ## The main function -/

def main : Proc Nat :=
  catchStd (do
      let mode ← readWord
      if mode != ascii "compress" && mode != ascii "decompress" then
        errLine "Invalid mode. Use 'compress' or 'decompress'."
        return 1
      let base64Data ← readWord
      if base64Data.isEmpty then
        errLine "Input data is empty."
        return 1
      let binaryData := lib.base64Decode base64Data
      let asciiStr := binaryToAscii binaryData
      if mode == ascii "compress" then
        let binaryInput := asciiToBinary asciiStr
        let slice ← sliceOfVector binaryInput
        let compressedData ← compress lib slice
        -- a buffer is printed whether or not it is empty
        putLine (lib.strBase64Encode compressedData)
      else if mode == ascii "decompress" then
        let decompressedData ← decompress lib binaryData
        let decompressedAscii := binaryToAscii decompressedData
        putLine (lib.strBase64Encode decompressedAscii)
      return 0)
    fun what => do
      errLine ("Error: " ++ what)
      return 1

/-- A run of the program on an input. -/
def run (input : Bytes) : Report := report (main lib) input

/-! ## The LZ4 stream -/

/-- The blocks of the chunks of a serialization, concatenated. -/
def lz4Stream (serialized : Bytes) : Bytes :=
  Chunks.stream lib.lz4Compress chunkSize serialized

/-- The loop appends the blocks of the chunks it has not read yet. -/
theorem extract_chunkLoop (serialized : Bytes) (i : Nat) (builder : lib.builders.BufferBuilder) :
    lib.builders.extract (chunkLoop lib serialized i builder) =
      lib.builders.extract builder ++ lz4Stream lib (serialized.drop i) := by
  fun_induction chunkLoop lib serialized i builder with
  | case1 i builder hi chunk compressedChunk ih =>
      -- an iteration: the block of the slice at `i` comes before what is left
      rw [ih, lib.builders.extract_append, lz4Stream, lz4Stream,
        Chunks.stream_drop _ chunkSize_pos hi, List.append_assoc]
  | case2 i builder hi =>
      -- the end of the loop
      have hdrop : serialized.drop i = [] := List.drop_eq_nil_of_le (by omega)
      rw [hdrop, lz4Stream, Chunks.stream_nil, List.append_nil]

theorem extract_chunkLoop_zero (serialized : Bytes) :
    lib.builders.extract (chunkLoop lib serialized 0 lib.builders.empty) =
      lz4Stream lib serialized := by
  rw [extract_chunkLoop, lib.builders.extract_empty, List.drop_zero, List.nil_append]

/-! ## How the functions end -/

/-- The ways in which `compress` ends on `data`, with the lines it logs. -/
inductive CompressEnds (data : Bytes) : Outcome Bytes → List String → Prop where
  | deserializeError {status : Status} (hdeser : lib.stdBocDeserialize data = .error status) :
      CompressEnds data (.fatal (unexpectedStatus status)) []
  | serializeError {root : Cell} {status : Status}
      (hdeser : lib.stdBocDeserialize data = .ok root)
      (hser : lib.stdBocSerialize root 2 = .error status) :
      CompressEnds data (.fatal (unexpectedStatus status)) []
  | gzipEmpty {root : Cell} {serialized : Bytes} (hdeser : lib.stdBocDeserialize data = .ok root)
      (hser : lib.stdBocSerialize root 2 = .ok serialized)
      (hgz : lib.gzencode (lz4Stream lib serialized) 1 = []) :
      CompressEnds data (.returned [])
        ["Compression failed: " ++ "Gzip compression returned empty data."]
  | done {root : Cell} {serialized : Bytes} (hdeser : lib.stdBocDeserialize data = .ok root)
      (hser : lib.stdBocSerialize root 2 = .ok serialized)
      (hgz : lib.gzencode (lz4Stream lib serialized) 1 ≠ []) :
      CompressEnds data (.returned (lib.gzencode (lz4Stream lib serialized) 1)) []

/-- The ways in which `decompress` ends on `data`, with the lines it logs. -/
inductive DecompressEnds (data : Bytes) : Outcome Bytes → List String → Prop where
  | lz4Error {status : Status}
      (hlz4 : lib.lz4Decompress (lib.gzdecode data) maxDecompressedSize = .error status) :
      DecompressEnds data (.fatal (unexpectedStatus status)) []
  | deserializeError {serialized : Bytes} {status : Status}
      (hlz4 : lib.lz4Decompress (lib.gzdecode data) maxDecompressedSize = .ok serialized)
      (hdeser : lib.stdBocDeserialize serialized = .error status) :
      DecompressEnds data (.fatal (unexpectedStatus status)) []
  | serializeError {serialized : Bytes} {root : Cell} {status : Status}
      (hlz4 : lib.lz4Decompress (lib.gzdecode data) maxDecompressedSize = .ok serialized)
      (hdeser : lib.stdBocDeserialize serialized = .ok root)
      (hser : lib.stdBocSerialize root 31 = .error status) :
      DecompressEnds data (.fatal (unexpectedStatus status)) []
  | gzipEmpty {serialized block : Bytes} {root : Cell}
      (hlz4 : lib.lz4Decompress (lib.gzdecode data) maxDecompressedSize = .ok serialized)
      (hdeser : lib.stdBocDeserialize serialized = .ok root)
      (hser : lib.stdBocSerialize root 31 = .ok block) (hgz : lib.gzdecode data = []) :
      DecompressEnds data (.returned [])
        ["Decompression failed: " ++ "Gzip decompression returned empty data."]
  | done {serialized block : Bytes} {root : Cell}
      (hlz4 : lib.lz4Decompress (lib.gzdecode data) maxDecompressedSize = .ok serialized)
      (hdeser : lib.stdBocDeserialize serialized = .ok root)
      (hser : lib.stdBocSerialize root 31 = .ok block) (hgz : lib.gzdecode data ≠ []) :
      DecompressEnds data (.returned block) []

variable {lib}

section Runs

variable {data : Bytes} {outcome : Outcome Bytes} {log : List String}

theorem compress_run (h : CompressEnds lib data outcome log) (con : Console) :
    compress lib data con = (outcome, con.withErr log) := by
  cases h with
  | deserializeError hdeser =>
      apply catchStd_fatal
      rw [hdeser, moveAsOk_error_bind_run, Console.withErr_nil]
  | serializeError hdeser hser =>
      apply catchStd_fatal
      rw [hdeser, moveAsOk_ok_bind_run, hser, moveAsOk_error_bind_run, Console.withErr_nil]
  | gzipEmpty hdeser hser hgz =>
      -- the exception of the emptiness check, reported by the handler
      apply catchStd_exception
      rw [hdeser, moveAsOk_ok_bind_run, hser, moveAsOk_ok_bind_run, extract_chunkLoop_zero]
      simp [hgz]
  | done hdeser hser hgz =>
      apply catchStd_returned
      rw [hdeser, moveAsOk_ok_bind_run, hser, moveAsOk_ok_bind_run, extract_chunkLoop_zero]
      simp [hgz]

theorem decompress_run (h : DecompressEnds lib data outcome log) (con : Console) :
    decompress lib data con = (outcome, con.withErr log) := by
  cases h with
  | lz4Error hlz4 =>
      apply catchStd_fatal
      simp only [hlz4, moveAsOk_error_bind_run, Console.withErr_nil]
  | deserializeError hlz4 hdeser =>
      apply catchStd_fatal
      simp only [hlz4, hdeser, moveAsOk_ok_bind_run, moveAsOk_error_bind_run,
        Console.withErr_nil]
  | serializeError hlz4 hdeser hser =>
      apply catchStd_fatal
      simp only [hlz4, hdeser, hser, moveAsOk_ok_bind_run, moveAsOk_error_bind_run,
        Console.withErr_nil]
  | gzipEmpty hlz4 hdeser hser hgz =>
      apply catchStd_exception
      simp only [hlz4, hdeser, hser, moveAsOk_ok_bind_run]
      simp [hgz]
  | done hlz4 hdeser hser hgz =>
      apply catchStd_returned
      simp only [hlz4, hdeser, hser, moveAsOk_ok_bind_run]
      simp [hgz]

variable (lib data)

/-- `compress` ends in one of its ways on every input. -/
theorem exists_compressEnds : ∃ outcome log, CompressEnds lib data outcome log := by
  rcases hdeser : lib.stdBocDeserialize data with root | status
  · rcases hser : lib.stdBocSerialize root 2 with serialized | status
    · by_cases hgz : lib.gzencode (lz4Stream lib serialized) 1 = []
      · exact ⟨_, _, .gzipEmpty hdeser hser hgz⟩
      · exact ⟨_, _, .done hdeser hser hgz⟩
    · exact ⟨_, _, .serializeError hdeser hser⟩
  · exact ⟨_, _, .deserializeError hdeser⟩

/-- `decompress` ends in one of its ways on every input. -/
theorem exists_decompressEnds : ∃ outcome log, DecompressEnds lib data outcome log := by
  rcases hlz4 : lib.lz4Decompress (lib.gzdecode data) maxDecompressedSize with serialized | status
  · rcases hdeser : lib.stdBocDeserialize serialized with root | status
    · rcases hser : lib.stdBocSerialize root 31 with block | status
      · by_cases hgz : lib.gzdecode data = []
        · exact ⟨_, _, .gzipEmpty hlz4 hdeser hser hgz⟩
        · exact ⟨_, _, .done hlz4 hdeser hser hgz⟩
      · exact ⟨_, _, .serializeError hlz4 hdeser hser⟩
    · exact ⟨_, _, .deserializeError hlz4 hdeser⟩
  · exact ⟨_, _, .lz4Error hlz4⟩

variable {lib data}

/-- A run of `compress` is one of its ways to end. -/
theorem compressEnds_of_run {con con' : Console} (h : compress lib data con = (outcome, con')) :
    ∃ log, CompressEnds lib data outcome log ∧ con' = con.withErr log := by
  rcases exists_compressEnds lib data with ⟨outcome', log, hends⟩
  have hrun := compress_run hends con
  rw [h, Prod.mk.injEq] at hrun
  rcases hrun with ⟨rfl, rfl⟩
  exact ⟨log, hends, rfl⟩

end Runs

/-! ## How a run of the program ends -/

variable (lib)

/-- The report of a run whose request ended in `outcome`, with the lines it
logged. -/
def requestReport (outcome : Outcome Bytes) (log : List String) : Report :=
  match outcome with
  | .returned buffer => ⟨.status 0, lib.strBase64Encode buffer ++ [newline], log⟩
  | .exception what => ⟨.status 1, [], log ++ ["Error: " ++ what]⟩
  | .fatal _ => ⟨.killed, [], log⟩

/-- The ways in which a run of the program ends on an input. -/
inductive RunEnds (input : Bytes) : Report → Prop where
  | invalidMode (hcompress : modeWord input ≠ ascii "compress")
      (hdecompress : modeWord input ≠ ascii "decompress") :
      RunEnds input ⟨.status 1, [], ["Invalid mode. Use 'compress' or 'decompress'."]⟩
  | noData (hmode : modeWord input = ascii "compress" ∨ modeWord input = ascii "decompress")
      (hdata : dataWord input = []) :
      RunEnds input ⟨.status 1, [], ["Input data is empty."]⟩
  | nullSlice (hmode : modeWord input = ascii "compress") (hdata : dataWord input ≠ [])
      (hbinary : lib.base64Decode (dataWord input) = []) :
      RunEnds input ⟨.killed, [], []⟩
  | compress {outcome : Outcome Bytes} {log : List String}
      (hmode : modeWord input = ascii "compress") (hdata : dataWord input ≠ [])
      (hbinary : lib.base64Decode (dataWord input) ≠ [])
      (hends : CompressEnds lib (lib.base64Decode (dataWord input)) outcome log) :
      RunEnds input (requestReport lib outcome log)
  | decompress {outcome : Outcome Bytes} {log : List String}
      (hmode : modeWord input = ascii "decompress") (hdata : dataWord input ≠ [])
      (hends : DecompressEnds lib (lib.base64Decode (dataWord input)) outcome log) :
      RunEnds input (requestReport lib outcome log)

variable {lib}

/-- A run that reaches `compress` prints the line of what it returns. -/
theorem run_compress {input : Bytes} {outcome : Outcome Bytes} {log : List String}
    (hmode : modeWord input = ascii "compress") (hdata : dataWord input ≠ [])
    (hbinary : lib.base64Decode (dataWord input) ≠ [])
    (hends : CompressEnds lib (lib.base64Decode (dataWord input)) outcome log) :
    run lib input = requestReport lib outcome log := by
  unfold modeWord dataWord at *
  have hrun := compress_run hends ⟨afterWord (afterWord input), [], []⟩
  cases outcome with
  | returned buffer =>
      simp [run, report, main, catchStd, hmode, hdata, exitOf, binaryToAscii, asciiToBinary,
        sliceOfVector_bind_run hbinary, bind_returned _ hrun, requestReport]
  | exception what =>
      simp [run, report, main, catchStd, hmode, hdata, exitOf, binaryToAscii, asciiToBinary,
        sliceOfVector_bind_run hbinary, bind_exception _ hrun, requestReport]
  | fatal message =>
      simp [run, report, main, catchStd, hmode, hdata, exitOf, binaryToAscii, asciiToBinary,
        sliceOfVector_bind_run hbinary, bind_fatal _ hrun, requestReport]

/-- A run that reaches `decompress` prints the line of what it returns. -/
theorem run_decompress {input : Bytes} {outcome : Outcome Bytes} {log : List String}
    (hmode : modeWord input = ascii "decompress") (hdata : dataWord input ≠ [])
    (hends : DecompressEnds lib (lib.base64Decode (dataWord input)) outcome log) :
    run lib input = requestReport lib outcome log := by
  have hmodes : ascii "decompress" ≠ ascii "compress" := by decide
  unfold modeWord dataWord at *
  have hrun := decompress_run hends ⟨afterWord (afterWord input), [], []⟩
  cases outcome with
  | returned buffer =>
      simp [run, report, main, catchStd, hmode, hmodes, hdata, exitOf, binaryToAscii,
        bind_returned _ hrun, requestReport]
  | exception what =>
      simp [run, report, main, catchStd, hmode, hmodes, hdata, exitOf, binaryToAscii,
        bind_exception _ hrun, requestReport]
  | fatal message =>
      simp [run, report, main, catchStd, hmode, hmodes, hdata, exitOf, binaryToAscii,
        bind_fatal _ hrun, requestReport]

theorem run_eq {input : Bytes} {r : Report} (h : RunEnds lib input r) : run lib input = r := by
  cases h with
  | invalidMode hcompress hdecompress =>
      unfold modeWord at hcompress hdecompress
      simp [run, report, main, catchStd, hcompress, hdecompress, exitOf]
  | noData hmode hdata =>
      unfold modeWord dataWord at *
      rcases hmode with hmode | hmode
      · simp [run, report, main, catchStd, hmode, hdata, exitOf]
      · simp [run, report, main, catchStd, hmode, hdata, exitOf]
  | nullSlice hmode hdata hbinary =>
      -- malformed base64 decodes to the empty buffer, which has no slice
      unfold modeWord dataWord at *
      simp [run, report, main, catchStd, hmode, hdata, hbinary, exitOf, binaryToAscii,
        asciiToBinary, sliceOfVector_nil_bind_run]
  | compress hmode hdata hbinary hends => exact run_compress hmode hdata hbinary hends
  | decompress hmode hdata hends => exact run_decompress hmode hdata hends

/-- **Every run of the program** ends in one of these ways. -/
theorem run_ends (lib : TonCryptoLib Cell) (input : Bytes) : RunEnds lib input (run lib input) := by
  suffices h : ∃ r, RunEnds lib input r by
    rcases h with ⟨r, hr⟩
    rwa [run_eq hr]
  by_cases hcompress : modeWord input = ascii "compress"
  · by_cases hdata : dataWord input = []
    · exact ⟨_, .noData (Or.inl hcompress) hdata⟩
    · by_cases hbinary : lib.base64Decode (dataWord input) = []
      · exact ⟨_, .nullSlice hcompress hdata hbinary⟩
      · rcases exists_compressEnds lib (lib.base64Decode (dataWord input)) with ⟨_, _, hends⟩
        exact ⟨_, .compress hcompress hdata hbinary hends⟩
  · by_cases hdecompress : modeWord input = ascii "decompress"
    · by_cases hdata : dataWord input = []
      · exact ⟨_, .noData (Or.inr hdecompress) hdata⟩
      · rcases exists_decompressEnds lib (lib.base64Decode (dataWord input)) with ⟨_, _, hends⟩
        exact ⟨_, .decompress hdecompress hdata hends⟩
    · exact ⟨_, .invalidMode hcompress hdecompress⟩

end TonEncoder.Tester

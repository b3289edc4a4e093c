import TonEncoder.CryptoLib
import TonEncoder.Request

/-! # The LZ4 programs

`ton-compress-contest-linux/solution.cpp`, its copy for Windows, and
`examples/solution.cpp`. They share the coding of a block, one LZ4 block of the
serialization in mode 2 with a cap of 2 MiB on the way back, and differ in how
the main function reports failures: the contest programs check, the example
prints a message.

`Lz4CompressEnds` and `Lz4DecompressEnds` list every way in which the coding ends,
and `Lz4RunEnds` does so for a run of a program.
-/

namespace TonEncoder

open Process

variable {Cell : Type} (lib : TonCryptoLib Cell)

/-! ## The coding of a block -/

/-- Code a block as one LZ4 block of its serialization in `mode`. -/
def lz4CompressRoot (mode : Nat) (data : Bytes) : Proc Bytes := do
  let root ← (lib.stdBocDeserialize data).moveAsOk
  let serialized ← (lib.stdBocSerialize root mode).moveAsOk
  return lib.lz4Compress serialized

/-- Decode one LZ4 block under a cap, and store its root in `mode`. -/
def lz4DecompressRoot (maxDecompressedSize mode : Nat) (data : Bytes) : Proc Bytes := do
  let serialized ← (lib.lz4Decompress data maxDecompressedSize).moveAsOk
  let root ← (lib.stdBocDeserialize serialized).moveAsOk
  (lib.stdBocSerialize root mode).moveAsOk

/-- The main function of the contest programs: a failed check ends the process. -/
def checkedMain (compress decompress : Bytes → Proc Bytes) : Proc Nat := do
  let mode ← readWord
  check (mode == ascii "compress" || mode == ascii "decompress")
    "mode == \"compress\" || mode == \"decompress\""
  let base64Data ← readWord
  check (!base64Data.isEmpty) "!base64_data.empty()"
  let data ← (lib.base64DecodeResult base64Data).moveAsOk
  let data ← if mode == ascii "compress" then compress data else decompress data
  putLine (lib.base64Encode data)
  return 0

namespace Linux

def compress (data : Bytes) : Proc Bytes := lz4CompressRoot lib 2 data

def decompress (data : Bytes) : Proc Bytes := lz4DecompressRoot lib (2 <<< 20) 31 data

def main : Proc Nat := checkedMain lib (compress lib) (decompress lib)

end Linux

namespace Windows

def compress (data : Bytes) : Proc Bytes := lz4CompressRoot lib 2 data

def decompress (data : Bytes) : Proc Bytes := lz4DecompressRoot lib (2 <<< 20) 31 data

def main : Proc Nat := checkedMain lib (compress lib) (decompress lib)

end Windows

namespace Examples

/-- A binary buffer as a string of the same bytes. -/
def binaryToAscii (binaryData : Bytes) : Bytes := binaryData

/-- A string as a vector of the same bytes. -/
def asciiToBinary (asciiStr : Bytes) : Bytes := asciiStr

def compressBlock (data : Bytes) : Proc Bytes := lz4CompressRoot lib 2 data

def decompressBlock (data : Bytes) : Proc Bytes := lz4DecompressRoot lib (2 <<< 20) 31 data

def main : Proc Nat :=
  catchStd (do
      let mode ← readWord
      if mode != ascii "compress" && mode != ascii "decompress" then
        errLine "Invalid mode. Use 'compress' or 'decompress'."
        return 1
      let base64Data ← readWord
      if base64Data.isEmpty then
        errLine "Input data is empty."
        return 1
      let binaryData ← (lib.base64DecodeResult base64Data).moveAsOk
      let asciiStr := binaryToAscii binaryData
      if mode == ascii "compress" then
        let binaryInput := asciiToBinary asciiStr
        let slice ← sliceOfVector binaryInput
        let compressedData ← compressBlock lib slice
        putLine (lib.base64Encode compressedData)
      else if mode == ascii "decompress" then
        let decompressedData ← decompressBlock lib binaryData
        let decompressedAscii := binaryToAscii decompressedData
        putLine (lib.base64Encode decompressedAscii)
      return 0)
    fun what => do
      errLine ("Error: " ++ what)
      return 1

end Examples

/-- The three programs. -/
inductive Lz4Program where
  | linux
  | windows
  | examples
deriving DecidableEq, Repr

namespace Lz4Program

def compress : Lz4Program → Bytes → Proc Bytes
  | linux => Linux.compress lib
  | windows => Windows.compress lib
  | examples => Examples.compressBlock lib

def decompress : Lz4Program → Bytes → Proc Bytes
  | linux => Linux.decompress lib
  | windows => Windows.decompress lib
  | examples => Examples.decompressBlock lib

def main : Lz4Program → Proc Nat
  | linux => Linux.main lib
  | windows => Windows.main lib
  | examples => Examples.main lib

/-- A run of a program on an input. -/
def run (program : Lz4Program) (input : Bytes) : Report := report (program.main lib) input

/-- The programs share the coding of a block. -/
theorem compress_eq (program : Lz4Program) (data : Bytes) :
    program.compress lib data = lz4CompressRoot lib 2 data := by
  cases program <;> rfl

theorem decompress_eq (program : Lz4Program) (data : Bytes) :
    program.decompress lib data = lz4DecompressRoot lib (2 <<< 20) 31 data := by
  cases program <;> rfl

end Lz4Program

/-! ## How the coding ends -/

/-- The ways in which the coding of a block ends. -/
inductive Lz4CompressEnds (mode : Nat) (data : Bytes) : Outcome Bytes → Prop where
  | deserializeError {status : Status} (hdeser : lib.stdBocDeserialize data = .error status) :
      Lz4CompressEnds mode data (.fatal (unexpectedStatus status))
  | serializeError {root : Cell} {status : Status}
      (hdeser : lib.stdBocDeserialize data = .ok root)
      (hser : lib.stdBocSerialize root mode = .error status) :
      Lz4CompressEnds mode data (.fatal (unexpectedStatus status))
  | done {root : Cell} {serialized : Bytes} (hdeser : lib.stdBocDeserialize data = .ok root)
      (hser : lib.stdBocSerialize root mode = .ok serialized) :
      Lz4CompressEnds mode data (.returned (lib.lz4Compress serialized))

/-- The ways in which the decoding of a block ends. -/
inductive Lz4DecompressEnds (maxDecompressedSize mode : Nat) (data : Bytes) :
    Outcome Bytes → Prop where
  | lz4Error {status : Status}
      (hlz4 : lib.lz4Decompress data maxDecompressedSize = .error status) :
      Lz4DecompressEnds maxDecompressedSize mode data (.fatal (unexpectedStatus status))
  | deserializeError {serialized : Bytes} {status : Status}
      (hlz4 : lib.lz4Decompress data maxDecompressedSize = .ok serialized)
      (hdeser : lib.stdBocDeserialize serialized = .error status) :
      Lz4DecompressEnds maxDecompressedSize mode data (.fatal (unexpectedStatus status))
  | serializeError {serialized : Bytes} {root : Cell} {status : Status}
      (hlz4 : lib.lz4Decompress data maxDecompressedSize = .ok serialized)
      (hdeser : lib.stdBocDeserialize serialized = .ok root)
      (hser : lib.stdBocSerialize root mode = .error status) :
      Lz4DecompressEnds maxDecompressedSize mode data (.fatal (unexpectedStatus status))
  | done {serialized block : Bytes} {root : Cell}
      (hlz4 : lib.lz4Decompress data maxDecompressedSize = .ok serialized)
      (hdeser : lib.stdBocDeserialize serialized = .ok root)
      (hser : lib.stdBocSerialize root mode = .ok block) :
      Lz4DecompressEnds maxDecompressedSize mode data (.returned block)

variable {lib}

section Runs

variable {maxDecompressedSize mode : Nat} {data : Bytes} {outcome : Outcome Bytes}

theorem lz4CompressRoot_run (h : Lz4CompressEnds lib mode data outcome) (con : Console) :
    lz4CompressRoot lib mode data con = (outcome, con) := by
  cases h with
  | deserializeError hdeser => rw [lz4CompressRoot, hdeser, moveAsOk_error_bind_run]
  | serializeError hdeser hser =>
      rw [lz4CompressRoot, hdeser, moveAsOk_ok_bind_run, hser, moveAsOk_error_bind_run]
  | done hdeser hser =>
      rw [lz4CompressRoot, hdeser, moveAsOk_ok_bind_run, hser, moveAsOk_ok_bind_run, pure_run]

theorem lz4DecompressRoot_run
    (h : Lz4DecompressEnds lib maxDecompressedSize mode data outcome) (con : Console) :
    lz4DecompressRoot lib maxDecompressedSize mode data con = (outcome, con) := by
  cases h with
  | lz4Error hlz4 => rw [lz4DecompressRoot, hlz4, moveAsOk_error_bind_run]
  | deserializeError hlz4 hdeser =>
      rw [lz4DecompressRoot, hlz4, moveAsOk_ok_bind_run, hdeser, moveAsOk_error_bind_run]
  | serializeError hlz4 hdeser hser =>
      rw [lz4DecompressRoot, hlz4, moveAsOk_ok_bind_run, hdeser, moveAsOk_ok_bind_run, hser,
        moveAsOk_error_run]
  | done hlz4 hdeser hser =>
      rw [lz4DecompressRoot, hlz4, moveAsOk_ok_bind_run, hdeser, moveAsOk_ok_bind_run, hser,
        moveAsOk_ok_run]

variable (lib mode data)

/-- The coding of a block ends in one of its ways on every input. -/
theorem exists_lz4CompressEnds : ∃ outcome, Lz4CompressEnds lib mode data outcome := by
  rcases hdeser : lib.stdBocDeserialize data with root | status
  · rcases hser : lib.stdBocSerialize root mode with serialized | status
    · exact ⟨_, .done hdeser hser⟩
    · exact ⟨_, .serializeError hdeser hser⟩
  · exact ⟨_, .deserializeError hdeser⟩

/-- The decoding of a block ends in one of its ways on every input. -/
theorem exists_lz4DecompressEnds (maxDecompressedSize : Nat) :
    ∃ outcome, Lz4DecompressEnds lib maxDecompressedSize mode data outcome := by
  rcases hlz4 : lib.lz4Decompress data maxDecompressedSize with serialized | status
  · rcases hdeser : lib.stdBocDeserialize serialized with root | status
    · rcases hser : lib.stdBocSerialize root mode with block | status
      · exact ⟨_, .done hlz4 hdeser hser⟩
      · exact ⟨_, .serializeError hlz4 hdeser hser⟩
    · exact ⟨_, .deserializeError hlz4 hdeser⟩
  · exact ⟨_, .lz4Error hlz4⟩

variable {lib mode data}

/-- What the coding of a block returns is the LZ4 block of its serialization. -/
theorem lz4CompressRoot_returned {root : Cell} {c : Bytes} {con con' : Console}
    (hdeser : lib.stdBocDeserialize data = .ok root)
    (hrun : lz4CompressRoot lib mode data con = (.returned c, con')) :
    ∃ serialized, lib.stdBocSerialize root mode = .ok serialized ∧
      lib.lz4Compress serialized = c := by
  rcases exists_lz4CompressEnds lib mode data with ⟨outcome, hends⟩
  rw [lz4CompressRoot_run hends con, Prod.mk.injEq] at hrun
  rcases hrun with ⟨rfl, _⟩
  cases hends with
  | @done root' serialized hdeser' hser =>
      rw [hdeser, Result.ok.injEq] at hdeser'
      subst hdeser'
      exact ⟨serialized, hser, rfl⟩

end Runs

/-! ## How a run of a program ends -/

variable (lib)

/-- The ways in which a run of a program ends on an input. Whatever goes wrong, it
prints nothing and has no success. -/
inductive Lz4RunEnds (input : Bytes) : Report → Prop where
  | failed {exit : Exit} {log : List String} (hexit : exit ≠ .success) :
      Lz4RunEnds input ⟨exit, [], log⟩
  | compressed {binary buffer : Bytes} (hmode : modeWord input = ascii "compress")
      (hdecode : lib.base64DecodeResult (dataWord input) = .ok binary)
      (hends : Lz4CompressEnds lib 2 binary (.returned buffer)) :
      Lz4RunEnds input ⟨.success, lib.base64Encode buffer ++ [newline], []⟩
  | decompressed {binary buffer : Bytes} (hmode : modeWord input = ascii "decompress")
      (hdecode : lib.base64DecodeResult (dataWord input) = .ok binary)
      (hends : Lz4DecompressEnds lib (2 <<< 20) 31 binary (.returned buffer)) :
      Lz4RunEnds input ⟨.success, lib.base64Encode buffer ++ [newline], []⟩

variable {lib}

namespace Lz4Program

/-- What a run reports of the outcome of its request, which is no exception. -/
def requestReport (lib : TonCryptoLib Cell) : Outcome Bytes → Report
  | .returned buffer => ⟨.success, lib.base64Encode buffer ++ [newline], []⟩
  | .exception _ => ⟨.killed, [], []⟩
  | .fatal _ => ⟨.killed, [], []⟩

section Requests

variable {input binary : Bytes} {outcome : Outcome Bytes} (program : Lz4Program)
  (hdata : dataWord input ≠ []) (hdecode : lib.base64DecodeResult (dataWord input) = .ok binary)

include hdata hdecode

/-- A run that codes a block. The example makes a slice of the buffer, which must
not be empty for it. -/
theorem run_compress (hmode : modeWord input = ascii "compress")
    (hslice : program = .examples → binary ≠ []) (hends : Lz4CompressEnds lib 2 binary outcome) :
    program.run lib input = requestReport lib outcome := by
  have hlinux : linux.run lib input = requestReport lib outcome := by
    have hrun : Linux.compress lib binary ⟨afterWord (afterWord input), [], []⟩ = (outcome, _) :=
      lz4CompressRoot_run hends _
    unfold modeWord dataWord at *
    cases outcome with
    | returned buffer =>
        simp [run, main, Linux.main, checkedMain, report, hmode, hdata, hdecode,
          bind_returned _ hrun, requestReport, exitOf, Exit.success]
    | exception what => cases hends
    | fatal message =>
        simp [run, main, Linux.main, checkedMain, report, hmode, hdata, hdecode,
          bind_fatal _ hrun, requestReport, exitOf]
  cases program with
  | linux => exact hlinux
  -- the copy for Windows has the same text
  | windows => exact hlinux
  | examples =>
      have hbinary := hslice rfl
      have hrun : Examples.compressBlock lib binary ⟨afterWord (afterWord input), [], []⟩ =
        (outcome, _) := lz4CompressRoot_run hends _
      unfold modeWord dataWord at *
      cases outcome with
      | returned buffer =>
          simp [run, main, Examples.main, report, catchStd, hmode, hdata, hdecode,
            Examples.binaryToAscii, Examples.asciiToBinary, sliceOfVector_bind_run hbinary,
            bind_returned _ hrun, requestReport, exitOf, Exit.success]
      | exception what => cases hends
      | fatal message =>
          simp [run, main, Examples.main, report, catchStd, hmode, hdata, hdecode,
            Examples.binaryToAscii, Examples.asciiToBinary, sliceOfVector_bind_run hbinary,
            bind_fatal _ hrun, requestReport, exitOf]

/-- A run that decodes a block. -/
theorem run_decompress (hmode : modeWord input = ascii "decompress")
    (hends : Lz4DecompressEnds lib (2 <<< 20) 31 binary outcome) :
    program.run lib input = requestReport lib outcome := by
  have hmodes : ascii "decompress" ≠ ascii "compress" := by decide
  have hlinux : linux.run lib input = requestReport lib outcome := by
    have hrun : Linux.decompress lib binary ⟨afterWord (afterWord input), [], []⟩ =
      (outcome, _) := lz4DecompressRoot_run hends _
    unfold modeWord dataWord at *
    cases outcome with
    | returned buffer =>
        simp [run, main, Linux.main, checkedMain, report, hmode, hmodes, hdata, hdecode,
          bind_returned _ hrun, requestReport, exitOf, Exit.success]
    | exception what => cases hends
    | fatal message =>
        simp [run, main, Linux.main, checkedMain, report, hmode, hmodes, hdata, hdecode,
          bind_fatal _ hrun, requestReport, exitOf]
  cases program with
  | linux => exact hlinux
  | windows => exact hlinux
  | examples =>
      have hrun : Examples.decompressBlock lib binary ⟨afterWord (afterWord input), [], []⟩ =
        (outcome, _) := lz4DecompressRoot_run hends _
      unfold modeWord dataWord at *
      cases outcome with
      | returned buffer =>
          simp [run, main, Examples.main, report, catchStd, hmode, hmodes, hdata, hdecode,
            Examples.binaryToAscii, bind_returned _ hrun, requestReport, exitOf, Exit.success]
      | exception what => cases hends
      | fatal message =>
          simp [run, main, Examples.main, report, catchStd, hmode, hmodes, hdata, hdecode,
            Examples.binaryToAscii, bind_fatal _ hrun, requestReport, exitOf]

end Requests

/-! ### Requests that reach no coding -/

/-- A run that stops before the coding. -/
def Refused (r : Report) : Prop := r.exit ≠ .success ∧ r.stdout = []

section Refusals

variable {input : Bytes} (program : Lz4Program)

theorem run_invalidMode (hcompress : modeWord input ≠ ascii "compress")
    (hdecompress : modeWord input ≠ ascii "decompress") : Refused (program.run lib input) := by
  unfold modeWord at *
  cases program <;>
    simp [Refused, run, main, Linux.main, Windows.main, checkedMain, Examples.main, report,
      catchStd, hcompress, hdecompress, exitOf, Exit.success]

theorem run_noData (hmode : modeWord input = ascii "compress" ∨ modeWord input = ascii "decompress")
    (hdata : dataWord input = []) : Refused (program.run lib input) := by
  unfold modeWord dataWord at *
  rcases hmode with hmode | hmode <;> cases program <;>
    simp [Refused, run, main, Linux.main, Windows.main, checkedMain, Examples.main, report,
      catchStd, hmode, hdata, exitOf, Exit.success]

theorem run_badBase64 {status : Status}
    (hmode : modeWord input = ascii "compress" ∨ modeWord input = ascii "decompress")
    (hdata : dataWord input ≠ [])
    (hdecode : lib.base64DecodeResult (dataWord input) = .error status) :
    Refused (program.run lib input) := by
  unfold modeWord dataWord at *
  rcases hmode with hmode | hmode <;> cases program <;>
    simp [Refused, run, main, Linux.main, Windows.main, checkedMain, Examples.main, report,
      catchStd, hmode, hdata, hdecode, exitOf, Exit.success]

/-- The example has no slice of an empty buffer. -/
theorem run_nullSlice (hmode : modeWord input = ascii "compress") (hdata : dataWord input ≠ [])
    (hdecode : lib.base64DecodeResult (dataWord input) = .ok []) :
    Refused (examples.run lib input) := by
  unfold modeWord dataWord at *
  simp [Refused, run, main, Examples.main, report, catchStd, hmode, hdata, hdecode,
    Examples.binaryToAscii, Examples.asciiToBinary, sliceOfVector_nil_bind_run, exitOf,
    Exit.success]

end Refusals

/-- **Every run of the LZ4 programs** delivers the result of its request or fails
with an empty output: no failure is silent. -/
theorem lz4RunEnds_run (program : Lz4Program) (input : Bytes) :
    Lz4RunEnds lib input (program.run lib input) := by
  have hfailed : Refused (program.run lib input) → Lz4RunEnds lib input (program.run lib input) := by
    intro h
    rcases hr : program.run lib input with ⟨exit, stdout, stderr⟩
    rw [hr] at h
    rcases h with ⟨hexit, rfl⟩
    exact .failed hexit
  by_cases hknown : modeWord input = ascii "compress" ∨ modeWord input = ascii "decompress"
  swap
  · -- an unknown mode
    rw [not_or] at hknown
    exact hfailed (run_invalidMode program hknown.1 hknown.2)
  by_cases hdata : dataWord input = []
  · exact hfailed (run_noData program hknown hdata)
  rcases hdecode : lib.base64DecodeResult (dataWord input) with binary | status
  swap
  · -- malformed base64
    exact hfailed (run_badBase64 program hknown hdata hdecode)
  rcases hknown with hmode | hmode
  · by_cases hslice : program = .examples → binary ≠ []
    · rcases exists_lz4CompressEnds lib 2 binary with ⟨outcome, hends⟩
      rw [run_compress program hdata hdecode hmode hslice hends]
      cases hends with
      | deserializeError => exact .failed (by simp [Exit.success])
      | serializeError => exact .failed (by simp [Exit.success])
      | done hdeser hser => exact .compressed hmode hdecode (.done hdeser hser)
    · -- the example and an empty buffer
      simp only [ne_eq, Classical.not_imp, not_not] at hslice
      rcases hslice with ⟨rfl, rfl⟩
      exact hfailed (run_nullSlice hmode hdata hdecode)
  · rcases exists_lz4DecompressEnds lib 31 binary (2 <<< 20) with ⟨outcome, hends⟩
    rw [run_decompress program hdata hdecode hmode hends]
    cases hends with
    | lz4Error => exact .failed (by simp [Exit.success])
    | deserializeError => exact .failed (by simp [Exit.success])
    | serializeError => exact .failed (by simp [Exit.success])
    | done hlz4 hdeser hser => exact .decompressed hmode hdecode (.done hlz4 hdeser hser)

end Lz4Program

end TonEncoder

import TonEncoder.FileProgram
import TonEncoder.Verdicts

/-! # The programs together

The program at the top of the repository and the LZ4 programs read one format, an
LZ4 block of a bag of cells, and differ in the modes they write and in the sizes
they accept.

* `FileProgram.answer` is a run of the former as its user sees it: the contents of
  `output.txt` for those of `input.txt`.
* `fileProgram_runsRoundTrip`, `fileProgram_to_lz4Program`: what it compresses in
  one chunk, it restores, and so do the LZ4 programs.
* `lz4Program_to_fileProgram`: it restores what they compress up to 256 KiB, and is killed
  on anything beyond.
* `rounds_eq_stored`: after any number of programs a block is in its stored form.
-/

namespace TonEncoder

open Process RunTests

variable {Cell : Type} {lib : TonCryptoLib Cell}

/-! ## Runs between files -/

namespace FileProgram

/-- A run whose files can be opened, for whoever reads `output.txt`. -/
def answer (lib : TonCryptoLib Cell) (input : Bytes) : Report :=
  let r := run lib (some input) true
  ⟨r.exit, r.written.getD [], r.stderr⟩

/-- What the program leaves for a block. -/
theorem answer_compress_block (hbase64 : Base64Contract lib) (hne : ∀ x, lib.lz4Compress x ≠ [])
    {data buffer : Bytes} (hdata : data ≠ []) (hends : CompressEnds lib data (.returned buffer)) :
    answer lib (request (ascii "compress") (lib.strBase64Encode data)) =
      ⟨.success, lib.strBase64Encode buffer ++ [newline], []⟩ := by
  have hword := dataWord_request isWord_compress (hbase64.isWord_encode data hdata)
  rw [← hbase64.decode_encode data, ← hword] at hends
  rw [answer, run_compress_returned hne (modeWord_request isWord_compress _) hends]
  rfl

/-- What the program leaves for the line of a buffer. -/
theorem answer_decompress_line (hbase64 : Base64Contract lib) {buffer block lineEnd : Bytes}
    (hne : buffer ≠ []) (hend : lineEnd ∈ [[], [newline]])
    (hends : Lz4DecompressEnds lib maxDecompressedSize 31 buffer (.returned block)) :
    answer lib (request (ascii "decompress") (lib.strBase64Encode buffer ++ lineEnd)) =
      ⟨.success, lib.strBase64Encode block ++ [newline], []⟩ := by
  have hword := dataWord_request_lineEnd isWord_decompress (hbase64.isWord_encode buffer hne) hend
  rw [← hbase64.decode_encode buffer, ← hword] at hends
  rw [answer, run_decompress_returned (modeWord_request isWord_decompress _) hends]
  rfl

/-- A request to decompress what the file program refuses ends its process, whatever the
state of its output file. -/
theorem run_decompress_fatal (hbase64 : Base64Contract lib) {buffer lineEnd : Bytes}
    {message : String} (hne : buffer ≠ []) (hend : lineEnd ∈ [[], [newline]])
    (hends : Lz4DecompressEnds lib maxDecompressedSize 31 buffer (.fatal message))
    (outputOpens : Bool) :
    run lib (some (request (ascii "decompress") (lib.strBase64Encode buffer ++ lineEnd)))
      outputOpens = ⟨.killed, [], [], none⟩ := by
  have hmodes : ascii "decompress" ≠ ascii "compress" := by decide
  have hmode := modeWord_request isWord_decompress (lib.strBase64Encode buffer ++ lineEnd)
  have hword := dataWord_request_lineEnd isWord_decompress (hbase64.isWord_encode buffer hne) hend
  rw [← hbase64.decode_encode buffer, ← hword] at hends
  have hrun := decompress_run hends ⟨[], [], []⟩
  simp [run, main, catchStd, hmode, hmodes, bind_fatal _ hrun]

end FileProgram

/-! ## From the file program -/

section FromFileProgram

variable {root : Cell} {data serialized : Bytes} (hround : BocRoundTrip lib)
  (hempty : BocRejectsEmpty lib) (hlz4 : Lz4RoundTrip lib) (htrail : Lz4Trailing lib)
  (hdata : lib.stdBocSerialize root 31 = .ok data)
  (hser : lib.stdBocSerialize root 0 = .ok serialized)
  (hfits : serialized.length ≤ FileProgram.chunkSize)

include hround hempty hdata hser hfits

/-- One chunk is one LZ4 block. -/
theorem compressEnds_one_chunk :
    FileProgram.CompressEnds lib data (.returned (lib.lz4Compress serialized)) := by
  have hstream : FileProgram.lz4Stream lib serialized = lib.lz4Compress serialized :=
    Chunks.stream_of_length_le _ (serialize_ne_nil hround hempty hser) hfits
  rw [← hstream]
  exact .done (hround root 31 data hdata) hser

omit hempty in
include hlz4 in
/-- Any cap that holds a chunk restores it. -/
theorem decompressEnds_one_chunk {cap : Nat} (hcap : FileProgram.chunkSize ≤ cap) :
    Lz4DecompressEnds lib cap 31 (lib.lz4Compress serialized) (.returned data) :=
  .done (hlz4.decompress_compress serialized cap (le_trans hfits hcap))
    (hround root 0 serialized hser) hdata

include hlz4 htrail

/-- **A round trip between files**: a block whose plain form fits one chunk. -/
theorem fileProgram_runsRoundTrip (hbase64 : Base64Contract lib) :
    RunsRoundTrip (FileProgram.answer lib) (FileProgram.answer lib)
      (lib.strBase64Encode data) := by
  have hends := compressEnds_one_chunk hround hempty hdata hser hfits
  have hends' := decompressEnds_one_chunk hround hlz4 hdata hser hfits
    FileProgram.chunkSize_le_maxDecompressedSize
  refine ⟨lib.strBase64Encode (lib.lz4Compress serialized), ?_, ?_⟩
  · exact FileProgram.answer_compress_block hbase64 htrail.compress_ne_nil
      (serialize_ne_nil hround hempty hdata) hends
  · intro lineEnd hend
    exact FileProgram.answer_decompress_line hbase64 (htrail.compress_ne_nil serialized) hend hends'

/-- **The LZ4 programs restore** what the file program compresses in one chunk,
though in another mode than theirs. -/
theorem fileProgram_to_lz4Program (hbase64 : Base64Standard lib) (q : Lz4Program) :
    RunsRoundTrip (FileProgram.answer lib) (q.run lib) (Base64.encode data) := by
  have hends := compressEnds_one_chunk hround hempty hdata hser hfits
  have hcap : FileProgram.chunkSize ≤ 2 <<< 20 := by
    unfold FileProgram.chunkSize
    omega
  have hends' := decompressEnds_one_chunk hround hlz4 hdata hser hfits hcap
  refine ⟨Base64.encode (lib.lz4Compress serialized), ?_, ?_⟩
  · have hrun := FileProgram.answer_compress_block hbase64.contract htrail.compress_ne_nil
      (serialize_ne_nil hround hempty hdata) hends
    simpa only [hbase64.strBase64Encode_eq] using hrun
  · intro lineEnd hend
    have hrun := Lz4Program.run_decompress_line hbase64.resultContract q
      (htrail.compress_ne_nil serialized) hend hends'
    simpa only [hbase64.base64Encode_eq] using hrun

end FromFileProgram

section Samples

open Reference

theorem length_plainForm_wide : (plainForm .wide).length ≤ FileProgram.chunkSize := by
  have hlength : (plainForm .wide).length + 4 = 144 := length_plainForm .wide
  unfold FileProgram.chunkSize
  omega

theorem fileProgram_runsRoundTrip_wide :
    RunsRoundTrip (FileProgram.answer Reference.lib) (FileProgram.answer Reference.lib)
      (Reference.lib.strBase64Encode (blockForm .wide)) :=
  fileProgram_runsRoundTrip bocRoundTrip bocRejectsEmpty lz4RoundTrip lz4Trailing
    (serialize_blockMode .wide) (serialize_plainMode .wide) length_plainForm_wide base64Contract

theorem fileProgram_to_linux_wide :
    RunsRoundTrip (FileProgram.answer Reference.lib) (Lz4Program.linux.run Reference.lib)
      (Base64.encode (blockForm .wide)) :=
  fileProgram_to_lz4Program bocRoundTrip bocRejectsEmpty lz4RoundTrip lz4Trailing
    (serialize_blockMode .wide) (serialize_plainMode .wide) length_plainForm_wide
    base64Standard_reference .linux

end Samples

/-! ## To the file program -/

/-- **From an LZ4 program to the file program.** A block whose compact form fits the cap
of 256 KiB is restored. The run on any other one is killed and writes nothing. -/
theorem lz4Program_to_fileProgram (hround : BocRoundTrip lib) (hempty : BocRejectsEmpty lib)
    (hlz4 : Lz4RoundTrip lib) (hsound : Lz4Sound lib) (hne : ∀ x, lib.lz4Compress x ≠ [])
    (hbase64 : Base64Standard lib) {root : Cell} {data serialized : Bytes}
    (hdata : lib.stdBocSerialize root 31 = .ok data)
    (hser : lib.stdBocSerialize root 2 = .ok serialized) (p : Lz4Program) :
    (serialized.length ≤ FileProgram.maxDecompressedSize →
        RunsRoundTrip (p.run lib) (FileProgram.answer lib) (Base64.encode data)) ∧
      (FileProgram.maxDecompressedSize < serialized.length →
        ∃ line, p.run lib (request (ascii "compress") (Base64.encode data)) =
            ⟨.success, line ++ [newline], []⟩ ∧
          ∀ lineEnd ∈ [[], [newline]], ∀ outputOpens,
            FileProgram.run lib (some (request (ascii "decompress") (line ++ lineEnd)))
              outputOpens = ⟨.killed, [], [], none⟩) := by
  have hblock := hne serialized
  have hcompress : p.run lib (request (ascii "compress") (Base64.encode data)) =
      ⟨.success, Base64.encode (lib.lz4Compress serialized) ++ [newline], []⟩ := by
    have hrun := Lz4Program.run_compress_block hbase64.resultContract p
      (serialize_ne_nil hround hempty hdata) (.done (hround root 31 data hdata) hser)
    simpa only [hbase64.base64Encode_eq] using hrun
  constructor
  · intro hfits
    refine ⟨Base64.encode (lib.lz4Compress serialized), hcompress, ?_⟩
    intro lineEnd hend
    have hends : Lz4DecompressEnds lib FileProgram.maxDecompressedSize 31
        (lib.lz4Compress serialized) (.returned data) :=
      .done (hlz4.decompress_compress _ _ hfits) (hround root 2 serialized hser) hdata
    have hrun := FileProgram.answer_decompress_line hbase64.contract hblock hend hends
    simpa only [hbase64.strBase64Encode_eq] using hrun
  · intro hlarge
    refine ⟨Base64.encode (lib.lz4Compress serialized), hcompress, ?_⟩
    intro lineEnd hend outputOpens
    -- the decompressor has no room for the text
    rcases lz4Decompress_error_of_lt hlz4 hsound hlarge with ⟨status, herror⟩
    have hrun := FileProgram.run_decompress_fatal hbase64.contract hblock hend (.lz4Error herror)
      outputOpens
    simpa only [hbase64.strBase64Encode_eq] using hrun

/-- A small block is restored, and on that of nearly 2 MiB the run is killed. -/
theorem linux_to_fileProgram_samples :
    RunsRoundTrip (Lz4Program.linux.run Reference.lib) (FileProgram.answer Reference.lib)
        (Base64.encode (Reference.blockForm .wide)) ∧
      ∃ line, Lz4Program.linux.run Reference.lib
            (request (ascii "compress") (Base64.encode (Reference.blockForm .tree))) =
          ⟨.success, line ++ [newline], []⟩ ∧
        FileProgram.run Reference.lib (some (request (ascii "decompress") line)) true =
          ⟨.killed, [], [], none⟩ := by
  have hne := Reference.streamCode.ne_nil
  constructor
  · have hfits : (Reference.compactForm .wide).length ≤ FileProgram.maxDecompressedSize := by
      rw [Reference.length_compactForm]
      simp [Reference.compactLength, FileProgram.maxDecompressedSize]
    exact (lz4Program_to_fileProgram Reference.bocRoundTrip Reference.bocRejectsEmpty
      Reference.lz4RoundTrip Reference.lz4Sound hne base64Standard_reference
      (Reference.serialize_blockMode .wide) (Reference.serialize_compactMode .wide) .linux).1 hfits
  · have hlarge : FileProgram.maxDecompressedSize < (Reference.compactForm .tree).length := by
      rw [Reference.length_compactForm]
      simp [Reference.compactLength, FileProgram.maxDecompressedSize]
    rcases (lz4Program_to_fileProgram Reference.bocRoundTrip Reference.bocRejectsEmpty
      Reference.lz4RoundTrip Reference.lz4Sound hne base64Standard_reference
      (Reference.serialize_blockMode .tree) (Reference.serialize_compactMode .tree) .linux).2
      hlarge with ⟨line, hcompress, hkilled⟩
    have hrun := hkilled [] nil_mem_lineEnds true
    rw [List.append_nil] at hrun
    exact ⟨line, hcompress, hrun⟩

/-! ## Rounds -/

/-- The programs whose buffers are LZ4 blocks. -/
inductive BlockProgram where
  | file
  | lz4 (program : Lz4Program)
deriving DecidableEq, Repr

namespace BlockProgram

def compress (lib : TonCryptoLib Cell) : BlockProgram → Bytes → Proc Bytes
  | file => FileProgram.compress lib
  | lz4 program => program.compress lib

def decompress (lib : TonCryptoLib Cell) : BlockProgram → Bytes → Proc Bytes
  | file => FileProgram.decompress lib
  | lz4 program => program.decompress lib

/-- The mode in which a program compresses. -/
def mode : BlockProgram → Nat
  | file => 0
  | lz4 _ => 2

/-- What a program compresses in one block. -/
def blockSize : BlockProgram → Nat
  | file => FileProgram.chunkSize
  | lz4 _ => 2 <<< 20

/-- What a program restores from one block. -/
def cap : BlockProgram → Nat
  | file => FileProgram.maxDecompressedSize
  | lz4 _ => 2 <<< 20

/-- One program compresses a block and another one restores it. -/
def round (lib : TonCryptoLib Cell) (data : Bytes) (pair : BlockProgram × BlockProgram) :
    Proc Bytes := do
  let buffer ← pair.1.compress lib data
  pair.2.decompress lib buffer

/-- A block goes through a series of programs. -/
def rounds (lib : TonCryptoLib Cell) (pairs : List (BlockProgram × BlockProgram))
    (data : Bytes) : Proc Bytes :=
  pairs.foldlM (round lib) data

/-- The serialization of a root for `p` is within what `p` puts in one block and
`q` restores. -/
def Meets (lib : TonCryptoLib Cell) (root : Cell) (p q : BlockProgram) : Prop :=
  ∃ serialized, lib.stdBocSerialize root p.mode = .ok serialized ∧
    serialized.length ≤ min p.blockSize q.cap

variable {root : Cell} {data stored : Bytes}

theorem compress_run (hround : BocRoundTrip lib) (hempty : BocRejectsEmpty lib)
    (hne : ∀ x, lib.lz4Compress x ≠ []) (p : BlockProgram) {serialized : Bytes}
    (hdeser : lib.stdBocDeserialize data = .ok root)
    (hser : lib.stdBocSerialize root p.mode = .ok serialized)
    (hfits : serialized.length ≤ p.blockSize) (con : Console) :
    p.compress lib data con = (.returned (lib.lz4Compress serialized), con) := by
  cases p with
  | file =>
      have hstream : FileProgram.lz4Stream lib serialized = lib.lz4Compress serialized :=
        Chunks.stream_of_length_le _ (serialize_ne_nil hround hempty hser) hfits
      rw [← hstream]
      exact FileProgram.compress_run hne (.done hdeser hser) con
  | lz4 program =>
      rw [compress, Lz4Program.compress_eq]
      exact lz4CompressRoot_run (.done hdeser hser) con

theorem decompress_run (q : BlockProgram) {buffer : Bytes} {outcome : Outcome Bytes}
    (hends : Lz4DecompressEnds lib q.cap 31 buffer outcome) (con : Console) :
    q.decompress lib buffer con = (outcome, con) := by
  cases q with
  | file => exact FileProgram.decompress_run hends con
  | lz4 program =>
      rw [decompress, Lz4Program.decompress_eq]
      exact lz4DecompressRoot_run hends con

/-- One round brings a block to its stored form, in whatever form it comes. -/
theorem round_run (hround : BocRoundTrip lib) (hempty : BocRejectsEmpty lib)
    (hlz4 : Lz4RoundTrip lib) (htrail : Lz4Trailing lib)
    (hdeser : lib.stdBocDeserialize data = .ok root)
    (hstored : lib.stdBocSerialize root 31 = .ok stored) {pair : BlockProgram × BlockProgram}
    (hmeets : Meets lib root pair.1 pair.2) (con : Console) :
    round lib data pair con = (.returned stored, con) := by
  rcases hmeets with ⟨serialized, hser, hle⟩
  rw [le_min_iff] at hle
  have hcompress := compress_run hround hempty htrail.compress_ne_nil pair.1 hdeser hser hle.1 con
  have hdec := hlz4.decompress_compress serialized pair.2.cap hle.2
  rw [round, bind_returned _ hcompress]
  exact decompress_run pair.2 (.done hdec (hround root pair.1.mode serialized hser) hstored) con

/-- **Any series of rounds** leaves the stored form of the root: after the first
one nothing changes. The induction is on the rounds that are left. -/
theorem rounds_eq_stored (hround : BocRoundTrip lib) (hempty : BocRejectsEmpty lib)
    (hlz4 : Lz4RoundTrip lib) (htrail : Lz4Trailing lib)
    (hdeser : lib.stdBocDeserialize data = .ok root)
    (hstored : lib.stdBocSerialize root 31 = .ok stored)
    {pairs : List (BlockProgram × BlockProgram)} (hne : pairs ≠ [])
    (hmeets : ∀ pair ∈ pairs, Meets lib root pair.1 pair.2) (con : Console) :
    rounds lib pairs data con = (.returned stored, con) := by
  induction pairs generalizing data with
  | nil => exact absurd rfl hne
  | cons pair pairs ih =>
      rw [List.forall_mem_cons] at hmeets
      have hfirst := round_run hround hempty hlz4 htrail hdeser hstored hmeets.1 con
      rw [rounds, List.foldlM_cons, bind_returned _ hfirst]
      by_cases hlast : pairs = []
      · rw [hlast]
        rfl
      · -- the stored form is a serialization of the same root
        exact ih (hround root 31 stored hstored) hlast hmeets.2

/-- All programs meet on the larger sample. -/
theorem meets_wide (p q : BlockProgram) : Meets Reference.lib .wide p q := by
  have hsize : 144 ≤ min p.blockSize q.cap := by
    cases p <;> cases q <;>
      simp [blockSize, cap, FileProgram.chunkSize, FileProgram.maxDecompressedSize]
  cases p with
  | file =>
      have hlength : (Reference.plainForm .wide).length + 4 = 144 := Reference.length_plainForm .wide
      exact ⟨Reference.plainForm .wide, rfl, by omega⟩
  | lz4 program =>
      have hlength : (Reference.compactForm .wide).length = 144 := Reference.length_compactForm .wide
      exact ⟨Reference.compactForm .wide, rfl, by omega⟩

/-- The larger sample in its compact form, through three rounds. -/
theorem rounds_wide :
    rounds Reference.lib [(file, lz4 .linux), (lz4 .windows, file), (lz4 .examples, lz4 .linux)]
        (Reference.compactForm .wide) ⟨[], [], []⟩ =
      (.returned (Reference.blockForm .wide), ⟨[], [], []⟩) := by
  refine rounds_eq_stored Reference.bocRoundTrip Reference.bocRejectsEmpty
    Reference.lz4RoundTrip Reference.lz4Trailing (Reference.deserialize_compactForm .wide)
    (Reference.serialize_blockMode .wide) (by simp) ?_ ⟨[], [], []⟩
  intro pair _
  exact meets_wide pair.1 pair.2

end BlockProgram

end TonEncoder

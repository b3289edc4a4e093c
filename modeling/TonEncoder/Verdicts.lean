import TonEncoder.RunTests
import TonEncoder.SizeLimit
import TonEncoder.Tester.RoundTrip

/-! # The programs under the test harness

What `run_tests.py` says of the programs, whatever the test blocks are:

* `Lz4Program.runTests_all`: an LZ4 program passes every test;
* `Tester.passes_iff`: the tester program passes a block exactly when the framings
  of its two functions meet on the root of the block, and all tests exactly when
  they meet on all blocks (`Tester.runTests_all_iff`).

The harness decodes base64 by the standard, so that the library has to as well
(`Base64Standard`); then the programs print ASCII, whatever their input is. No run is
stopped by the time limit, and there is a test block.
-/

namespace TonEncoder

open Process RunTests

variable {Cell : Type}

/-- The encoders of the library are the standard one, and its decoders undo it. -/
structure Base64Standard (lib : TonCryptoLib Cell) : Prop where
  strBase64Encode_eq : ∀ s, lib.strBase64Encode s = Base64.encode s
  base64Decode_encode : ∀ s, lib.base64Decode (Base64.encode s) = s
  base64Encode_eq : ∀ s, lib.base64Encode s = Base64.encode s
  base64DecodeResult_encode : ∀ s, lib.base64DecodeResult (Base64.encode s) = .ok s

/-- A test block: the stored form of a root, within the limit. -/
def TestBlock (lib : TonCryptoLib Cell) (data : Bytes) : Prop :=
  ∃ root, lib.stdBocSerialize root 31 = .ok data ∧ data.length ≤ maxSize

/-- A program that always answers in time. -/
def solutionOf (run : Bytes → Report) : Solution := fun input => some (run input)

variable {lib : TonCryptoLib Cell}

theorem Base64Standard.contract (h : Base64Standard lib) : Base64Contract lib where
  decode_encode := by
    intro s
    rw [h.strBase64Encode_eq, h.base64Decode_encode]
  isWord_encode := by
    intro s hs
    rw [h.strBase64Encode_eq]
    exact Base64.isWord_encode hs

theorem Base64Standard.resultContract (h : Base64Standard lib) : Base64ResultContract lib where
  decode_encode := by
    intro s
    rw [h.base64Encode_eq, h.base64DecodeResult_encode]
  isWord_encode := by
    intro s hs
    rw [h.base64Encode_eq]
    exact Base64.isWord_encode hs

/-- The text of a test block. -/
def blockText (data : Bytes) : Text := textOf (Base64.encode data)

/-- The harness accepts the test blocks. -/
theorem TestBlock.accepted (hround : BocRoundTrip lib) (hempty : BocRejectsEmpty lib)
    {data : Bytes} (h : TestBlock lib data) : Accepted (blockText data) := by
  rcases h with ⟨root, hdata, hle⟩
  exact ⟨data.length, getBase64Size_encode data,
    List.length_pos_iff.mpr (serialize_ne_nil hround hempty hdata), hle⟩

theorem accepted_of_testBlocks (hround : BocRoundTrip lib) (hempty : BocRejectsEmpty lib)
    {blocks : List Bytes} (h : ∀ data ∈ blocks, TestBlock lib data) :
    ∀ block ∈ blocks.map blockText, Accepted block := by
  intro block hblock
  rcases List.mem_map.mp hblock with ⟨data, hmem, rfl⟩
  exact (h data hmem).accepted hround hempty

/-- A program prints ASCII when its output is a line of base64, or nothing. -/
theorem printsAscii_of_lines {run : Bytes → Report}
    (h : ∀ input, (run input).stdout = [] ∨
      ∃ s, (run input).stdout = Base64.encode s ++ [newline]) : PrintsAscii (solutionOf run) := by
  intro input result hresult
  cases hresult
  rcases h input with hnothing | ⟨s, hline⟩
  · rw [hnothing]
    simp
  · rw [hline]
    exact mem_line_lt s

/-! ## The samples -/

theorem base64Standard_reference : Base64Standard Reference.lib where
  strBase64Encode_eq := fun _ => rfl
  base64Decode_encode := Reference.base64Decode_encode
  base64Encode_eq := fun _ => rfl
  base64DecodeResult_encode := Reference.base64ResultContract.decode_encode

theorem testBlock_blockForm (root : Reference.Sample) :
    TestBlock Reference.lib (Reference.blockForm root) :=
  ⟨root, Reference.serialize_blockMode root, Reference.length_blockForm_le root⟩

/-- The test blocks that are the stored forms of some samples. -/
theorem testBlock_samples (roots : List Reference.Sample) :
    ∀ data ∈ roots.map Reference.blockForm, TestBlock Reference.lib data := by
  intro data hmem
  rcases List.mem_map.mp hmem with ⟨root, _, rfl⟩
  exact testBlock_blockForm root

/-- The locale of plain ASCII. -/
def asciiLocale : LocaleEncoding where
  decode s := if s.all (· < 128) then some (textOf s) else none
  decode_ascii := by
    intro s h
    rw [if_pos]
    simpa using h

/-! ## The LZ4 programs -/

namespace Lz4Program

/-- An LZ4 program prints ASCII. -/
theorem printsAscii (hbase64 : Base64Standard lib) (program : Lz4Program) :
    PrintsAscii (solutionOf (program.run lib)) := by
  apply printsAscii_of_lines
  intro input
  have hrun : Lz4RunEnds lib input (program.run lib input) := lz4RunEnds_run program input
  generalize program.run lib input = r at hrun ⊢
  cases hrun with
  | failed => exact Or.inl rfl
  | compressed => exact Or.inr ⟨_, by rw [hbase64.base64Encode_eq]⟩
  | decompressed => exact Or.inr ⟨_, by rw [hbase64.base64Encode_eq]⟩

variable {locale : LocaleEncoding}

/-- The points of a test block, which an LZ4 program passes. -/
theorem iteration_testBlock {bag : Cell → BagOfCells} (hround : BocRoundTrip lib)
    (hempty : BocRejectsEmpty lib) (hlayout : BocLayout lib bag) (hlz4 : Lz4RoundTrip lib)
    (htrail : Lz4Trailing lib) (hexpand : Lz4Expansion lib) (hbase64 : Base64Standard lib)
    (program : Lz4Program) {root : Cell} {data serialized : Bytes}
    (hdata : lib.stdBocSerialize root 31 = .ok data) (hsize : data.length ≤ maxSize)
    (hser : lib.stdBocSerialize root 2 = .ok serialized) :
    iteration locale (solutionOf (program.run lib)) (blockText data) =
      .ok (.passed (points data.length (lib.lz4Compress serialized).length)) := by
  rcases ends_of_wire_encode hdata (wire_encode hround hlz4 hlayout hdata hsize hser) with
    ⟨hends, hends'⟩
  have hne := serialize_ne_nil hround hempty hdata
  have hcompress := run_compress_block hbase64.resultContract program hne hends
  have hdecompress := run_decompress_line hbase64.resultContract program
    (htrail.compress_ne_nil serialized) nil_mem_lineEnds hends'
  have hle : (lib.lz4Compress serialized).length ≤ maxSize :=
    length_lz4Compress_le hexpand (expansion_compact_le hlayout.size hdata hsize hser)
  rw [List.append_nil] at hdecompress
  simp only [hbase64.base64Encode_eq] at hcompress hdecompress
  exact iteration_of_runsRoundTrip hne hsize (congrArg some hcompress) hle
    (congrArg some hdecompress)

/-- **The LZ4 programs pass all tests.** -/
theorem runTests_all {bag : Cell → BagOfCells} (hround : BocRoundTrip lib)
    (hempty : BocRejectsEmpty lib) (hrecodes : BocRecodes lib) (hlayout : BocLayout lib bag)
    (hlz4 : Lz4RoundTrip lib) (htrail : Lz4Trailing lib) (hexpand : Lz4Expansion lib)
    (hbase64 : Base64Standard lib) (locale : LocaleEncoding) (program : Lz4Program)
    {blocks : List Bytes} (hne : blocks ≠ []) (hblocks : ∀ data ∈ blocks, TestBlock lib data) :
    ∃ totals, runTests locale (solutionOf (program.run lib)) (blocks.map blockText) = .ok totals ∧
      totals.nOk = blocks.length := by
  have hne' : blocks.map blockText ≠ [] := by simpa using hne
  rcases runTests_of_printsAscii locale (printsAscii hbase64 program) hne'
    (accepted_of_testBlocks hround hempty hblocks) with ⟨totals, hrun, hcount⟩
  rw [List.length_map] at hcount
  refine ⟨totals, hrun, hcount.mpr ?_⟩
  intro block hblock
  rcases List.mem_map.mp hblock with ⟨data, hmem, rfl⟩
  rcases hblocks data hmem with ⟨root, hdata, hsize⟩
  rcases hrecodes root data hdata with ⟨serialized, hser⟩
  exact ⟨_, iteration_testBlock hround hempty hlayout hlz4 htrail hexpand hbase64 program hdata
    hsize hser⟩

/-- The example passes the samples, of which the largest has nearly 2 MiB. -/
theorem runTests_samples :
    ∃ totals, runTests asciiLocale (solutionOf (examples.run Reference.lib))
        (([.pair, .wide, .noise, .tree].map Reference.blockForm).map blockText) = .ok totals ∧
      totals.nOk = 4 :=
  runTests_all Reference.bocRoundTrip Reference.bocRejectsEmpty Reference.bocRecodes
    Reference.bocLayout Reference.lz4RoundTrip Reference.lz4Trailing Reference.lz4Expansion
    base64Standard_reference asciiLocale examples (List.cons_ne_nil _ _)
    (testBlock_samples [.pair, .wide, .noise, .tree])

end Lz4Program

/-! ## The tester program -/

namespace Tester

/-- The tester program prints ASCII. -/
theorem printsAscii (hbase64 : Base64Standard lib) : PrintsAscii (solutionOf (run lib)) := by
  apply printsAscii_of_lines
  intro input
  have hreport : ∀ (outcome : Outcome Bytes) log,
      (requestReport lib outcome log).stdout = [] ∨
        ∃ s, (requestReport lib outcome log).stdout = Base64.encode s ++ [newline] := by
    intro outcome log
    cases outcome with
    | returned buffer => exact Or.inr ⟨buffer, by rw [requestReport, hbase64.strBase64Encode_eq]⟩
    | exception what => exact Or.inl rfl
    | fatal message => exact Or.inl rfl
  have hrun := run_ends lib input
  generalize run lib input = r at hrun ⊢
  cases hrun with
  | invalidMode => exact Or.inl rfl
  | noData => exact Or.inl rfl
  | nullSlice => exact Or.inl rfl
  | compress => exact hreport _ _
  | decompress => exact hreport _ _

section Verdict

variable {locale : LocaleEncoding} {root : Cell} {data : Bytes}

/-- What the harness reads of a run that ended with success. -/
theorem runProcess_run {input : Bytes} {text : Text}
    (h : runProcess locale (solutionOf (run lib)) input = .ok (.ok text)) :
    (run lib input).exit = .success ∧
      ∃ out, locale.decode (run lib input).stdout = some out ∧
        strip (translateNewlines out) = text := by
  rcases runProcess_ok h with ⟨result, out, hresult, hout, hexit, htext⟩
  cases hresult
  exact ⟨hexit, out, hout, htext⟩

/-- A run that is asked to decompress nothing. -/
theorem run_decompress_nothing :
    (run lib (request (ascii "decompress") [])).exit ≠ .success := by
  have hdata : dataWord (request (ascii "decompress") []) = [] := by decide
  rw [run_eq (.noData (Or.inr (modeWord_request isWord_decompress [])) hdata)]
  simp [Exit.success]

/-- A pass of the tester program: the framings meet. An empty result of gzip is
passed on as an empty line, which `decompress` refuses, and several chunks end its
process. -/
theorem meetsFraming_of_passed (hround : BocRoundTrip lib) (hempty : BocRejectsEmpty lib)
    (hlz4 : Lz4RoundTrip lib) (htrail : Lz4Trailing lib) (hundo : GzipUndo lib)
    (hbase64 : Base64Standard lib) (hdata : lib.stdBocSerialize root 31 = .ok data)
    {n : Nat} {p : ℚ}
    (hpass : runTest locale (solutionOf (run lib)) (blockText data) n = .ok (.passed p)) :
    MeetsFraming lib root := by
  rcases runTest_passed hpass with ⟨text, _, hcompress, _, _, hdecompress, _⟩
  rw [blockText, inputOf_encode] at hcompress
  rcases runProcess_run hcompress with ⟨hexit, out, hout, htext⟩
  rcases runProcess_run hdecompress with ⟨hexit', _⟩
  rcases exists_compressEnds lib data with ⟨outcome, log, hends⟩
  have hrun := run_compress_block hbase64.contract (serialize_ne_nil hround hempty hdata) hends
  rw [hbase64.strBase64Encode_eq] at hrun
  rw [hrun] at hexit hout
  -- the text of a line that `compress` printed
  have hline : ∀ c, outcome = .returned c → text = textOf (Base64.encode c) := by
    rintro c rfl
    rw [requestReport, hbase64.strBase64Encode_eq,
      locale.decode_ascii _ (mem_line_lt c), Option.some.injEq] at hout
    rw [← htext, ← hout, strip_line]
  cases hends with
  | deserializeError => simp [requestReport, Exit.success] at hexit
  | serializeError => simp [requestReport, Exit.success] at hexit
  | gzipEmpty =>
      -- the empty line is no request
      rw [hline [] rfl] at hexit'
      exact absurd hexit' run_decompress_nothing
  | @done root' serialized hdeser hser hgz =>
      rw [hround root 31 data hdata, Result.ok.injEq] at hdeser
      subst hdeser
      refine meetsFraming_of_not_fatal hlz4 htrail hundo hser hgz ?_
      -- the second run would be killed
      intro message hfatal
      have hrun' := run_decompress_line hbase64.contract hgz nil_mem_lineEnds hfatal
      rw [List.append_nil, hbase64.strBase64Encode_eq] at hrun'
      rw [hline _ rfl, inputOf_encode, hrun'] at hexit'
      simp [requestReport, Exit.success] at hexit'

/-- The points of a block on which the framings meet. -/
theorem iteration_of_meetsFraming (hround : BocRoundTrip lib) (hempty : BocRejectsEmpty lib)
    (hlz4 : Lz4RoundTrip lib) (htrail : Lz4Trailing lib) (hundo : GzipUndo lib)
    (hgzip : GzipBound lib) (hbase64 : Base64Standard lib) (hboc : BocSize lib)
    (hexpand : Lz4Expansion lib) (hdata : lib.stdBocSerialize root 31 = .ok data)
    (hsize : data.length ≤ maxSize) (hmeets : MeetsFraming lib root) :
    ∃ compressedSize, iteration locale (solutionOf (run lib)) (blockText data) =
      .ok (.passed (points data.length compressedSize)) := by
  rcases (meetsFraming_iff hround hempty hlz4 htrail hundo).mp hmeets with ⟨c, hwire⟩
  rcases ends_of_wire_encode hempty hdata hwire with ⟨hends, hends'⟩
  have hne := serialize_ne_nil hround hempty hdata
  have hcompress := run_compress_block hbase64.contract hne hends
  have hdecompress := run_decompress_line hbase64.contract (wire_encode_ne_nil hwire)
    nil_mem_lineEnds hends'
  have hle : c.length ≤ maxSize := by
    rcases gzipWire_encode_eq_some_iff.mp hwire with ⟨serialized, hser, _, _, rfl⟩
    have hroom := expansion_compact_le hboc hdata hsize hser
    exact le_trans (hgzip _) (gzipBufferSize_le_sizeLimit (length_lz4Compress_le hexpand hroom))
  rw [List.append_nil] at hdecompress
  simp only [hbase64.strBase64Encode_eq, requestReport] at hcompress hdecompress
  exact ⟨_, iteration_of_runsRoundTrip hne hsize (congrArg some hcompress) hle
    (congrArg some hdecompress)⟩

/-- **The tester program passes a test block** exactly when the framings of its
functions meet on the root of the block. -/
theorem passes_iff (hround : BocRoundTrip lib) (hempty : BocRejectsEmpty lib)
    (hlz4 : Lz4RoundTrip lib) (htrail : Lz4Trailing lib) (hundo : GzipUndo lib)
    (hgzip : GzipBound lib) (hbase64 : Base64Standard lib) (hboc : BocSize lib)
    (hexpand : Lz4Expansion lib) (hdata : lib.stdBocSerialize root 31 = .ok data)
    (hsize : data.length ≤ maxSize) :
    (∃ p, iteration locale (solutionOf (run lib)) (blockText data) = .ok (.passed p)) ↔
      MeetsFraming lib root := by
  constructor
  · rintro ⟨p, hpass⟩
    rcases iteration_ok hpass with ⟨size, _, _, htest⟩
    exact meetsFraming_of_passed hround hempty hlz4 htrail hundo hbase64 hdata htest
  · intro hmeets
    rcases iteration_of_meetsFraming hround hempty hlz4 htrail hundo hgzip hbase64 hboc hexpand
      hdata hsize hmeets with ⟨compressedSize, hpass⟩
    exact ⟨_, hpass⟩

end Verdict

/-- **The tester program passes all tests** exactly when the framings meet on all
test blocks. -/
theorem runTests_all_iff (hround : BocRoundTrip lib) (hempty : BocRejectsEmpty lib)
    (hlz4 : Lz4RoundTrip lib) (htrail : Lz4Trailing lib) (hundo : GzipUndo lib)
    (hgzip : GzipBound lib) (hbase64 : Base64Standard lib) (hboc : BocSize lib)
    (hexpand : Lz4Expansion lib) (locale : LocaleEncoding) {blocks : List Bytes}
    (hne : blocks ≠ [])
    (hblocks : ∀ data ∈ blocks, TestBlock lib data) :
    ∃ totals, runTests locale (solutionOf (run lib)) (blocks.map blockText) = .ok totals ∧
      (totals.nOk = blocks.length ↔ ∀ data ∈ blocks, ∀ root,
        lib.stdBocSerialize root 31 = .ok data → MeetsFraming lib root) := by
  have hne' : blocks.map blockText ≠ [] := by simpa using hne
  rcases runTests_of_printsAscii locale (printsAscii hbase64) hne'
    (accepted_of_testBlocks hround hempty hblocks) with ⟨totals, hrun, hcount⟩
  rw [List.length_map] at hcount
  refine ⟨totals, hrun, hcount.trans ?_⟩
  constructor
  · intro hall data hmem root hdata
    rcases hblocks data hmem with ⟨_, _, hsize⟩
    exact (passes_iff hround hempty hlz4 htrail hundo hgzip hbase64 hboc hexpand hdata hsize).mp
      (hall (blockText data) (List.mem_map_of_mem hmem))
  · intro hall block hblock
    rcases List.mem_map.mp hblock with ⟨data, hmem, rfl⟩
    rcases hblocks data hmem with ⟨root, hdata, hsize⟩
    exact (passes_iff hround hempty hlz4 htrail hundo hgzip hbase64 hboc hexpand hdata hsize).mpr
      (hall data hmem root hdata)

/-- It passes the block of the wide cell, but not that block and the one of 540 bytes. -/
theorem runTests_wide_noise :
    (∃ totals, runTests asciiLocale (solutionOf (run Reference.lib))
        (([.wide].map Reference.blockForm).map blockText) = .ok totals ∧ totals.nOk = 1) ∧
    ∃ totals, runTests asciiLocale (solutionOf (run Reference.lib))
        (([.wide, .noise].map Reference.blockForm).map blockText) = .ok totals ∧
      totals.nOk ≠ 2 := by
  have hall := fun roots (hne : roots.map Reference.blockForm ≠ []) =>
    runTests_all_iff Reference.bocRoundTrip Reference.bocRejectsEmpty Reference.lz4RoundTrip
      Reference.lz4Trailing Reference.gzipUndo Reference.gzipBound base64Standard_reference
      Reference.bocLayout.size Reference.lz4Expansion asciiLocale hne (testBlock_samples roots)
  constructor
  · rcases hall [.wide] (List.cons_ne_nil _ _) with ⟨totals, hrun, hcount⟩
    refine ⟨totals, hrun, hcount.mpr ?_⟩
    intro data hmem root hdata
    rw [List.map_singleton, List.mem_singleton] at hmem
    rw [hmem] at hdata
    have hdeser := Reference.bocRoundTrip root 31 _ hdata
    cases hdeser.symm.trans (Reference.deserialize_blockForm .wide)
    exact meetsFraming_wide
  · rcases hall [.wide, .noise] (List.cons_ne_nil _ _) with ⟨totals, hrun, hcount⟩
    refine ⟨totals, hrun, ?_⟩
    intro htwo
    rcases hcount.mp htwo (Reference.blockForm .noise) (by simp) .noise
      (Reference.serialize_blockMode .noise) with ⟨serialized, hser, _, hgz⟩
    rw [Reference.serialize_compactMode, Result.ok.injEq] at hser
    rw [← hser] at hgz
    exact hgz gzencode_lz4Stream_noise

end Tester

end TonEncoder

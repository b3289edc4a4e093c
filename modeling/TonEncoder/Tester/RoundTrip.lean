import TonEncoder.Framing
import TonEncoder.Tester.Safety

/-! # Round trip of the tester program

`decompress` recodes from one stack, `gzipWire` in mode 2 up to 1 MiB, to the
stored form. `compress` cuts the compact form into chunks and concatenates their
LZ4 blocks with no length between them, so that it recodes to this stack on one
chunk only:

* `computes_compress`, `computes_decompress`: the functions recode on one chunk;
* `roundTrip_of_meetsFraming`: the round trip on one chunk;
* `lz4Decompress_lz4Stream_error`: past one chunk, what follows the first block
  is read as its continuation, which does not fit the cap;
* `roundTrip_iff`: no other block makes the round trip.
-/

namespace TonEncoder.Tester

open Process

variable {Cell : Type} (lib : TonCryptoLib Cell)

/-! ## The law of `run_tests.py` -/

/-- The functions bring a block back through a buffer that is not empty. -/
def FunctionsRoundTrip (data : Bytes) : Prop :=
  ∃ c, c ≠ [] ∧ (∀ con, compress lib data con = (.returned c, con)) ∧
    ∀ con, decompress lib c con = (.returned data, con)

/-- The round trip of the functions, and of the program on the base64 of the
block. -/
def RoundTrip (data : Bytes) : Prop :=
  FunctionsRoundTrip lib data ∧
    RunsRoundTrip (run lib) (run lib) (lib.strBase64Encode data)

/-- The framings of the two functions meet on a root: its compact form fits one
chunk, and gzip does not refuse the stream of it. -/
def MeetsFraming (root : Cell) : Prop :=
  ∃ serialized, lib.stdBocSerialize root 2 = .ok serialized ∧ serialized.length ≤ chunkSize ∧
    lib.gzencode (lz4Stream lib serialized) 1 ≠ []

variable {lib}

/-! ## One chunk -/

section OneChunk

variable {hround : BocRoundTrip lib} {hlz4 : Lz4RoundTrip lib} {hundo : GzipUndo lib}
  {root : Cell} {data c : Bytes}

theorem chunkSize_le_maxDecompressedSize : chunkSize ≤ maxDecompressedSize := le_of_eq rfl

/-- The stack that `decompress` reads, on the texts of one chunk. -/
def wire (hround : BocRoundTrip lib) (hlz4 : Lz4RoundTrip lib) (hundo : GzipUndo lib) :
    PartialCodec Cell Bytes :=
  gzipWire hround hlz4 2 chunkSize_le_maxDecompressedSize hundo

/-- The stream of one chunk is its block. -/
theorem lz4Stream_of_fits (hround : BocRoundTrip lib) (hempty : BocRejectsEmpty lib)
    {serialized : Bytes} (hser : lib.stdBocSerialize root 2 = .ok serialized)
    (hfits : serialized.length ≤ chunkSize) :
    lz4Stream lib serialized = lib.lz4Compress serialized :=
  Chunks.stream_of_length_le _ (serialize_ne_nil hround hempty hser) hfits

/-- The framings meet on the roots that the stack takes. -/
theorem meetsFraming_iff (hround : BocRoundTrip lib) (hempty : BocRejectsEmpty lib)
    (hlz4 : Lz4RoundTrip lib) (htrail : Lz4Trailing lib) (hundo : GzipUndo lib) :
    MeetsFraming lib root ↔ ∃ c, (wire hround hlz4 hundo).encode root = some c := by
  constructor
  · rintro ⟨serialized, hser, hfits, hgz⟩
    rw [lz4Stream_of_fits hround hempty hser hfits] at hgz
    exact ⟨_, gzipWire_encode_eq_some_iff.mpr
      ⟨serialized, hser, hfits, ⟨htrail.compress_ne_nil serialized, hgz⟩, rfl⟩⟩
  · rintro ⟨c, hencode⟩
    rcases gzipWire_encode_eq_some_iff.mp hencode with ⟨serialized, hser, hfits, ⟨_, hgz⟩, _⟩
    rw [← lz4Stream_of_fits hround hempty hser hfits] at hgz
    exact ⟨serialized, hser, hfits, hgz⟩

/-- Recoding to the stack is one way for `compress` to end. -/
theorem compressEnds_of_recode (hempty : BocRejectsEmpty lib)
    (h : (storedForm hround).recode (wire hround hlz4 hundo) data = some c) :
    CompressEnds lib data (.returned c) [] := by
  rw [PartialCodec.recode_eq_some_iff] at h
  rcases h with ⟨root, hdeser, hencode⟩
  rcases gzipWire_encode_eq_some_iff.mp hencode with ⟨serialized, hser, hfits, ⟨_, hgz⟩, rfl⟩
  rw [← lz4Stream_of_fits hround hempty hser hfits] at hgz ⊢
  exact .done (storedForm_decode_eq_some_iff.mp hdeser) hser hgz

/-- Recoding from the stack is how `decompress` ends when it returns a block. -/
theorem decompressEnds_iff_recode :
    DecompressEnds lib c (.returned data) [] ↔
      (wire hround hlz4 hundo).recode (storedForm hround) c = some data := by
  rw [PartialCodec.recode_eq_some_iff]
  constructor
  · intro h
    cases h with
    | done hdec hdeser hser hgz =>
        exact ⟨_, gzipWire_decode_eq_some_iff.mpr ⟨hgz, _, hdec, hdeser⟩,
          storedForm_encode_eq_some_iff.mpr hser⟩
  · rintro ⟨root, hdecode, hencode⟩
    rcases gzipWire_decode_eq_some_iff.mp hdecode with ⟨hgz, serialized, hdec, hdeser⟩
    exact .done hdec hdeser (storedForm_encode_eq_some_iff.mp hencode) hgz

theorem computes_compress (hempty : BocRejectsEmpty lib) :
    PartialCodec.Computes (compress lib)
      ((storedForm hround).recode (wire hround hlz4 hundo)) := by
  intro data c h con
  rw [compress_run (compressEnds_of_recode hempty h), Console.withErr_nil]

theorem computes_decompress :
    PartialCodec.Computes (decompress lib)
      ((wire hround hlz4 hundo).recode (storedForm hround)) := by
  intro c data h con
  rw [decompress_run (decompressEnds_iff_recode.mpr h), Console.withErr_nil]

/-- How the functions end on a block in the stack. -/
theorem ends_of_wire_encode (hempty : BocRejectsEmpty lib)
    (hdata : lib.stdBocSerialize root 31 = .ok data)
    (hwire : (wire hround hlz4 hundo).encode root = some c) :
    CompressEnds lib data (.returned c) [] ∧ DecompressEnds lib c (.returned data) [] := by
  have hstored : (storedForm hround).encode root = some data :=
    storedForm_encode_eq_some_iff.mpr hdata
  have hrecode : (storedForm hround).recode (wire hround hlz4 hundo) data = some c := by
    rw [PartialCodec.recode_of_encode _ hstored, hwire]
  constructor
  · exact compressEnds_of_recode hempty hrecode
  · exact decompressEnds_iff_recode.mpr (PartialCodec.recode_round hstored hrecode)

/-- The code of a root in the stack is a gzip stream. -/
theorem wire_encode_ne_nil (hwire : (wire hround hlz4 hundo).encode root = some c) : c ≠ [] := by
  rcases gzipWire_encode_eq_some_iff.mp hwire with ⟨_, _, _, ⟨_, hgz⟩, rfl⟩
  exact hgz

/-- A run that compresses the base64 of a block. -/
theorem run_compress_block (hbase64 : Base64Contract lib) {outcome : Outcome Bytes}
    {log : List String} (hne : data ≠ []) (hends : CompressEnds lib data outcome log) :
    run lib (request (ascii "compress") (lib.strBase64Encode data)) =
      requestReport lib outcome log := by
  have hword := hbase64.isWord_encode data hne
  have hdata := dataWord_request isWord_compress hword
  have hbinary := hbase64.decode_encode data
  rw [← hdata] at hbinary
  rw [← hbinary] at hends hne
  refine run_compress (modeWord_request isWord_compress _) ?_ hne hends
  rw [hdata]
  exact hword.1

/-- A run that decompresses the line of a buffer. -/
theorem run_decompress_line (hbase64 : Base64Contract lib) {buffer lineEnd : Bytes}
    {outcome : Outcome Bytes} {log : List String} (hne : buffer ≠ [])
    (hend : lineEnd ∈ [[], [newline]]) (hends : DecompressEnds lib buffer outcome log) :
    run lib (request (ascii "decompress") (lib.strBase64Encode buffer ++ lineEnd)) =
      requestReport lib outcome log := by
  have hword := hbase64.isWord_encode buffer hne
  have hdata := dataWord_request_lineEnd isWord_decompress hword hend
  have hbinary := hbase64.decode_encode buffer
  rw [← hdata] at hbinary
  rw [← hbinary] at hends
  refine run_decompress (modeWord_request isWord_decompress _) ?_ hends
  rw [hdata]
  exact hword.1

/-- **Round trip on one chunk.** -/
theorem roundTrip_of_meetsFraming (hround : BocRoundTrip lib) (hempty : BocRejectsEmpty lib)
    (hlz4 : Lz4RoundTrip lib) (htrail : Lz4Trailing lib) (hundo : GzipUndo lib)
    (hbase64 : Base64Contract lib) (hdata : lib.stdBocSerialize root 31 = .ok data)
    (hmeets : MeetsFraming lib root) : RoundTrip lib data := by
  rcases (meetsFraming_iff hround hempty hlz4 htrail hundo).mp hmeets with ⟨c, hwire⟩
  have hstored : (storedForm hround).encode root = some data :=
    storedForm_encode_eq_some_iff.mpr hdata
  have hne := wire_encode_ne_nil hwire
  constructor
  · have hround_con := PartialCodec.round_of_computes (computes_compress hempty)
      computes_decompress hstored hwire
    exact ⟨c, hne, fun con => (hround_con con).1, fun con => (hround_con con).2⟩
  · rcases ends_of_wire_encode hempty hdata hwire with ⟨hends, hends'⟩
    refine ⟨lib.strBase64Encode c, ?_, ?_⟩
    · exact run_compress_block hbase64 (serialize_ne_nil hround hempty hdata) hends
    · intro lineEnd hend
      exact run_decompress_line hbase64 hne hend hends'

end OneChunk

/-! ## Several chunks -/

/-- Past one chunk the decompressor does not accept the stream: it would read the
later blocks as the rest of the first one, which fills the cap already. -/
theorem lz4Decompress_lz4Stream_error (hlz4 : Lz4RoundTrip lib) (htrail : Lz4Trailing lib)
    {serialized : Bytes} (hlt : chunkSize < serialized.length) :
    ∃ status, lib.lz4Decompress (lz4Stream lib serialized) maxDecompressedSize =
      .error status := by
  rcases Chunks.stream_of_lt_length _ htrail.compress_ne_nil chunkSize_pos hlt with
    ⟨t, ht, hstream⟩
  rcases hdec : lib.lz4Decompress (lz4Stream lib serialized) maxDecompressedSize with y | status
  · -- the output would be longer than the first chunk, which is as long as the cap
    have hcap := hlz4.length_le_cap _ _ _ hdec
    rw [lz4Stream, hstream] at hdec
    have hlong := htrail.length_lt _ _ _ _ ht hdec
    rw [List.length_take, Nat.min_eq_left hlt.le] at hlong
    have hsame : maxDecompressedSize = chunkSize := rfl
    omega
  · exact ⟨status, rfl⟩

/-- What `compress` returns for several chunks ends the process in `decompress`. -/
theorem decompressEnds_of_chunks (hlz4 : Lz4RoundTrip lib) (htrail : Lz4Trailing lib)
    (hundo : GzipUndo lib) {serialized : Bytes}
    (hgz : lib.gzencode (lz4Stream lib serialized) 1 ≠ [])
    (hlt : chunkSize < serialized.length) :
    ∃ message, DecompressEnds lib (lib.gzencode (lz4Stream lib serialized) 1)
      (.fatal message) [] := by
  rcases lz4Decompress_lz4Stream_error hlz4 htrail hlt with ⟨status, herror⟩
  rw [← hundo _ hgz] at herror
  exact ⟨_, .lz4Error herror⟩

/-! ## The law holds on one chunk only -/

/-- What `compress` returns meets the framing, unless it ends the process in
`decompress`. -/
theorem meetsFraming_of_not_fatal (hlz4 : Lz4RoundTrip lib) (htrail : Lz4Trailing lib)
    (hundo : GzipUndo lib) {root : Cell} {serialized : Bytes}
    (hser : lib.stdBocSerialize root 2 = .ok serialized)
    (hgz : lib.gzencode (lz4Stream lib serialized) 1 ≠ [])
    (hnot : ∀ message, ¬ DecompressEnds lib (lib.gzencode (lz4Stream lib serialized) 1)
      (.fatal message) []) : MeetsFraming lib root := by
  by_cases hfits : serialized.length ≤ chunkSize
  · exact ⟨serialized, hser, hfits, hgz⟩
  · -- several chunks
    rcases decompressEnds_of_chunks hlz4 htrail hundo hgz (Nat.not_le.mp hfits) with
      ⟨message, hfatal⟩
    exact absurd hfatal (hnot message)

/-- What the functions bring back meets the framing. -/
theorem meetsFraming_of_functions (hround : BocRoundTrip lib) (hlz4 : Lz4RoundTrip lib)
    (htrail : Lz4Trailing lib) (hundo : GzipUndo lib) {root : Cell} {data : Bytes}
    (hdata : lib.stdBocSerialize root 31 = .ok data) (h : FunctionsRoundTrip lib data) :
    MeetsFraming lib root := by
  rcases h with ⟨c, hne, hcompress, hdecompress⟩
  rcases compressEnds_of_run (hcompress ⟨[], [], []⟩) with ⟨log, hends, _⟩
  cases hends with
  | gzipEmpty => exact absurd rfl hne
  | @done root' serialized hdeser hser hgz =>
      -- the root that `compress` read is the root of the block
      rw [hround root 31 data hdata, Result.ok.injEq] at hdeser
      subst hdeser
      refine meetsFraming_of_not_fatal hlz4 htrail hundo hser hgz ?_
      intro message hfatal
      have hrun := decompress_run hfatal ⟨[], [], []⟩
      rw [hdecompress] at hrun
      cases hrun

/-- **Round trip of the tester program**, exactly on the blocks whose compact form
fits one chunk and whose LZ4 stream gzip does not refuse. -/
theorem roundTrip_iff (hround : BocRoundTrip lib) (hempty : BocRejectsEmpty lib)
    (hlz4 : Lz4RoundTrip lib) (htrail : Lz4Trailing lib) (hundo : GzipUndo lib)
    (hbase64 : Base64Contract lib) {root : Cell} {data : Bytes}
    (hdata : lib.stdBocSerialize root 31 = .ok data) :
    RoundTrip lib data ↔ MeetsFraming lib root := by
  constructor
  · intro h
    exact meetsFraming_of_functions hround hlz4 htrail hundo hdata h.1
  · exact roundTrip_of_meetsFraming hround hempty hlz4 htrail hundo hbase64 hdata

section Samples

open Reference

/-- The samples on which the framings meet. -/
theorem meetsFraming_sample {root : Sample} (h : RoundTrip Reference.lib (blockForm root)) :
    compactLength root ≤ chunkSize ∧
      Reference.lib.gzencode (lz4Stream Reference.lib (compactForm root)) 1 ≠ [] := by
  rcases meetsFraming_of_functions bocRoundTrip lz4RoundTrip lz4Trailing gzipUndo
    (serialize_blockMode root) h.1 with ⟨serialized, hser, hfits, hgz⟩
  rw [serialize_compactMode, Result.ok.injEq] at hser
  rw [← hser] at hfits hgz
  rw [length_compactForm] at hfits
  exact ⟨hfits, hgz⟩

/-- Neither the block of 540 bytes nor that of two chunks makes the round trip. -/
theorem not_roundTrip_samples :
    (Reference.lib.stdBocSerialize .noise 31 = .ok (blockForm .noise) ∧
        (blockForm .noise).length ≤ 2 ^ 21 ∧ ¬ RoundTrip Reference.lib (blockForm .noise)) ∧
      Reference.lib.stdBocSerialize .tree 31 = .ok (blockForm .tree) ∧
        (blockForm .tree).length ≤ 2 ^ 21 ∧ ¬ RoundTrip Reference.lib (blockForm .tree) := by
  refine ⟨⟨serialize_blockMode _, length_blockForm_le _, ?_⟩, serialize_blockMode _,
    length_blockForm_le _, ?_⟩
  · -- gzip refuses the stream
    intro h
    exact (meetsFraming_sample h).2 gzencode_lz4Stream_noise
  · -- the compact form has 1987914 bytes
    intro h
    have hfits := (meetsFraming_sample h).1
    simp [compactLength, chunkSize] at hfits

theorem meetsFraming_wide : MeetsFraming Reference.lib Sample.wide := by
  refine ⟨compactForm .wide, serialize_compactMode .wide, ?_, ?_⟩
  · rw [length_compactForm]
    simp [compactLength, chunkSize]
  · rw [gzencode_lz4Stream_wide]
    exact wideStream_ne_nil

/-- The block of the wide cell makes the round trip. -/
theorem roundTrip_wide : RoundTrip Reference.lib (blockForm .wide) :=
  (roundTrip_iff bocRoundTrip bocRejectsEmpty lz4RoundTrip lz4Trailing gzipUndo
    base64Contract (serialize_blockMode .wide)).mpr meetsFraming_wide

end Samples

end TonEncoder.Tester

import TonEncoder.Framing
import TonEncoder.Lz4.Programs
import TonEncoder.Reference

/-! # Interchange of the LZ4 programs

The programs recode between the stored form and one stack, `lz4Wire` in mode 2 up
to 2 MiB, which takes every block of at most 2 MiB because the compact form of a
block is not longer than the block.

* `computes_lz4CompressRoot`, `computes_lz4DecompressRoot`: the coding of a block
  recodes;
* `interchange`: what any program compressed, any program decompresses;
* `runsRoundTrip`: the same for the runs of the programs.
-/

namespace TonEncoder

open Process

variable {Cell : Type} {lib : TonCryptoLib Cell}

/-- The compact form of a block is not longer than the block. -/
theorem length_compact_le {bag : Cell → BagOfCells} (hlayout : BocLayout lib bag) {root : Cell}
    {data serialized : Bytes}
    (hdata : lib.stdBocSerialize root BagOfCells.blockMode = .ok data)
    (hser : lib.stdBocSerialize root BagOfCells.compactMode = .ok serialized) :
    serialized.length ≤ data.length :=
  le_of_add_le_left (length_compact_add_index_le hlayout hdata hser)

/-! ## The coding of a block recodes -/

section Recoding

variable {hround : BocRoundTrip lib} {hlz4 : Lz4RoundTrip lib} {mode bound cap : Nat}
  {hcap : bound ≤ cap}

/-- Recoding to the stack is one way for the coding to end. -/
theorem lz4CompressEnds_of_recode {data c : Bytes}
    (h : (storedForm hround).recode (lz4Wire hround hlz4 mode hcap) data = some c) :
    Lz4CompressEnds lib mode data (.returned c) := by
  rw [PartialCodec.recode_eq_some_iff] at h
  rcases h with ⟨root, hdeser, hencode⟩
  rcases lz4Wire_encode_eq_some_iff.mp hencode with ⟨serialized, hser, _, rfl⟩
  exact .done (storedForm_decode_eq_some_iff.mp hdeser) hser

/-- Recoding from the stack is how the decoding ends when it returns. -/
theorem lz4DecompressEnds_iff_recode {c data : Bytes} :
    Lz4DecompressEnds lib cap 31 c (.returned data) ↔
      (lz4Wire hround hlz4 mode hcap).recode (storedForm hround) c = some data := by
  rw [PartialCodec.recode_eq_some_iff]
  constructor
  · intro h
    cases h with
    | done hdec hdeser hser =>
        exact ⟨_, lz4Wire_decode_eq_some_iff.mpr ⟨_, hdec, hdeser⟩,
          storedForm_encode_eq_some_iff.mpr hser⟩
  · rintro ⟨root, hdecode, hencode⟩
    rcases lz4Wire_decode_eq_some_iff.mp hdecode with ⟨serialized, hdec, hdeser⟩
    exact .done hdec hdeser (storedForm_encode_eq_some_iff.mp hencode)

theorem computes_lz4CompressRoot :
    PartialCodec.Computes (lz4CompressRoot lib mode)
      ((storedForm hround).recode (lz4Wire hround hlz4 mode hcap)) := by
  intro data c h con
  exact lz4CompressRoot_run (lz4CompressEnds_of_recode h) con

theorem computes_lz4DecompressRoot :
    PartialCodec.Computes (lz4DecompressRoot lib cap 31)
      ((lz4Wire hround hlz4 mode hcap).recode (storedForm hround)) := by
  intro c data h con
  exact lz4DecompressRoot_run (lz4DecompressEnds_iff_recode.mpr h) con

end Recoding

namespace Lz4Program

/-- The stack of the programs: mode 2 in one LZ4 block, up to the cap. -/
def wire (hround : BocRoundTrip lib) (hlz4 : Lz4RoundTrip lib) : PartialCodec Cell Bytes :=
  lz4Wire hround hlz4 2 (le_refl (2 <<< 20))

section Wire

variable {hround : BocRoundTrip lib} {hlz4 : Lz4RoundTrip lib}

theorem computes_compress (program : Lz4Program) :
    PartialCodec.Computes (program.compress lib)
      ((storedForm hround).recode (wire hround hlz4)) := by
  intro data c h con
  rw [compress_eq]
  exact computes_lz4CompressRoot data c h con

theorem computes_decompress (program : Lz4Program) :
    PartialCodec.Computes (program.decompress lib)
      ((wire hround hlz4).recode (storedForm hround)) := by
  intro c data h con
  rw [decompress_eq]
  exact computes_lz4DecompressRoot c data h con

/-- The stack takes every block of at most 2 MiB: the cap does not reject the
compact form of the block, which is not longer than the block. -/
theorem wire_encode (hround : BocRoundTrip lib) (hlz4 : Lz4RoundTrip lib)
    {bag : Cell → BagOfCells} (hlayout : BocLayout lib bag) {root : Cell}
    {data serialized : Bytes} (hdata : lib.stdBocSerialize root 31 = .ok data)
    (hsize : data.length ≤ 2 ^ 21) (hser : lib.stdBocSerialize root 2 = .ok serialized) :
    (wire hround hlz4).encode root = some (lib.lz4Compress serialized) := by
  have hle : serialized.length ≤ data.length := length_compact_le hlayout hdata hser
  have hcap : serialized.length ≤ 2 <<< 20 := le_trans hle hsize
  exact lz4Wire_encode_eq_some_iff.mpr ⟨serialized, hser, hcap, rfl⟩

/-- How the coding of a block in the stack ends, and its decoding. -/
theorem ends_of_wire_encode {root : Cell} {data c : Bytes}
    (hdata : lib.stdBocSerialize root 31 = .ok data)
    (hwire : (wire hround hlz4).encode root = some c) :
    Lz4CompressEnds lib 2 data (.returned c) ∧
      Lz4DecompressEnds lib (2 <<< 20) 31 c (.returned data) := by
  have hstored : (storedForm hround).encode root = some data :=
    storedForm_encode_eq_some_iff.mpr hdata
  have hrecode : (storedForm hround).recode (wire hround hlz4) data = some c := by
    rw [PartialCodec.recode_of_encode _ hstored, hwire]
  constructor
  · exact lz4CompressEnds_of_recode hrecode
  · exact lz4DecompressEnds_iff_recode.mpr (PartialCodec.recode_round hstored hrecode)

end Wire

/-- **Round trip and interchange.** What any program compressed from a block of at
most 2 MiB, any program restores. -/
theorem interchange {bag : Cell → BagOfCells} (hround : BocRoundTrip lib)
    (hrecodes : BocRecodes lib) (hlayout : BocLayout lib bag) (hlz4 : Lz4RoundTrip lib)
    {root : Cell} {data : Bytes} (hdata : lib.stdBocSerialize root 31 = .ok data)
    (hsize : data.length ≤ 2 ^ 21) :
    ∃ serialized, lib.stdBocSerialize root 2 = .ok serialized ∧
      serialized.length ≤ data.length ∧
      ∀ (p q : Lz4Program) (con : Console), ∃ c,
        p.compress lib data con = (.returned c, con) ∧
        lib.lz4Decompress c (2 <<< 20) = .ok serialized ∧
        q.decompress lib c con = (.returned data, con) := by
  rcases hrecodes root data hdata with ⟨serialized, hser⟩
  have hle : serialized.length ≤ data.length := length_compact_le hlayout hdata hser
  have hstored : (storedForm hround).encode root = some data :=
    storedForm_encode_eq_some_iff.mpr hdata
  have hwire := wire_encode hround hlz4 hlayout hdata hsize hser
  refine ⟨serialized, hser, hle, ?_⟩
  intro p q con
  rcases PartialCodec.round_of_computes p.computes_compress q.computes_decompress hstored hwire con
    with ⟨hcompress, hdecompress⟩
  refine ⟨lib.lz4Compress serialized, hcompress, ?_, hdecompress⟩
  -- the cap on the compact form holds, since the caller bounds the block
  exact hlz4.decompress_compress serialized _ (le_trans hle hsize)

/-- The block of nearly 2 MiB, compressed by the contest program for Linux and restored
by the example. -/
theorem interchange_tree :
    ∃ c, Linux.compress Reference.lib (Reference.blockForm .tree) ⟨[], [], []⟩ =
        (.returned c, ⟨[], [], []⟩) ∧
      Examples.decompressBlock Reference.lib c ⟨[], [], []⟩ =
        (.returned (Reference.blockForm .tree), ⟨[], [], []⟩) := by
  rcases interchange Reference.bocRoundTrip Reference.bocRecodes Reference.bocLayout
    Reference.lz4RoundTrip (Reference.serialize_blockMode .tree)
    (Reference.length_blockForm_le .tree) with ⟨serialized, _, _, hpairs⟩
  rcases hpairs .linux .examples ⟨[], [], []⟩ with ⟨c, hcompress, _, hdecompress⟩
  exact ⟨c, hcompress, hdecompress⟩

/-- What a run prints for a block. -/
theorem run_compress_block (hbase64 : Base64ResultContract lib) (p : Lz4Program)
    {data buffer : Bytes} (hne : data ≠ []) (hends : Lz4CompressEnds lib 2 data (.returned buffer)) :
    p.run lib (request (ascii "compress") (lib.base64Encode data)) =
      ⟨.success, lib.base64Encode buffer ++ [newline], []⟩ := by
  have hword := hbase64.isWord_encode data hne
  have hdata := dataWord_request isWord_compress hword
  refine run_compress p ?_ ?_ (modeWord_request isWord_compress _) (fun _ => hne) hends
  · rw [hdata]
    exact hword.1
  · rw [hdata, hbase64.decode_encode]

/-- What a run prints for the line of a buffer. -/
theorem run_decompress_line (hbase64 : Base64ResultContract lib) (q : Lz4Program)
    {buffer block lineEnd : Bytes} (hne : buffer ≠ []) (hend : lineEnd ∈ [[], [newline]])
    (hends : Lz4DecompressEnds lib (2 <<< 20) 31 buffer (.returned block)) :
    q.run lib (request (ascii "decompress") (lib.base64Encode buffer ++ lineEnd)) =
      ⟨.success, lib.base64Encode block ++ [newline], []⟩ := by
  have hword := hbase64.isWord_encode buffer hne
  have hdata := dataWord_request_lineEnd isWord_decompress hword hend
  refine run_decompress q ?_ ?_ (modeWord_request isWord_decompress _) hends
  · rw [hdata]
    exact hword.1
  · rw [hdata, hbase64.decode_encode]

/-- **Interchange of runs.** The runs of any two of the programs bring back the
base64 of a block of at most 2 MiB. -/
theorem runsRoundTrip {bag : Cell → BagOfCells} (hround : BocRoundTrip lib)
    (hempty : BocRejectsEmpty lib) (hrecodes : BocRecodes lib) (hlayout : BocLayout lib bag)
    (hlz4 : Lz4RoundTrip lib) (htrail : Lz4Trailing lib) (hbase64 : Base64ResultContract lib)
    {root : Cell} {data : Bytes} (hdata : lib.stdBocSerialize root 31 = .ok data)
    (hsize : data.length ≤ 2 ^ 21) (p q : Lz4Program) :
    RunsRoundTrip (p.run lib) (q.run lib) (lib.base64Encode data) := by
  rcases hrecodes root data hdata with ⟨serialized, hser⟩
  rcases ends_of_wire_encode hdata (wire_encode hround hlz4 hlayout hdata hsize hser) with
    ⟨hends, hends'⟩
  refine ⟨lib.base64Encode (lib.lz4Compress serialized), ?_, ?_⟩
  · exact run_compress_block hbase64 p (serialize_ne_nil hround hempty hdata) hends
  · intro lineEnd hend
    exact run_decompress_line hbase64 q (htrail.compress_ne_nil serialized) hend hends'

/-- The block of nearly 2 MiB, between runs for Windows and of the example. -/
theorem runsRoundTrip_tree :
    RunsRoundTrip (windows.run Reference.lib) (examples.run Reference.lib)
      (Reference.lib.base64Encode (Reference.blockForm .tree)) :=
  runsRoundTrip Reference.bocRoundTrip Reference.bocRejectsEmpty Reference.bocRecodes
    Reference.bocLayout Reference.lz4RoundTrip Reference.lz4Trailing
    Reference.base64ResultContract (Reference.serialize_blockMode .tree)
    (Reference.length_blockForm_le .tree) windows examples

end Lz4Program

end TonEncoder

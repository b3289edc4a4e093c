import TonEncoder.Codec.Partial
import TonEncoder.CryptoLib

/-! # Framings

The programs store a root cell in two codes: the stored form, a bag of cells in
mode 31, and a compressed form, which stacks a bag of cells in a compact mode, one
LZ4 block, and with the tester program gzip. Each layer is a partial codec by a
contract of the library, and so are the stacks:

* `lz4Wire`: the bag of cells in one LZ4 block;
* `gzipWire`: the same behind gzip.

A program that decompresses recodes from such a stack to the stored form, and a
program that compresses should recode the other way. The LZ4 programs do, up to
the cap of the stack; the chunked programs do on one chunk.
-/

namespace TonEncoder

open Process

variable {Cell : Type} {lib : TonCryptoLib Cell}

/-! ## Layers -/

/-- The bag of cells of a root, in a mode. -/
def bocCodec (hround : BocRoundTrip lib) (mode : Nat) : PartialCodec Cell Bytes where
  encode root := (lib.stdBocSerialize root mode).toOption
  decode data := (lib.stdBocDeserialize data).toOption
  decode_encode := by
    intro root data h
    rw [Result.toOption_eq_some_iff] at h ⊢
    exact hround root mode data h

/-- One LZ4 block of a text of at most `bound` bytes, decoded under a cap. -/
def lz4Codec (hlz4 : Lz4RoundTrip lib) {bound cap : Nat} (hcap : bound ≤ cap) :
    PartialCodec Bytes Bytes where
  encode x := if x.length ≤ bound then some (lib.lz4Compress x) else none
  decode block := (lib.lz4Decompress block cap).toOption
  decode_encode := by
    intro x block h
    rw [Option.ite_none_right_eq_some] at h
    rcases h with ⟨hle, hblock⟩
    cases hblock
    rw [Result.toOption_eq_some_iff]
    exact hlz4.decompress_compress x cap (le_trans hle hcap)

/-- What `gzencode` makes of a text, with ratio one. The empty text is left out: neither
side tells it from a failure. -/
def gzipCodec (hundo : GzipUndo lib) : PartialCodec Bytes Bytes where
  encode s := if s ≠ [] ∧ lib.gzencode s 1 ≠ [] then some (lib.gzencode s 1) else none
  decode data := if lib.gzdecode data ≠ [] then some (lib.gzdecode data) else none
  decode_encode := by
    intro s data h
    rw [Option.ite_none_right_eq_some] at h
    rcases h with ⟨⟨hs, hgz⟩, hdata⟩
    cases hdata
    rw [hundo s hgz, if_pos hs]

/-! ## Stacks -/

section Stacks

variable (hround : BocRoundTrip lib) (hlz4 : Lz4RoundTrip lib) (mode : Nat) {bound cap : Nat}
  (hcap : bound ≤ cap)

/-- The stored form of a root. -/
def storedForm : PartialCodec Cell Bytes := bocCodec hround 31

/-- The bag of cells of a root in one LZ4 block. -/
def lz4Wire : PartialCodec Cell Bytes := (bocCodec hround mode).comp (lz4Codec hlz4 hcap)

/-- The same behind gzip. -/
def gzipWire (hundo : GzipUndo lib) : PartialCodec Cell Bytes :=
  (lz4Wire hround hlz4 mode hcap).comp (gzipCodec hundo)

variable {hround hlz4 mode hcap}

theorem storedForm_encode_eq_some_iff {root : Cell} {data : Bytes} :
    (storedForm hround).encode root = some data ↔ lib.stdBocSerialize root 31 = .ok data :=
  Result.toOption_eq_some_iff

theorem storedForm_decode_eq_some_iff {root : Cell} {data : Bytes} :
    (storedForm hround).decode data = some root ↔ lib.stdBocDeserialize data = .ok root :=
  Result.toOption_eq_some_iff

theorem lz4Wire_encode_eq_some_iff {root : Cell} {c : Bytes} :
    (lz4Wire hround hlz4 mode hcap).encode root = some c ↔
      ∃ serialized, lib.stdBocSerialize root mode = .ok serialized ∧
        serialized.length ≤ bound ∧ lib.lz4Compress serialized = c := by
  simp only [lz4Wire, PartialCodec.comp_encode_eq_some_iff, bocCodec, lz4Codec,
    Result.toOption_eq_some_iff, Option.ite_none_right_eq_some, Option.some.injEq]

theorem lz4Wire_decode_eq_some_iff {root : Cell} {c : Bytes} :
    (lz4Wire hround hlz4 mode hcap).decode c = some root ↔
      ∃ serialized, lib.lz4Decompress c cap = .ok serialized ∧
        lib.stdBocDeserialize serialized = .ok root := by
  simp only [lz4Wire, PartialCodec.comp_decode_eq_some_iff, bocCodec, lz4Codec,
    Result.toOption_eq_some_iff]

variable {hundo : GzipUndo lib}

theorem gzipWire_encode_eq_some_iff {root : Cell} {c : Bytes} :
    (gzipWire hround hlz4 mode hcap hundo).encode root = some c ↔
      ∃ serialized, lib.stdBocSerialize root mode = .ok serialized ∧
        serialized.length ≤ bound ∧
        (lib.lz4Compress serialized ≠ [] ∧ lib.gzencode (lib.lz4Compress serialized) 1 ≠ []) ∧
        lib.gzencode (lib.lz4Compress serialized) 1 = c := by
  simp only [gzipWire, PartialCodec.comp_encode_eq_some_iff, lz4Wire_encode_eq_some_iff,
    gzipCodec, Option.ite_none_right_eq_some, Option.some.injEq]
  constructor
  · rintro ⟨_, ⟨serialized, hser, hle, rfl⟩, hgz, hc⟩
    exact ⟨serialized, hser, hle, hgz, hc⟩
  · rintro ⟨serialized, hser, hle, hgz, hc⟩
    exact ⟨_, ⟨serialized, hser, hle, rfl⟩, hgz, hc⟩

theorem gzipWire_decode_eq_some_iff {root : Cell} {c : Bytes} :
    (gzipWire hround hlz4 mode hcap hundo).decode c = some root ↔
      lib.gzdecode c ≠ [] ∧ ∃ serialized,
        lib.lz4Decompress (lib.gzdecode c) cap = .ok serialized ∧
        lib.stdBocDeserialize serialized = .ok root := by
  simp only [gzipWire, PartialCodec.comp_decode_eq_some_iff, gzipCodec,
    Option.ite_none_right_eq_some, Option.some.injEq]
  constructor
  · rintro ⟨_, ⟨hne, rfl⟩, hdecode⟩
    exact ⟨hne, lz4Wire_decode_eq_some_iff.mp hdecode⟩
  · rintro ⟨hne, hdecode⟩
    exact ⟨_, ⟨hne, rfl⟩, lz4Wire_decode_eq_some_iff.mpr hdecode⟩

end Stacks

end TonEncoder

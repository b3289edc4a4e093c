import TonEncoder.Tester.Safety

/-! # The LZ4 stream of the tester program

What the concatenated blocks keep of the serialization, whether or not the
program can read them back:

* `lz4Stream_injective`, `root_eq_of_compress_eq`: a stream has one
  serialization, so that a compressed buffer has one root;
* `length_lz4Stream_le`: a stream is longer than the serialization by at most the
  expansion of its chunks.
-/

namespace TonEncoder.Tester

open Process

variable {Cell : Type} {lib : TonCryptoLib Cell}

/-! ## Nothing is lost -/

/-- The stream determines the serialization, with every chunk boundary. -/
theorem lz4Stream_injective (hcode : Chunks.StreamCode lib.lz4Compress) :
    Function.Injective (lz4Stream lib) :=
  Chunks.stream_injective hcode chunkSize_pos

/-- A buffer which `compress` returns, unless it is empty, is the gzip of the
stream of the compact form of the root. -/
theorem compress_returned {data c : Bytes} {root : Cell} {con con' : Console}
    (hdeser : lib.stdBocDeserialize data = .ok root) (hc : c ≠ [])
    (hrun : compress lib data con = (.returned c, con')) :
    ∃ serialized, lib.stdBocSerialize root 2 = .ok serialized ∧
      lib.gzencode (lz4Stream lib serialized) 1 = c := by
  rcases compressEnds_of_run hrun with ⟨log, hends, _⟩
  cases hends with
  | gzipEmpty => exact absurd rfl hc
  | @done root' serialized hdeser' hser =>
      rw [hdeser, Result.ok.injEq] at hdeser'
      subst hdeser'
      exact ⟨serialized, hser, rfl⟩

/-- **`compress` is injective on roots.** Two inputs that are compressed to the
same buffer, which is not empty, have the same root. -/
theorem root_eq_of_compress_eq
    (hround : ∀ root serialized, lib.stdBocSerialize root 2 = .ok serialized →
      lib.stdBocDeserialize serialized = .ok root)
    (hundo : GzipUndo lib) (hcode : Chunks.StreamCode lib.lz4Compress)
    {data₁ data₂ c : Bytes} {root₁ root₂ : Cell} {con₁ con₁' con₂ con₂' : Console}
    (hdeser₁ : lib.stdBocDeserialize data₁ = .ok root₁)
    (hdeser₂ : lib.stdBocDeserialize data₂ = .ok root₂) (hc : c ≠ [])
    (hrun₁ : compress lib data₁ con₁ = (.returned c, con₁'))
    (hrun₂ : compress lib data₂ con₂ = (.returned c, con₂')) : root₁ = root₂ := by
  rcases compress_returned hdeser₁ hc hrun₁ with ⟨serialized₁, hser₁, hgz₁⟩
  rcases compress_returned hdeser₂ hc hrun₂ with ⟨serialized₂, hser₂, hgz₂⟩
  -- gunzip first, then the stream, then the serialization
  have hstream : lz4Stream lib serialized₁ = lz4Stream lib serialized₂ := by
    have hstream₁ := hundo (lz4Stream lib serialized₁) (by rwa [hgz₁])
    have hstream₂ := hundo (lz4Stream lib serialized₂) (by rwa [hgz₂])
    rw [← hstream₁, ← hstream₂, hgz₁, hgz₂]
  have hserialized : serialized₁ = serialized₂ := lz4Stream_injective hcode hstream
  subst hserialized
  exact root_eq_of_serialize hround hser₁ hser₂

section Samples

open Reference

/-- How `compress` ends on any form of the wide cell. -/
theorem compressEnds_wide {data : Bytes}
    (hdeser : Reference.lib.stdBocDeserialize data = .ok .wide) :
    CompressEnds Reference.lib data (.returned wideStream) [] := by
  rw [← gzencode_lz4Stream_wide]
  refine .done hdeser (serialize_compactMode .wide) ?_
  rw [gzencode_lz4Stream_wide]
  exact wideStream_ne_nil

/-- Two forms of the wide cell, which are compressed to one gzip stream. -/
theorem root_eq_wide :
    ∃ c root₁ root₂, blockForm .wide ≠ compactForm .wide ∧ c ≠ [] ∧
      Reference.lib.stdBocDeserialize (blockForm .wide) = .ok root₁ ∧
      Reference.lib.stdBocDeserialize (compactForm .wide) = .ok root₂ ∧
      compress Reference.lib (blockForm .wide) ⟨[], [], []⟩ = (.returned c, ⟨[], [], []⟩) ∧
      compress Reference.lib (compactForm .wide) ⟨[], [], []⟩ = (.returned c, ⟨[], [], []⟩) ∧
      root₁ = root₂ := by
  have hblock := deserialize_blockForm .wide
  have hcompact := deserialize_compactForm .wide
  have hrun₁ := compress_run (compressEnds_wide hblock) ⟨[], [], []⟩
  have hrun₂ := compress_run (compressEnds_wide hcompact) ⟨[], [], []⟩
  exact ⟨wideStream, .wide, .wide, blockForm_ne_compactForm .wide, wideStream_ne_nil, hblock,
    hcompact, hrun₁, hrun₂, root_eq_of_compress_eq (fun root => bocRoundTrip root 2) gzipUndo
      streamCode hblock hcompact wideStream_ne_nil hrun₁ hrun₂⟩

end Samples

/-! ## Size -/

/-- The expansion of the chunks: one part in 255, and 16 bytes for each chunk. -/
theorem length_lz4Stream_le (hexpand : Lz4Expansion lib) (serialized : Bytes) :
    (lz4Stream lib serialized).length ≤ serialized.length + serialized.length / 255 +
      16 * ((serialized.length + (chunkSize - 1)) / chunkSize) :=
  Chunks.length_stream_le chunkSize_pos hexpand serialized

end TonEncoder.Tester

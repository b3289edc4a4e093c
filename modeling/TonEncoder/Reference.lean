import TonEncoder.Codec.Base64
import TonEncoder.Codec.Lz4Block
import TonEncoder.CryptoLib
import TonEncoder.Reference.Bags

/-! # A reference library

A concrete `TonCryptoLib` which meets every contract:

* its bags of cells are the samples, with their actual bytes in modes 0, 2 and 31;
* LZ4 keeps its input as literals, which is what the compressor emits for the samples:
  it finds no match in them;
* gzip has the actual streams of the two smaller samples. Any other input becomes a
  stored block, which is what the block of `noise` becomes: the stream is too long for
  the buffer (`gzencode_noise`). No example depends on the stream of `tree`.
-/

namespace TonEncoder.Reference

open Process ByteWidth

/-! ## Bags of cells -/

def serializeMode (root : Sample) (mode : Nat) : Result Bytes :=
  if mode = 0 then .ok (plainForm root)
  else if mode = 2 then .ok (compactForm root)
  else if mode = 31 then .ok (blockForm root)
  else .error ⟨0, "unsupported mode"⟩

def deserialize (data : Bytes) : Result Sample :=
  match [Sample.pair, .wide, .noise, .tree].find? fun root => data ∈ forms root with
  | some root => .ok root
  | none => .error ⟨0, "not a bag of cells"⟩

theorem deserialize_of_mem_forms {root : Sample} {data : Bytes} (h : data ∈ forms root) :
    deserialize data = .ok root := by
  unfold deserialize
  split
  · rename_i root' hfind
    have hmem : data ∈ forms root' := by simpa using List.find?_some hfind
    rw [root_eq_of_forms h hmem]
  · -- the sample itself would have been found
    rename_i hfind
    rw [List.find?_eq_none] at hfind
    exact absurd h (by simpa using hfind root (by cases root <;> simp))

theorem serializeMode_cases {root : Sample} {mode : Nat} {data : Bytes}
    (h : serializeMode root mode = .ok data) :
    (mode = 0 ∧ data = plainForm root) ∨ (mode = 2 ∧ data = compactForm root) ∨
      (mode = 31 ∧ data = blockForm root) := by
  unfold serializeMode at h
  split at h
  · cases h
    exact Or.inl ⟨by assumption, rfl⟩
  · split at h
    · cases h
      exact Or.inr (Or.inl ⟨by assumption, rfl⟩)
    · split at h
      · cases h
        exact Or.inr (Or.inr ⟨by assumption, rfl⟩)
      · cases h

/-! ## Gzip -/

/-- The LZ4 block of a sample. -/
def lz4BlockOf (root : Sample) : Bytes := Lz4Block.literalBlock (compactForm root)

/-- What gzip makes of the block of `pair`, at the default level. -/
def pairStream : Bytes :=
  [120, 156, 251, 32, 178, 245, 221, 156, 34, 71, 70, 38, 70, 6, 17, 6, 70, 142, 213, 103, 133,
   76, 24, 25, 196, 24, 24, 24, 82, 184, 68, 228, 52, 140, 24, 24, 230, 106, 240, 204, 7, 0, 190,
   245, 8, 87]

/-- What it makes of the block of `wide`. -/
def wideStream : Bytes :=
  [120, 156, 13, 202, 65, 17, 2, 81, 12, 68, 193, 255, 113, 134, 20, 102, 162, 0, 7, 235, 99,
   111, 104, 192, 12, 34, 40, 20, 108, 209, 73, 37, 245, 14, 253, 59, 222, 223, 243, 121, 223,
   123, 175, 99, 173, 235, 97, 226, 234, 70, 234, 232, 232, 234, 234, 234, 209, 163, 103, 232,
   208, 161, 67, 135, 14, 29, 58, 116, 232, 208, 161, 67, 215, 250, 100, 201, 146, 37, 75, 150,
   236, 231, 118, 190, 254, 44, 65, 56, 169]

/-- The checksum of a stream. -/
def adler32 (s : Bytes) : Nat :=
  let sums := s.foldl (fun (a, b) byte =>
    ((a + byte.toNat) % 65521, (b + (a + byte.toNat)) % 65521)) (1, 0)
  sums.2 * 65536 + sums.1

/-- The header of a stream of one stored block, whose length has two bytes. A longer
input has no such stream, but none that fits the buffer either. -/
def storedHeader (length : Nat) : Bytes :=
  [120, 156, 1] ++ (BigEndian.toBytes 2 length).reverse ++
    (BigEndian.toBytes 2 (65535 - length)).reverse

def storedStream (s : Bytes) : Bytes :=
  storedHeader s.length ++ s ++ BigEndian.toBytes 4 (adler32 s)

theorem length_storedHeader (length : Nat) : (storedHeader length).length = 7 := by
  simp [storedHeader]

theorem length_storedStream (s : Bytes) : (storedStream s).length = s.length + 11 := by
  simp only [storedStream, List.length_append, length_storedHeader, BigEndian.length_toBytes]
  omega

def deflate (s : Bytes) : Bytes :=
  if s = lz4BlockOf .pair then pairStream
  else if s = lz4BlockOf .wide then wideStream
  else storedStream s

def inflate (s : Bytes) : Bytes :=
  if s = pairStream then lz4BlockOf .pair
  else if s = wideStream then lz4BlockOf .wide
  else if s.take 3 = [120, 156, 1] then (s.drop 7).take (s.length - 11)
  else []

theorem take_storedStream (s : Bytes) : (storedStream s).take 3 = [120, 156, 1] := rfl

/-- Undoing a stored block leaves out the header and the checksum. -/
theorem inflate_storedStream (s : Bytes) : inflate (storedStream s) = s := by
  have htake := take_storedStream s
  -- the first block of the actual streams is compressed, and its header says so
  have hpair : storedStream s ≠ pairStream := by
    intro h
    rw [h] at htake
    exact absurd htake (by decide)
  have hwide : storedStream s ≠ wideStream := by
    intro h
    rw [h] at htake
    exact absurd htake (by decide)
  have hdrop : (storedStream s).drop 7 = s ++ BigEndian.toBytes 4 (adler32 s) := by
    rw [storedStream, List.append_assoc, List.drop_left' (length_storedHeader s.length)]
  rw [inflate, if_neg hpair, if_neg hwide, if_pos htake, length_storedStream, Nat.add_sub_cancel,
    hdrop, List.take_left]

theorem inflate_deflate (s : Bytes) : inflate (deflate s) = s := by
  unfold deflate
  split
  · rename_i hs
    rw [inflate, if_pos rfl, hs]
  · split
    · rename_i hs
      rw [inflate, if_neg (by decide), if_pos rfl, hs]
    · exact inflate_storedStream s

/-! ## The library -/

def lib : TonCryptoLib Sample where
  builders := sliceBuilders
  stdBocDeserialize := deserialize
  stdBocSerialize := serializeMode
  lz4Compress := Lz4Block.literalBlock
  lz4Decompress block n :=
    match Lz4Block.decode block with
    | some x => if x.length ≤ n then .ok x else .error ⟨0, "lz4 output is too large"⟩
    | none => .error ⟨0, "lz4 block is malformed"⟩
  gzencode s k := if (deflate s).length ≤ gzipBufferSize ⌊k * s.length⌋₊ then deflate s else []
  gzdecode := inflate
  strBase64Encode := Base64.encode
  base64Decode s := (Base64.decode s).getD []
  base64Encode := Base64.encode
  base64DecodeResult s :=
    match Base64.decode s with
    | some x => .ok x
    | none => .error ⟨0, "invalid base64"⟩

theorem serialize_plainMode (root : Sample) : lib.stdBocSerialize root 0 = .ok (plainForm root) :=
  rfl

theorem serialize_compactMode (root : Sample) :
    lib.stdBocSerialize root 2 = .ok (compactForm root) := rfl

theorem serialize_blockMode (root : Sample) :
    lib.stdBocSerialize root 31 = .ok (blockForm root) := rfl

theorem deserialize_compactForm (root : Sample) :
    lib.stdBocDeserialize (compactForm root) = .ok root :=
  deserialize_of_mem_forms (by simp [forms])

theorem deserialize_blockForm (root : Sample) :
    lib.stdBocDeserialize (blockForm root) = .ok root :=
  deserialize_of_mem_forms (by simp [forms])

/-! ## The contracts -/

theorem bocRoundTrip : BocRoundTrip lib := by
  intro root mode data h
  apply deserialize_of_mem_forms
  rcases serializeMode_cases h with ⟨_, rfl⟩ | ⟨_, rfl⟩ | ⟨_, rfl⟩
  · simp [forms]
  · simp [forms]
  · simp [forms]

theorem bocRejectsEmpty : BocRejectsEmpty lib := by
  refine ⟨⟨0, "not a bag of cells"⟩, ?_⟩
  have hnone : [Sample.pair, .wide, .noise, .tree].find? (fun root => [] ∈ forms root) = none := by
    rw [List.find?_eq_none]
    intro root _
    -- no form is as short
    have hlength : ([] : Bytes) ∉ forms root := by
      intro hmem
      rcases length_of_mem_forms hmem with h | h | h <;>
        cases root <;> simp [compactLength, blockLength] at h
    simpa using hlength
  show deserialize [] = _
  rw [deserialize, hnone]

theorem bocRecodes : BocRecodes lib := by
  intro root data _
  exact ⟨_, serialize_compactMode root⟩

theorem bocLayout : BocLayout lib bag := by
  intro root mode data h
  rcases serializeMode_cases h with ⟨rfl, rfl⟩ | ⟨rfl, rfl⟩ | ⟨rfl, rfl⟩
  · exact length_serialize (cells root) (cells_ne_nil root) 0
  · exact length_serialize (cells root) (cells_ne_nil root) 2
  · exact length_serialize (cells root) (cells_ne_nil root) 31

theorem lz4Compress_eq (x : Bytes) : lib.lz4Compress x = Lz4Block.literalBlock x := rfl

theorem lz4Decompress_ok {block x : Bytes} {n : Nat} (h : lib.lz4Decompress block n = .ok x) :
    Lz4Block.decode block = some x ∧ x.length ≤ n := by
  simp only [lib] at h
  split at h
  · rename_i y hdecode
    split at h
    · cases h
      exact ⟨hdecode, by assumption⟩
    · cases h
  · cases h

theorem lz4RoundTrip : Lz4RoundTrip lib where
  decompress_compress := by
    intro x n hle
    simp [lib, Lz4Block.decode_literalBlock, hle]
  length_le_cap := fun _ _ _ h => (lz4Decompress_ok h).2

theorem lz4Sound : Lz4Sound lib := by
  intro x n y h
  have hdecode := (lz4Decompress_ok h).1
  rw [lz4Compress_eq, Lz4Block.decode_literalBlock, Option.some.injEq] at hdecode
  exact hdecode.symm

/-- The blocks are of the format, and so are read front to back. -/
theorem streamCode : Chunks.StreamCode lib.lz4Compress :=
  Lz4Block.streamCode_of_decode Lz4Block.decode_literalBlock

theorem lz4Trailing : Lz4Trailing lib where
  compress_ne_nil := streamCode.ne_nil
  length_lt := by
    intro x t n y ht hy
    exact (Lz4Block.decode_append ht (Lz4Block.decode_literalBlock x) (lz4Decompress_ok hy).1).2

theorem lz4Expansion : Lz4Expansion lib := Lz4Block.length_literalBlock_le

theorem gzencode_one (s : Bytes) : lib.gzencode s 1 =
    if (deflate s).length ≤ gzipBufferSize s.length then deflate s else [] := by
  simp [lib]

theorem gzipUndo : GzipUndo lib := by
  intro s hne
  rw [gzencode_one] at hne ⊢
  split at hne
  · rename_i hfits
    rw [if_pos hfits]
    exact inflate_deflate s
  · -- it did not fit, and the buffer is empty
    exact absurd rfl hne

theorem gzipBound : GzipBound lib := by
  intro s
  rw [gzencode_one]
  split
  · assumption
  · exact Nat.zero_le _

theorem base64Decode_encode (s : Bytes) : lib.base64Decode (Base64.encode s) = s := by
  simp [lib, Base64.decode_encode]

theorem base64Contract : Base64Contract lib where
  decode_encode := base64Decode_encode
  isWord_encode := fun _ hs => Base64.isWord_encode hs

theorem base64ResultContract : Base64ResultContract lib where
  decode_encode := by
    intro s
    simp [lib, Base64.decode_encode]
  isWord_encode := fun _ hs => Base64.isWord_encode hs

/-! ## The streams of the samples -/

theorem length_lz4BlockOf (root : Sample) : (lz4BlockOf root).length =
    compactLength root + (compactLength root - 15) / 255 + 2 := by
  rw [lz4BlockOf, Lz4Block.length_literalBlock, length_compactForm, if_neg]
  cases root <;> simp [compactLength]

/-- Any block that is longer than that of `wide` is stored. -/
theorem deflate_of_lt_length {s : Bytes} (h : (lz4BlockOf .wide).length < s.length) :
    deflate s = storedStream s := by
  have hlength := length_lz4BlockOf .pair
  have hlength' := length_lz4BlockOf .wide
  simp only [compactLength] at hlength hlength'
  have hpair : s ≠ lz4BlockOf .pair := by
    intro hs
    rw [hs] at h
    omega
  have hwide : s ≠ lz4BlockOf .wide := by
    intro hs
    rw [hs] at h
    omega
  rw [deflate, if_neg hpair, if_neg hwide]

/-- LZ4 makes the samples longer. -/
theorem length_lt_lz4Compress (root : Sample) :
    (compactForm root).length < (lib.lz4Compress (compactForm root)).length := by
  rw [lz4Compress_eq, ← lz4BlockOf, length_lz4BlockOf, length_compactForm]
  omega

/-- **Gzip refuses** the block of `noise`, of 534 bytes: its stream has 11 bytes more, and
the buffer two. -/
theorem gzencode_noise : lib.gzencode (lib.lz4Compress (compactForm .noise)) 1 = [] := by
  have hlength := length_lz4BlockOf .noise
  have hlength' := length_lz4BlockOf .wide
  simp only [compactLength] at hlength hlength'
  rw [lz4Compress_eq, ← lz4BlockOf, gzencode_one, deflate_of_lt_length (by omega),
    length_storedStream, gzipBufferSize, if_neg]
  omega

/-- Gzip takes the block of `wide`. -/
theorem gzencode_wide : lib.gzencode (lib.lz4Compress (compactForm .wide)) 1 = wideStream := by
  have hdeflate : deflate (lz4BlockOf .wide) = wideStream := by
    have hne : lz4BlockOf .wide ≠ lz4BlockOf .pair := by
      intro h
      have hlength := congrArg List.length h
      rw [length_lz4BlockOf, length_lz4BlockOf] at hlength
      simp [compactLength] at hlength
    rw [deflate, if_neg hne, if_pos rfl]
  have hshort : wideStream.length = 89 := rfl
  rw [lz4Compress_eq, ← lz4BlockOf, gzencode_one, hdeflate, if_pos]
  rw [hshort, gzipBufferSize]
  omega

end TonEncoder.Reference

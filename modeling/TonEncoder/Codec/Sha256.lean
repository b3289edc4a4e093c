import TonEncoder.Codec.BigEndian

/-! # SHA-256

The digest of a text. The text is padded to blocks of sixteen words, and each block
drives sixty-four rounds over eight words of state, to which they are added.
-/

namespace Sha256

/-! ## Words -/

def rotr (x : UInt32) (n : UInt32) : UInt32 := x >>> n ||| x <<< (32 - n)

/-- The words that the bytes spell. -/
def words : List UInt8 → List UInt32
  | b₀ :: b₁ :: b₂ :: b₃ :: bs => .ofNat (BigEndian.ofBytes [b₀, b₁, b₂, b₃]) :: words bs
  | _ => []

/-- One byte with its first bit set, zeros, and the count of bits in the last eight
bytes of a block. -/
def pad (s : List UInt8) : List UInt8 :=
  s ++ [0x80] ++ List.replicate ((119 - s.length % 64) % 64) 0 ++
    BigEndian.toBytes 8 (8 * s.length)

/-! ## Rounds -/

structure State where
  a : UInt32
  b : UInt32
  c : UInt32
  d : UInt32
  e : UInt32
  f : UInt32
  g : UInt32
  h : UInt32

def State.words (s : State) : List UInt32 := [s.a, s.b, s.c, s.d, s.e, s.f, s.g, s.h]

def initial : State :=
  ⟨0x6a09e667, 0xbb67ae85, 0x3c6ef372, 0xa54ff53a,
    0x510e527f, 0x9b05688c, 0x1f83d9ab, 0x5be0cd19⟩

/-- The constants of the rounds. -/
def constants : List UInt32 := [
  0x428a2f98, 0x71374491, 0xb5c0fbcf, 0xe9b5dba5, 0x3956c25b, 0x59f111f1, 0x923f82a4, 0xab1c5ed5,
  0xd807aa98, 0x12835b01, 0x243185be, 0x550c7dc3, 0x72be5d74, 0x80deb1fe, 0x9bdc06a7, 0xc19bf174,
  0xe49b69c1, 0xefbe4786, 0x0fc19dc6, 0x240ca1cc, 0x2de92c6f, 0x4a7484aa, 0x5cb0a9dc, 0x76f988da,
  0x983e5152, 0xa831c66d, 0xb00327c8, 0xbf597fc7, 0xc6e00bf3, 0xd5a79147, 0x06ca6351, 0x14292967,
  0x27b70a85, 0x2e1b2138, 0x4d2c6dfc, 0x53380d13, 0x650a7354, 0x766a0abb, 0x81c2c92e, 0x92722c85,
  0xa2bfe8a1, 0xa81a664b, 0xc24b8b70, 0xc76c51a3, 0xd192e819, 0xd6990624, 0xf40e3585, 0x106aa070,
  0x19a4c116, 0x1e376c08, 0x2748774c, 0x34b0bcb5, 0x391c0cb3, 0x4ed8aa4a, 0x5b9cca4f, 0x682e6ff3,
  0x748f82ee, 0x78a5636f, 0x84c87814, 0x8cc70208, 0x90befffa, 0xa4506ceb, 0xbef9a3f7, 0xc67178f2]

/-- The first `n` words of the schedule that starts with sixteen words: each further
word is made from four of the sixteen before it. -/
def schedule : Nat → List UInt32 → List UInt32
  | 0, _ => []
  | n + 1, window =>
      let w₁ := window.getD 1 0
      let w₁₄ := window.getD 14 0
      let σ₀ := rotr w₁ 7 ^^^ rotr w₁ 18 ^^^ w₁ >>> 3
      let σ₁ := rotr w₁₄ 17 ^^^ rotr w₁₄ 19 ^^^ w₁₄ >>> 10
      let next := window.getD 0 0 + σ₀ + window.getD 9 0 + σ₁
      window.getD 0 0 :: schedule n (window.tail ++ [next])

/-- One round, with a constant and a word of the schedule. -/
def round (s : State) (k w : UInt32) : State :=
  let ch := (s.e &&& s.f) ^^^ (~~~s.e &&& s.g)
  let maj := (s.a &&& s.b) ^^^ (s.a &&& s.c) ^^^ (s.b &&& s.c)
  let t₁ := s.h + (rotr s.e 6 ^^^ rotr s.e 11 ^^^ rotr s.e 25) + ch + k + w
  let t₂ := (rotr s.a 2 ^^^ rotr s.a 13 ^^^ rotr s.a 22) + maj
  ⟨t₁ + t₂, s.a, s.b, s.c, s.d + t₁, s.e, s.f, s.g⟩

/-- One block. -/
def compress (s : State) (block : List UInt32) : State :=
  let s' := (constants.zip (schedule 64 block)).foldl (fun s (k, w) => round s k w) s
  ⟨s.a + s'.a, s.b + s'.b, s.c + s'.c, s.d + s'.d,
    s.e + s'.e, s.f + s'.f, s.g + s'.g, s.h + s'.h⟩

/-- `n` blocks. -/
def blocks : Nat → State → List UInt32 → State
  | 0, s, _ => s
  | n + 1, s, ws => blocks n (compress s (ws.take 16)) (ws.drop 16)

/-! ## The digest -/

def hash (s : List UInt8) : List UInt8 :=
  (blocks ((pad s).length / 64) initial (words (pad s))).words.flatMap fun w =>
    BigEndian.toBytes 4 w.toNat

theorem length_hash (s : List UInt8) : (hash s).length = 32 := by
  simp [hash, State.words]

/-- The digest of `abc`. -/
example : hash [97, 98, 99] =
    [0xba, 0x78, 0x16, 0xbf, 0x8f, 0x01, 0xcf, 0xea, 0x41, 0x41, 0x40, 0xde, 0x5d, 0xae, 0x22,
      0x23, 0xb0, 0x03, 0x61, 0xa3, 0x96, 0x17, 0x7a, 0x9c, 0xb4, 0x10, 0xff, 0x61, 0xf2, 0x00,
      0x15, 0xad] := by
  decide +kernel

end Sha256

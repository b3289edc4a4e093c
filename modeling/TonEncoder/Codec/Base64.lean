import TonEncoder.Codec.Process

/-! # Base64

The standard alphabet with padding: three bytes are four digits, and a rest of
one or two bytes is padded with `=` to four characters.
-/

namespace Base64

open Process (Bytes IsWord isSpace_of_lt)

/-- The character of a six-bit digit. -/
def encodeDigit (n : Nat) : UInt8 :=
  if n < 26 then UInt8.ofNat (65 + n)
  else if n < 52 then UInt8.ofNat (71 + n)
  else if n < 62 then UInt8.ofNat (n - 4)
  else if n = 62 then 43
  else 47

/-- The digit of a character of the alphabet. -/
def decodeDigit (c : UInt8) : Option Nat :=
  if 65 ≤ c ∧ c ≤ 90 then some (c.toNat - 65)
  else if 97 ≤ c ∧ c ≤ 122 then some (c.toNat - 71)
  else if 48 ≤ c ∧ c ≤ 57 then some (c.toNat + 4)
  else if c = 43 then some 62
  else if c = 47 then some 63
  else none

/-- The padding character `=`. -/
def pad : UInt8 := 61

theorem decodeDigit_encodeDigit : ∀ n < 64, decodeDigit (encodeDigit n) = some n := by
  decide

theorem encodeDigit_ne_pad : ∀ n < 64, encodeDigit n ≠ pad := by
  decide

theorem lt_encodeDigit : ∀ n < 64, 32 < encodeDigit n := by
  decide

theorem encodeDigit_lt : ∀ n < 64, encodeDigit n < 128 := by
  decide

/-! ## Three bytes in four digits -/

/-- The digits of the bytes `a`, `b` and `c`. -/
def digit₁ (a : UInt8) : Nat := a.toNat / 4
def digit₂ (a b : UInt8) : Nat := a.toNat % 4 * 16 + b.toNat / 16
def digit₃ (b c : UInt8) : Nat := b.toNat % 16 * 4 + c.toNat / 64
def digit₄ (c : UInt8) : Nat := c.toNat % 64

/-- The bytes of the digits `w`, `x`, `y` and `z`. -/
def byte₁ (w x : Nat) : UInt8 := UInt8.ofNat (w * 4 + x / 16)
def byte₂ (x y : Nat) : UInt8 := UInt8.ofNat (x % 16 * 16 + y / 4)
def byte₃ (y z : Nat) : UInt8 := UInt8.ofNat (y % 4 * 64 + z)

theorem digit₁_lt (a : UInt8) : digit₁ a < 64 := by
  have ha := a.toNat_lt
  unfold digit₁
  omega

theorem digit₂_lt (a b : UInt8) : digit₂ a b < 64 := by
  have hb := b.toNat_lt
  unfold digit₂
  omega

theorem digit₃_lt (b c : UInt8) : digit₃ b c < 64 := by
  have hc := c.toNat_lt
  unfold digit₃
  omega

theorem digit₄_lt (c : UInt8) : digit₄ c < 64 := by
  unfold digit₄
  omega

@[simp] theorem byte₁_digits (a b : UInt8) : byte₁ (digit₁ a) (digit₂ a b) = a := by
  have hb := b.toNat_lt
  have h : digit₁ a * 4 + digit₂ a b / 16 = a.toNat := by
    unfold digit₁ digit₂
    omega
  rw [byte₁, h, UInt8.ofNat_toNat]

@[simp] theorem byte₂_digits (a b c : UInt8) : byte₂ (digit₂ a b) (digit₃ b c) = b := by
  have hb := b.toNat_lt
  have hc := c.toNat_lt
  have h : digit₂ a b % 16 * 16 + digit₃ b c / 4 = b.toNat := by
    unfold digit₂ digit₃
    omega
  rw [byte₂, h, UInt8.ofNat_toNat]

@[simp] theorem byte₃_digits (b c : UInt8) : byte₃ (digit₃ b c) (digit₄ c) = c := by
  have hc := c.toNat_lt
  have h : digit₃ b c % 4 * 64 + digit₄ c = c.toNat := by
    unfold digit₃ digit₄
    omega
  rw [byte₃, h, UInt8.ofNat_toNat]

/-! ## The codec -/

def encode : Bytes → Bytes
  | a :: b :: c :: rest =>
      encodeDigit (digit₁ a) :: encodeDigit (digit₂ a b) :: encodeDigit (digit₃ b c) ::
        encodeDigit (digit₄ c) :: encode rest
  | [a, b] =>
      [encodeDigit (digit₁ a), encodeDigit (digit₂ a b), encodeDigit (digit₃ b 0), pad]
  | [a] => [encodeDigit (digit₁ a), encodeDigit (digit₂ a 0), pad, pad]
  | [] => []

/-- The text of a well-formed encoding. Padding ends it. -/
def decode : Bytes → Option Bytes
  | c₁ :: c₂ :: c₃ :: c₄ :: rest => do
      let w ← decodeDigit c₁
      let x ← decodeDigit c₂
      -- two characters of padding leave one byte, one leaves two
      if rest = [] ∧ c₃ = pad ∧ c₄ = pad then
        return [byte₁ w x]
      let y ← decodeDigit c₃
      if rest = [] ∧ c₄ = pad then
        return [byte₁ w x, byte₂ x y]
      let z ← decodeDigit c₄
      let tail ← decode rest
      return byte₁ w x :: byte₂ x y :: byte₃ y z :: tail
  | [] => some []
  | _ => none

/-- **Round trip.** -/
theorem decode_encode (s : Bytes) : decode (encode s) = some s := by
  fun_induction encode s with
  | case1 a b c rest ih =>
      simp [decode, decodeDigit_encodeDigit, encodeDigit_ne_pad, digit₁_lt, digit₂_lt,
        digit₃_lt, digit₄_lt, ih]
  | case2 a b =>
      simp [decode, decodeDigit_encodeDigit, encodeDigit_ne_pad, digit₁_lt, digit₂_lt,
        digit₃_lt]
  | case3 a => simp [decode, decodeDigit_encodeDigit, digit₁_lt, digit₂_lt]
  | case4 => rfl

/-- What holds of the digits and of the padding holds of the characters of an
encoding. -/
theorem forall_mem_encode {p : UInt8 → Prop} (hdigit : ∀ n < 64, p (encodeDigit n)) (hpad : p pad)
    {s : Bytes} {ch : UInt8} (h : ch ∈ encode s) : p ch := by
  fun_induction encode s with
  | case1 a b c rest ih =>
      simp only [List.mem_cons] at h
      rcases h with rfl | rfl | rfl | rfl | h
      · exact hdigit _ (digit₁_lt a)
      · exact hdigit _ (digit₂_lt a b)
      · exact hdigit _ (digit₃_lt b c)
      · exact hdigit _ (digit₄_lt c)
      · exact ih h
  | case2 a b =>
      simp only [List.mem_cons, List.not_mem_nil, or_false] at h
      rcases h with rfl | rfl | rfl | rfl
      · exact hdigit _ (digit₁_lt a)
      · exact hdigit _ (digit₂_lt a b)
      · exact hdigit _ (digit₃_lt b 0)
      · exact hpad
  | case3 a =>
      simp only [List.mem_cons, List.not_mem_nil, or_false] at h
      rcases h with rfl | rfl | rfl | rfl
      · exact hdigit _ (digit₁_lt a)
      · exact hdigit _ (digit₂_lt a 0)
      · exact hpad
      · exact hpad
  | case4 => cases h

/-- The characters of an encoding come after the space. -/
theorem lt_of_mem_encode {s : Bytes} {ch : UInt8} (h : ch ∈ encode s) : 32 < ch :=
  forall_mem_encode (p := (32 < ·)) lt_encodeDigit (by decide) h

/-- And they are ASCII. -/
theorem mem_encode_lt {s : Bytes} {ch : UInt8} (h : ch ∈ encode s) : ch < 128 :=
  forall_mem_encode (p := (· < 128)) encodeDigit_lt (by decide) h

/-- The encoding of a non-empty text is a word. -/
theorem isWord_encode {s : Bytes} (hs : s ≠ []) : IsWord (encode s) := by
  constructor
  · intro hnil
    have hdec := decode_encode s
    rw [hnil, decode, Option.some.injEq] at hdec
    exact hs hdec.symm
  · intro ch hch
    exact isSpace_of_lt (lt_of_mem_encode hch)

end Base64

import TonEncoder.Codec.Chunks

/-! # The LZ4 block format

A block is a list of sequences. A sequence is a token, a run of literals and a
match, which copies earlier output; the last sequence has no match, and ends
where the block ends. Nothing in a block says how long it is.

* `decode`: the text of a block, if it is well formed;
* `literalBlock`: the block that holds a text as one run of literals;
* `decode_append`: a well-formed block with bytes behind it is either malformed
  or codes a longer text, which starts with the text of the block alone;
* `streamCode_of_decode`: so every compressor into the format is a
  `Chunks.StreamCode`.
-/

namespace Lz4Block

abbrev Bytes := List UInt8

/-! ## Lengths -/

/-- The bytes after a full nibble: each adds its value, and `255` is not the
last one. -/
def readRun : Bytes → Option (Nat × Bytes)
  | [] => none
  | b :: rest =>
      if b = 255 then (readRun rest).map fun p => (255 + p.1, p.2)
      else some (b.toNat, rest)

/-- A length starts in a nibble of the token. -/
def readLength (nibble : Nat) (input : Bytes) : Option (Nat × Bytes) :=
  if nibble = 15 then (readRun input).map fun p => (15 + p.1, p.2)
  else some (nibble, input)

/-- The bytes that `readRun` reads as `n`. -/
def run (n : Nat) : Bytes :=
  List.replicate (n / 255) 255 ++ [UInt8.ofNat (n % 255)]

theorem length_run (n : Nat) : (run n).length = n / 255 + 1 := by
  simp [run]

theorem readRun_append {input rest : Bytes} {n : Nat} (t : Bytes)
    (h : readRun input = some (n, rest)) : readRun (input ++ t) = some (n, rest ++ t) := by
  induction input generalizing n with
  | nil => simp [readRun] at h
  | cons b input ih =>
      rw [List.cons_append]
      by_cases hb : b = 255
      · -- a full byte: the run goes on
        simp only [readRun, if_pos hb, Option.map_eq_some_iff, Prod.mk.injEq, Prod.exists] at h ⊢
        obtain ⟨n', rest', hrun, rfl, rfl⟩ := h
        exact ⟨n', rest' ++ t, ih hrun, rfl, rfl⟩
      · simp only [readRun, if_neg hb, Option.some.injEq, Prod.mk.injEq] at h ⊢
        exact ⟨h.1, by rw [h.2]⟩

theorem readLength_append {nibble n : Nat} {input rest : Bytes} (t : Bytes)
    (h : readLength nibble input = some (n, rest)) :
    readLength nibble (input ++ t) = some (n, rest ++ t) := by
  unfold readLength at h ⊢
  by_cases hn : nibble = 15
  · simp only [if_pos hn, Option.map_eq_some_iff, Prod.mk.injEq, Prod.exists] at h ⊢
    obtain ⟨n', rest', hrun, rfl, rfl⟩ := h
    exact ⟨n', rest' ++ t, readRun_append t hrun, rfl, rfl⟩
  · simp only [if_neg hn, Option.some.injEq, Prod.mk.injEq] at h ⊢
    exact ⟨h.1, by rw [h.2]⟩

theorem readRun_run (n : Nat) (t : Bytes) : readRun (run n ++ t) = some (n, t) := by
  have hlast : readRun (UInt8.ofNat (n % 255) :: t) = some (n % 255, t) := by
    have hlt : n % 255 < 255 := Nat.mod_lt _ (by omega)
    have hnat : (UInt8.ofNat (n % 255)).toNat = n % 255 := by
      simp only [UInt8.toNat_ofNat']
      omega
    have hne : UInt8.ofNat (n % 255) ≠ 255 := by
      intro h
      have h255 : (UInt8.ofNat (n % 255)).toNat = 255 := by rw [h]; rfl
      omega
    simp [readRun, hne, hnat]
  -- the full bytes before it, one by one
  have hfull : ∀ k m, readRun (UInt8.ofNat (n % 255) :: t) = some (m, t) →
      readRun (List.replicate k 255 ++ UInt8.ofNat (n % 255) :: t) = some (255 * k + m, t) := by
    intro k m h
    induction k with
    | zero => simpa using h
    | succ k ih =>
        rw [List.replicate_succ, List.cons_append, readRun, if_pos rfl, ih]
        simp only [Option.map_some, Option.some.injEq, Prod.mk.injEq, and_true]
        omega
  have := hfull (n / 255) (n % 255) hlast
  rw [Nat.div_add_mod] at this
  simpa [run] using this

/-! ## Sequences -/

/-- A sequence: literals, then a match of `length` bytes at distance `offset`,
or the end of the block. -/
inductive Sequence where
  | last (literals : Bytes)
  | copy (literals : Bytes) (offset length : Nat) (rest : Bytes)
deriving DecidableEq, Repr

/-- Read the sequence at the front of the input. -/
def readSequence : Bytes → Option Sequence
  | [] => none
  | token :: input =>
      match readLength (token.toNat / 16) input with
      | none => none
      | some (n, rest) =>
          if rest.length < n then none
          else match rest.drop n with
            | [] => some (.last (rest.take n))
            -- an offset has two bytes
            | [_] => none
            | lo :: hi :: rest' =>
                match readLength (token.toNat % 16) rest' with
                | none => none
                | some (m, rest'') =>
                    -- the nibble counts from the least match, of four bytes
                    some (.copy (rest.take n) (lo.toNat + 256 * hi.toNat) (m + 4) rest'')

/-- Append `n` bytes to the output, each the byte `offset` back from its end. A
match may overlap its own output. -/
def copyMatch (out : Bytes) (offset : Nat) : Nat → Bytes
  | 0 => out
  | n + 1 => copyMatch (out ++ [out.getD (out.length - offset) 0]) offset n

/-- Decode the sequences of the input after the output so far. -/
def decodeFrom : Nat → Bytes → Bytes → Option Bytes
  | 0, _, _ => none
  | fuel + 1, input, out =>
      match readSequence input with
      | none => none
      | some (.last literals) => some (out ++ literals)
      | some (.copy literals offset length rest) =>
          -- a match starts within the output
          if offset = 0 ∨ (out ++ literals).length < offset then none
          else decodeFrom fuel rest (copyMatch (out ++ literals) offset length)

/-- The text of a block. A sequence takes at least one byte, so that the length
of the block is enough fuel. -/
def decode (block : Bytes) : Option Bytes := decodeFrom block.length block []

theorem prefix_copyMatch (out : Bytes) (offset n : Nat) : out <+: copyMatch out offset n := by
  induction n generalizing out with
  | zero => exact List.prefix_refl out
  | succ n ih => exact (List.prefix_append out _).trans (ih _)

theorem length_copyMatch (out : Bytes) (offset n : Nat) :
    (copyMatch out offset n).length = out.length + n := by
  induction n generalizing out with
  | zero => rfl
  | succ n ih =>
      rw [copyMatch, ih, List.length_append, List.length_singleton]
      omega

/-- The cases of reading a sequence, one for each way it can end. -/
theorem readSequence_cases {input : Bytes} {seq : Sequence}
    (h : readSequence input = some seq) :
    ∃ token rest n literals tail, input = token :: rest ∧
      readLength (token.toNat / 16) rest = some (n, literals ++ tail) ∧ literals.length = n ∧
      ((tail = [] ∧ seq = .last literals) ∨
        ∃ lo hi rest' m rest'', tail = lo :: hi :: rest' ∧
          readLength (token.toNat % 16) rest' = some (m, rest'') ∧
          seq = .copy literals (lo.toNat + 256 * hi.toNat) (m + 4) rest'') := by
  cases input with
  | nil => simp [readSequence] at h
  | cons token input =>
      rcases hlen : readLength (token.toNat / 16) input with _ | ⟨n, rest⟩
      · simp [readSequence, hlen] at h
      by_cases hle : rest.length < n
      · simp [readSequence, hlen, hle] at h
      have htake : (rest.take n).length = n := by
        rw [List.length_take]
        omega
      refine ⟨token, input, n, rest.take n, rest.drop n, rfl,
        by rw [List.take_append_drop, hlen], htake, ?_⟩
      match hdrop : rest.drop n with
      | [] =>
          left
          simp only [readSequence, hlen, if_neg hle, hdrop, Option.some.injEq] at h
          exact ⟨rfl, h.symm⟩
      | [_] => simp [readSequence, hlen, hle, hdrop] at h
      | lo :: hi :: rest' =>
          rcases hm : readLength (token.toNat % 16) rest' with _ | ⟨m, rest''⟩
          · simp [readSequence, hlen, hle, hdrop, hm] at h
          right
          simp only [readSequence, hlen, if_neg hle, hdrop, hm, Option.some.injEq] at h
          exact ⟨lo, hi, rest', m, rest'', rfl, hm, h.symm⟩

theorem readSequence_last {token : UInt8} {rest literals : Bytes} {n : Nat}
    (hlen : readLength (token.toNat / 16) rest = some (n, literals))
    (hn : literals.length = n) :
    readSequence (token :: rest) = some (.last literals) := by
  subst hn
  simp [readSequence, hlen]

theorem readSequence_copy {token lo hi : UInt8} {rest literals rest' rest'' : Bytes} {n m : Nat}
    (hlen : readLength (token.toNat / 16) rest = some (n, literals ++ lo :: hi :: rest'))
    (hn : literals.length = n)
    (hm : readLength (token.toNat % 16) rest' = some (m, rest'')) :
    readSequence (token :: rest) =
      some (.copy literals (lo.toNat + 256 * hi.toNat) (m + 4) rest'') := by
  subst hn
  simp [readSequence, hlen, hm]

/-! ## Bytes behind a block -/

/-- A sequence with a match is read whatever follows it. -/
theorem readSequence_copy_append {input literals rest : Bytes} {offset length : Nat} (t : Bytes)
    (h : readSequence input = some (.copy literals offset length rest)) :
    readSequence (input ++ t) = some (.copy literals offset length (rest ++ t)) := by
  obtain ⟨token, rest₀, n, lits, tail, rfl, hlen, hn, hcases⟩ := readSequence_cases h
  rcases hcases with ⟨_, hseq⟩ | ⟨lo, hi, rest', m, rest'', rfl, hm, hseq⟩
  · cases hseq
  · cases hseq
    have hlen' := readLength_append t hlen
    rw [List.append_assoc, List.cons_append, List.cons_append] at hlen'
    exact readSequence_copy hlen' hn (readLength_append t hm)

/-- Bytes behind the last sequence are read as its match, whose length is at
least four. -/
theorem readSequence_last_append {input literals t : Bytes} {seq : Sequence} (ht : t ≠ [])
    (h : readSequence input = some (.last literals))
    (ht' : readSequence (input ++ t) = some seq) :
    ∃ offset length rest, seq = .copy literals offset length rest ∧ 4 ≤ length := by
  obtain ⟨token, rest₀, n, lits, tail, rfl, hlen, hn, hcases⟩ := readSequence_cases h
  rcases hcases with ⟨rfl, hseq⟩ | ⟨_, _, _, _, _, _, _, hseq⟩
  · cases hseq
    have hlen' := readLength_append t hlen
    rw [List.append_nil] at hlen'
    -- both readings start with the same token, and so with the same literals
    obtain ⟨token', rest', n', lits', tail', hcons, hlen'', hn', hcases'⟩ :=
      readSequence_cases ht'
    obtain ⟨rfl, rfl⟩ : token = token' ∧ rest₀ ++ t = rest' := by
      simpa using hcons
    rw [hlen'] at hlen''
    obtain ⟨rfl, happ⟩ : n = n' ∧ literals ++ t = lits' ++ tail' := by
      simpa using hlen''
    obtain ⟨rfl, rfl⟩ := List.append_inj happ (by omega)
    rcases hcases' with ⟨hnil, _⟩ | ⟨lo, hi, r, m, r', _, _, rfl⟩
    · exact absurd hnil ht
    · exact ⟨_, _, _, rfl, by omega⟩
  · cases hseq

theorem prefix_of_decodeFrom {fuel : Nat} {input out x : Bytes}
    (h : decodeFrom fuel input out = some x) : out <+: x := by
  induction fuel generalizing input out with
  | zero => simp [decodeFrom] at h
  | succ fuel ih =>
      unfold decodeFrom at h
      split at h
      · cases h
      · cases h
        exact List.prefix_append _ _
      · split at h
        · cases h
        · have hcopy := (prefix_copyMatch _ _ _).trans (ih h)
          exact (List.prefix_append _ _).trans hcopy

/-- The induction behind `decode_append`, along the sequences of the block. -/
theorem decodeFrom_append {fuel fuel' : Nat} {input out x y t : Bytes} (ht : t ≠ [])
    (hx : decodeFrom fuel input out = some x)
    (hy : decodeFrom fuel' (input ++ t) out = some y) : x <+: y ∧ x.length < y.length := by
  induction fuel generalizing fuel' input out with
  | zero => simp [decodeFrom] at hx
  | succ fuel ih =>
      cases fuel' with
      | zero => simp [decodeFrom] at hy
      | succ fuel' =>
          unfold decodeFrom at hx hy
          split at hx
          · cases hx
          · -- the last sequence: what follows is read as a match
            rename_i literals hseq
            cases hx
            split at hy
            · cases hy
            · rename_i literals' hseq'
              obtain ⟨_, _, _, hcopy, _⟩ := readSequence_last_append ht hseq hseq'
              cases hcopy
            · rename_i literals' offset length rest hseq'
              obtain ⟨_, _, _, hcopy, hfour⟩ := readSequence_last_append ht hseq hseq'
              cases hcopy
              split at hy
              · cases hy
              · have hpre := prefix_of_decodeFrom hy
                have hlen := hpre.length_le
                rw [length_copyMatch] at hlen
                exact ⟨(prefix_copyMatch _ _ _).trans hpre, by omega⟩
          · -- a sequence with a match: both readings copy it and go on
            rename_i literals offset length rest hseq
            rw [readSequence_copy_append t hseq] at hy
            simp only at hy
            split at hx
            · cases hx
            · rename_i hoff
              rw [if_neg hoff] at hy
              exact ih hx hy

/-- **A block with bytes behind it.** If it is well formed at all, it codes a
longer text than the block alone, and starts with its text. -/
theorem decode_append {block x y t : Bytes} (ht : t ≠ []) (hx : decode block = some x)
    (hy : decode (block ++ t) = some y) : x <+: y ∧ x.length < y.length :=
  decodeFrom_append ht hx hy

/-- A compressor into the format is read front to back. -/
theorem streamCode_of_decode {enc : Bytes → Bytes} (h : ∀ x, decode (enc x) = some x) :
    Chunks.StreamCode enc where
  ne_nil := by
    intro x hnil
    have hx := h x
    rw [hnil] at hx
    cases hx
  reflects := by
    rintro x y ⟨t, hxy⟩
    have hy := h y
    rw [← hxy] at hy
    by_cases ht : t = []
    · -- the two blocks are one
      subst ht
      rw [List.append_nil, h x] at hy
      cases hy
      exact List.prefix_refl _
    · exact (decode_append ht (h x) hy).1

/-! ## Blocks of literals -/

/-- The block that holds `x` as one run of literals. -/
def literalBlock (x : Bytes) : Bytes :=
  if x.length < 15 then UInt8.ofNat (16 * x.length) :: x
  else 240 :: (run (x.length - 15) ++ x)

theorem readSequence_literalBlock (x : Bytes) :
    readSequence (literalBlock x) = some (.last x) := by
  unfold literalBlock
  by_cases hx : x.length < 15
  · rw [if_pos hx]
    have htok : (UInt8.ofNat (16 * x.length)).toNat / 16 = x.length := by
      simp only [UInt8.toNat_ofNat']
      omega
    apply readSequence_last (n := x.length)
    · rw [htok, readLength, if_neg (by omega)]
    · rfl
  · rw [if_neg hx]
    apply readSequence_last (n := x.length)
    · have htok : (240 : UInt8).toNat / 16 = 15 := rfl
      rw [htok, readLength, if_pos rfl, readRun_run]
      simp only [Option.map_some, Option.some.injEq, Prod.mk.injEq, and_true]
      omega
    · rfl

theorem decode_literalBlock (x : Bytes) : decode (literalBlock x) = some x := by
  have hne : literalBlock x ≠ [] := by
    unfold literalBlock
    split <;> simp
  obtain ⟨n, hn⟩ : ∃ n, (literalBlock x).length = n + 1 :=
    ⟨_, (Nat.succ_pred (List.length_pos_iff.mpr hne).ne').symm⟩
  rw [decode, hn, decodeFrom, readSequence_literalBlock]
  simp

theorem length_literalBlock (x : Bytes) :
    (literalBlock x).length =
      if x.length < 15 then x.length + 1 else x.length + (x.length - 15) / 255 + 2 := by
  unfold literalBlock
  split
  · rw [List.length_cons]
  · rw [List.length_cons, List.length_append, length_run]
    omega

/-- The worst case of the format. -/
theorem length_literalBlock_le (x : Bytes) :
    (literalBlock x).length ≤ x.length + x.length / 255 + 16 := by
  rw [length_literalBlock]
  split <;> omega

end Lz4Block

import Mathlib.Tactic
import Mathlib.Data.List.Infix

/-! # Chunked streams

A list is cut into chunks of `k` elements, the last one possibly shorter, each
chunk is coded on its own, and the codes are concatenated with no length between
them.

* `stream`: the stream of a list, and how a loop over an index builds it
  (`stream_drop`);
* `stream_injective`: when a stream still determines the list. The code of a chunk
  has to be read front to back, so that a code which is a prefix of another one
  codes a prefix of the other's chunk;
* `length_stream_le`: how much longer than the list a stream can be.
-/

namespace Chunks

variable {α β : Type}

/-- Cut a list into chunks of `k` elements. -/
def chunks (k : Nat) (s : List α) : List (List α) :=
  if _h : k = 0 ∨ s = [] then [] else s.take k :: chunks k (s.drop k)
termination_by s.length
decreasing_by
  have hs : 0 < s.length := List.length_pos_iff.mpr (by tauto)
  simp only [List.length_drop]
  omega

@[simp] theorem chunks_nil (k : Nat) : chunks k ([] : List α) = [] := by
  rw [chunks]
  simp

theorem chunks_cons {k : Nat} (hk : 0 < k) {s : List α} (hs : s ≠ []) :
    chunks k s = s.take k :: chunks k (s.drop k) := by
  rw [chunks, dif_neg]
  rintro (h | h)
  · omega
  · exact hs h

/-- Induction along the chunks of a list. -/
theorem chunks_induction {k : Nat} (hk : 0 < k) {motive : List α → Prop}
    (nil : motive [])
    (cons : ∀ s, s ≠ [] → motive (s.drop k) → motive s) : ∀ s, motive s := by
  intro s
  induction hn : s.length using Nat.strong_induction_on generalizing s with
  | _ n ih =>
      by_cases hs : s = []
      · rw [hs]
        exact nil
      · have hpos : 0 < s.length := List.length_pos_iff.mpr hs
        exact cons s hs (ih (s.drop k).length (by rw [List.length_drop]; omega) _ rfl)

/-- There are as many chunks as the length needs. -/
theorem length_chunks {k : Nat} (hk : 0 < k) (s : List α) :
    (chunks k s).length = (s.length + (k - 1)) / k := by
  induction s using chunks_induction hk with
  | nil =>
      have h0 : (0 + (k - 1)) / k = 0 := Nat.div_eq_of_lt (by omega)
      simpa using h0.symm
  | cons s hs ih =>
      have hpos : 0 < s.length := List.length_pos_iff.mpr hs
      rw [chunks_cons hk hs, List.length_cons, ih, List.length_drop]
      by_cases hle : s.length ≤ k
      · -- this chunk is the last one
        have h1 : (s.length - k + (k - 1)) / k = 0 := Nat.div_eq_of_lt (by omega)
        have h2 : (s.length + (k - 1)) / k = 1 :=
          Nat.div_eq_of_lt_le (by omega) (by omega)
        rw [h1, h2]
      · -- a full chunk takes `k` off the length
        have hsum : s.length + (k - 1) = s.length - k + (k - 1) + k := by omega
        rw [hsum, Nat.add_div_right _ hk]

/-! ## Streams -/

/-- The codes of the chunks of a list, concatenated. -/
def stream (enc : List α → List β) (k : Nat) (s : List α) : List β :=
  (chunks k s).flatMap enc

section Stream

variable (enc : List α → List β)

@[simp] theorem stream_nil (k : Nat) : stream enc k [] = [] := by
  rw [stream, chunks_nil, List.flatMap_nil]

theorem stream_cons {k : Nat} (hk : 0 < k) {s : List α} (hs : s ≠ []) :
    stream enc k s = enc (s.take k) ++ stream enc k (s.drop k) := by
  rw [stream, chunks_cons hk hs, List.flatMap_cons, stream]

/-- Up to one chunk the stream is one code. -/
theorem stream_of_length_le {k : Nat} {s : List α} (hs : s ≠ []) (hle : s.length ≤ k) :
    stream enc k s = enc s := by
  have hk : 0 < k := lt_of_lt_of_le (List.length_pos_iff.mpr hs) hle
  rw [stream_cons enc hk hs, List.take_of_length_le hle, List.drop_eq_nil_of_le hle, stream_nil,
    List.append_nil]

/-- Past one chunk the stream is the code of a full chunk with others behind it. -/
theorem stream_of_lt_length (hne : ∀ x, enc x ≠ []) {k : Nat} (hk : 0 < k) {s : List α}
    (hlt : k < s.length) : ∃ t, t ≠ [] ∧ stream enc k s = enc (s.take k) ++ t := by
  have hs : s ≠ [] := by
    rintro rfl
    simp at hlt
  have hdrop : s.drop k ≠ [] := by
    intro h
    have := List.drop_eq_nil_iff.mp h
    omega
  refine ⟨stream enc k (s.drop k), ?_, stream_cons enc hk hs⟩
  -- the next chunk has a code, and no code is empty
  rw [stream_cons enc hk hdrop]
  intro hnil
  exact hne _ (List.append_eq_nil_iff.mp hnil).1

/-- The part of a list of length `n` that starts at `i`. -/
def slice (s : List α) (i n : Nat) : List α := (s.drop i).take n

/-- Slices of one length, one behind the other, are the list up to the end of the
last one. -/
theorem flatten_slices (s : List α) (k n : Nat) :
    ((List.range n).map fun i => slice s (i * k) k).flatten = s.take (n * k) := by
  induction n with
  | zero => simp
  | succ n ih =>
      rw [List.range_succ, List.map_append, List.flatten_append, ih, Nat.succ_mul, List.take_add]
      simp [slice]

/-- The stream from index `i` on: the next chunk is the slice at `i`, cut short at
the end of the list. -/
theorem stream_drop {k : Nat} (hk : 0 < k) {s : List α} {i : Nat} (hi : i < s.length) :
    stream enc k (s.drop i) =
      enc (slice s i (min k (s.length - i))) ++ stream enc k (s.drop (i + k)) := by
  have hne : s.drop i ≠ [] := by
    intro h
    have := List.drop_eq_nil_iff.mp h
    omega
  have hslice : slice s i (min k (s.length - i)) = (s.drop i).take k := by
    unfold slice
    rw [← List.length_drop, List.take_eq_take_iff]
    omega
  rw [stream_cons enc hk hne, hslice, List.drop_drop]

end Stream

/-! ## Codes that are read front to back -/

/-- A code whose words are not empty and are read front to back: a word that is
a prefix of another one codes a prefix of the other's text. -/
structure StreamCode (enc : List α → List β) : Prop where
  ne_nil : ∀ x, enc x ≠ []
  reflects : ∀ x y, enc x <+: enc y → x <+: y

theorem prefix_antisymm {x y : List α} (hxy : x <+: y) (hyx : y <+: x) : x = y :=
  hxy.eq_of_length_le hyx.length_le

/-- Two streams that agree start with the same chunk, when the first word of the
one is a prefix of the first word of the other. A chunk which is not full is the
last one of its stream, so that its word is the whole stream. -/
theorem head_chunk_eq {enc : List α → List β} (h : StreamCode enc) {k : Nat} {s t : List α}
    (heq : enc (s.take k) ++ stream enc k (s.drop k) =
      enc (t.take k) ++ stream enc k (t.drop k))
    (hpre : enc (s.take k) <+: enc (t.take k)) : s.take k = t.take k := by
  have hst : s.take k <+: t.take k := h.reflects _ _ hpre
  by_cases hfull : k ≤ s.length
  · -- a full chunk is as long as any chunk
    apply hst.eq_of_length_le
    rw [List.length_take, List.length_take]
    omega
  · -- a shorter one ends its stream, so that the other word is a prefix of its word
    have hdrop : s.drop k = [] := List.drop_eq_nil_of_le (by omega)
    rw [hdrop, stream_nil, List.append_nil] at heq
    have hts : enc (t.take k) <+: enc (s.take k) := ⟨stream enc k (t.drop k), heq.symm⟩
    exact prefix_antisymm hst (h.reflects _ _ hts)

/-- **Unique decodability.** A stream of chunk codes without delimiters
determines the list, whatever the numbers and sizes of the chunks. -/
theorem stream_injective {enc : List α → List β} (h : StreamCode enc) {k : Nat} (hk : 0 < k) :
    Function.Injective (stream enc k) := by
  intro s
  induction s using chunks_induction hk with
  | nil =>
      intro t heq
      by_contra hne
      have ht : t ≠ [] := fun hnil => hne hnil.symm
      rw [stream_nil, stream_cons enc hk ht] at heq
      exact h.ne_nil _ (List.append_eq_nil_iff.mp heq.symm).1
  | cons s hs ih =>
      intro t heq
      have ht : t ≠ [] := by
        rintro rfl
        rw [stream_nil, stream_cons enc hk hs] at heq
        exact h.ne_nil _ (List.append_eq_nil_iff.mp heq).1
      rw [stream_cons enc hk hs, stream_cons enc hk ht] at heq
      have hhead : s.take k = t.take k := by
        have hs1 : enc (s.take k) <+: enc (t.take k) ++ stream enc k (t.drop k) := ⟨_, heq⟩
        -- one of the two first words is a prefix of the other
        rcases List.prefix_or_prefix_of_prefix hs1 (List.prefix_append _ _) with hpre | hpre
        · exact head_chunk_eq h heq hpre
        · exact (head_chunk_eq h heq.symm hpre).symm
      -- what is left of the two streams agrees as well
      have hdrop : s.drop k = t.drop k := by
        apply ih
        rw [hhead] at heq
        exact List.append_cancel_left heq
      rw [← List.take_append_drop k s, ← List.take_append_drop k t, hhead, hdrop]

/-! ## Size -/

/-- If coding a chunk adds at most one part in `d` and `c` elements, the stream adds
at most one part in `d` and `c` elements for each chunk. -/
theorem length_stream_le {enc : List α → List β} {c d k : Nat} (hk : 0 < k)
    (henc : ∀ x, (enc x).length ≤ x.length + x.length / d + c) (s : List α) :
    (stream enc k s).length ≤
      s.length + s.length / d + c * ((s.length + (k - 1)) / k) := by
  rw [← length_chunks hk]
  induction s using chunks_induction hk with
  | nil => simp
  | cons s hs ih =>
      have hhead := henc (s.take k)
      have hlen : (s.take k).length + (s.drop k).length = s.length := by
        rw [← List.length_append, List.take_append_drop]
      -- the parts of the two pieces make at most the part of the whole
      have hdiv : (s.take k).length / d + (s.drop k).length / d ≤ s.length / d := by
        rw [← hlen]
        exact Nat.div_add_div_le_add_div
      rw [stream_cons enc hk hs, chunks_cons hk hs, List.length_append, List.length_cons,
        Nat.mul_succ]
      omega

end Chunks

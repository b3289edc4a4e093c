import TonEncoder.Codec.Process

/-! # Partial codecs

A codec whose encoder need not accept every value, and whose decoder gives back
what was encoded.

* `comp` stacks codecs, and `recode` reads one code of a value and writes another;
* `recode_round`: recoding there and back is the identity;
* `Computes`: a program that does what a partial function says, where it says
  something. Two programs that recode there and back bring a code back
  (`round_of_computes`).
-/

/-- An encoder and a decoder that undoes it. -/
structure PartialCodec (α β : Type*) where
  encode : α → Option β
  decode : β → Option α
  decode_encode : ∀ {a b}, encode a = some b → decode b = some a

namespace PartialCodec

variable {α β γ : Type*}

/-! ## Stacking -/

/-- A codec behind another. -/
def comp (c : PartialCodec α β) (d : PartialCodec β γ) : PartialCodec α γ where
  encode a := (c.encode a).bind d.encode
  decode z := (d.decode z).bind c.decode
  decode_encode := by
    intro a z h
    rw [Option.bind_eq_some_iff] at h ⊢
    rcases h with ⟨b, hb, hz⟩
    exact ⟨b, d.decode_encode hz, c.decode_encode hb⟩

theorem comp_encode_eq_some_iff {c : PartialCodec α β} {d : PartialCodec β γ} {a : α} {z : γ} :
    (c.comp d).encode a = some z ↔ ∃ b, c.encode a = some b ∧ d.encode b = some z :=
  Option.bind_eq_some_iff

theorem comp_decode_eq_some_iff {c : PartialCodec α β} {d : PartialCodec β γ} {z : γ} {a : α} :
    (c.comp d).decode z = some a ↔ ∃ b, d.decode z = some b ∧ c.decode b = some a :=
  Option.bind_eq_some_iff

/-! ## Recoding -/

/-- Read a code and write another one of the same value. -/
def recode (c : PartialCodec α β) (d : PartialCodec α γ) (b : β) : Option γ :=
  (c.decode b).bind d.encode

theorem recode_eq_some_iff {c : PartialCodec α β} {d : PartialCodec α γ} {b : β} {z : γ} :
    c.recode d b = some z ↔ ∃ a, c.decode b = some a ∧ d.encode a = some z :=
  Option.bind_eq_some_iff

theorem recode_of_encode {c : PartialCodec α β} (d : PartialCodec α γ) {a : α} {b : β}
    (h : c.encode a = some b) : c.recode d b = d.encode a := by
  rw [recode, c.decode_encode h, Option.bind_some]

/-- **Recoding there and back** gives the code that one started from. -/
theorem recode_round {c : PartialCodec α β} {d : PartialCodec α γ} {a : α} {b : β} {z : γ}
    (h : c.encode a = some b) (hz : c.recode d b = some z) : d.recode c z = some b := by
  rw [recode_of_encode d h] at hz
  rw [recode_of_encode c hz, h]

/-! ## Programs that recode -/

section Programs

open Process

variable {α β γ : Type}

/-- A program returns what a partial function gives, and leaves the console as it
is. -/
def Computes (call : β → Proc γ) (f : β → Option γ) : Prop :=
  ∀ b z, f b = some z → ∀ con, call b con = (.returned z, con)

/-- Programs that recode there and back bring a code back. -/
theorem round_of_computes {c : PartialCodec α β} {d : PartialCodec α γ} {forth : β → Proc γ}
    {back : γ → Proc β} (hforth : Computes forth (c.recode d)) (hback : Computes back (d.recode c))
    {a : α} {b : β} {z : γ} (hb : c.encode a = some b) (hz : d.encode a = some z)
    (con : Console) : forth b con = (.returned z, con) ∧ back z con = (.returned b, con) := by
  have hrecode : c.recode d b = some z := by
    rw [recode_of_encode d hb, hz]
  constructor
  · exact hforth b z hrecode con
  · exact hback z b (recode_round hb hrecode) con

end Programs

end PartialCodec

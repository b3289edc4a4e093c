import Mathlib.Tactic

/-! # Reflected 32-bit checksums

A checksum is a fold of the bytes over a register that starts with all bits set
and is complemented at the end. The complement is undone before the fold goes
on, so a checksum is extended without reading the first bytes again
(`extend_crc`).
-/

namespace Crc

/-- One bit leaves the register. -/
def shiftBit (poly reg : UInt32) : UInt32 :=
  if reg &&& 1 == 1 then (reg >>> 1) ^^^ poly else reg >>> 1

/-- One byte enters the register. -/
def shiftByte (poly reg : UInt32) (b : UInt8) : UInt32 :=
  (shiftBit poly)^[8] (reg ^^^ b.toUInt32)

/-- The checksum of the bytes that the checksum `old` covers, followed by `bs`. -/
def extend (poly old : UInt32) (bs : List UInt8) : UInt32 :=
  ~~~(bs.foldl (shiftByte poly) (~~~old))

/-- The checksum of `bs`. -/
def crc (poly : UInt32) (bs : List UInt8) : UInt32 := extend poly 0 bs

theorem extend_extend (poly old : UInt32) (as bs : List UInt8) :
    extend poly (extend poly old as) bs = extend poly old (as ++ bs) := by
  simp [extend]

theorem extend_crc (poly : UInt32) (as bs : List UInt8) :
    extend poly (crc poly as) bs = crc poly (as ++ bs) :=
  extend_extend poly 0 as bs

end Crc

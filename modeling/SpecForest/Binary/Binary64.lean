import SpecForest.Binary.Format

/-!
# Words of 64 and 32 bits as numbers

`Binary64` and `Binary32` hold the bits of a number. Comparison follows the arithmetic and not the
bits: the two zeros are equal, and what is no number equals nothing.
-/

namespace SpecForest

/-- A floating-point number of 64 bits. -/
structure Binary64 where
  bits : UInt64
  deriving DecidableEq, Inhabited

/-- A floating-point number of 32 bits. -/
structure Binary32 where
  bits : UInt32
  deriving DecidableEq, Inhabited

namespace Binary64
open Binary

/-- The number with a sign and a code. -/
def ofParts (negative : Bool) (code : Nat) : Binary64 :=
  ⟨((if negative then 0x8000000000000000 else 0) + code).toUInt64⟩

/-- Whether the sign bit is set. -/
def negative (x : Binary64) : Bool :=
  0x8000000000000000 ≤ x.bits.toNat

/-- The bits below the sign. -/
def code (x : Binary64) : Nat :=
  x.bits.toNat % 0x8000000000000000

/-- The word that stands for what is no number. -/
def nan : Binary64 :=
  ofParts false Format.double.quietCode

/-- Whether a word is no number. -/
def isNaN (x : Binary64) : Bool :=
  Format.double.infinityCode < x.code

/-- Whether a word is one of the two infinities. -/
def isInfinite (x : Binary64) : Bool :=
  x.code == Format.double.infinityCode

/-- Equality of numbers. -/
def equal (x y : Binary64) : Bool :=
  !x.isNaN && !y.isNaN && (x.bits == y.bits || (x.code == 0 && y.code == 0))

/-- The number with the other sign. -/
def neg (x : Binary64) : Binary64 :=
  ofParts (!x.negative) x.code

/-- The number nearest to an integer. -/
def ofInt (n : Int) : Binary64 :=
  ofParts (n < 0) (Format.double.nearest n.natAbs 1)

end Binary64

namespace Binary32
open Binary

/-- The number with a sign and a code. -/
def ofParts (negative : Bool) (code : Nat) : Binary32 :=
  ⟨((if negative then 0x80000000 else 0) + code).toUInt32⟩

/-- Whether the sign bit is set. -/
def negative (x : Binary32) : Bool :=
  0x80000000 ≤ x.bits.toNat

/-- The bits below the sign. -/
def code (x : Binary32) : Nat :=
  x.bits.toNat % 0x80000000

/-- The word that stands for what is no number. -/
def nan : Binary32 :=
  ofParts false Format.single.quietCode

/-- Whether a word is no number. -/
def isNaN (x : Binary32) : Bool :=
  Format.single.infinityCode < x.code

end Binary32

/-- A code of one format as a code of another: the nearest number, and infinity and what is no
number unchanged. -/
def Binary.convertCode (source target : Binary.Format) (code : Nat) : Nat :=
  if source.infinityCode < code then target.quietCode
  else if code = source.infinityCode then target.infinityCode
  else
    let (m, q) := source.decode code
    let (n, d) := Binary.ratioOf m q
    target.nearest n d

/-- The number of 32 bits nearest to `x`. -/
def Binary64.toBinary32 (x : Binary64) : Binary32 :=
  .ofParts x.negative (Binary.convertCode .double .single x.code)

/-- The same number with 64 bits. -/
def Binary32.toBinary64 (x : Binary32) : Binary64 :=
  .ofParts x.negative (Binary.convertCode .single .double x.code)

end SpecForest

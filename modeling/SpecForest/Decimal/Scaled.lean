/-!
# Decimal numbers

A decimal is a coefficient times a power of ten. `positional` writes it out in full, without an
exponent and without a point where no digit follows it.
-/

namespace SpecForest.Decimal

/-- The number `coefficient * 10 ^ exponent`. -/
structure Scaled where
  coefficient : Nat
  exponent : Int
  deriving DecidableEq

/-- The digits of a natural number in base ten. -/
def digits (n : Nat) : List Char :=
  Nat.toDigits 10 n

/-- Written out in full. A number below one starts with `0.`. -/
def Scaled.positional (x : Scaled) : List Char :=
  let ds := digits x.coefficient
  let places := (-x.exponent).toNat
  if 0 ≤ x.exponent then
    if x.coefficient = 0 then ds else ds ++ List.replicate x.exponent.toNat '0'
  else
    let padded := List.replicate (places + 1 - ds.length) '0' ++ ds
    let whole := padded.length - places
    padded.take whole ++ '.' :: padded.drop whole

end SpecForest.Decimal

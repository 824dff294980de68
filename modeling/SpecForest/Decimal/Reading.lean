import SpecForest.Binary.Binary64
import SpecForest.Decimal.Scaled

/-!
# Reading decimals

A decimal is digits with at most one point among, before or after them, and then perhaps an exponent:
`12`, `1.`, `.5`, `1.5e-7`. At least one digit stands beside the point and at least one in the exponent.
-/

namespace SpecForest.Decimal
open Binary

/-- The number that a list of digits stands for. -/
def ofDigits (ds : List Char) : Nat :=
  ds.foldl (fun n c => 10 * n + (c.toNat - '0'.toNat)) 0

/-- An exponent: nothing, or a mark, perhaps a sign, and digits up to the end. -/
def readExponent? : List Char → Option Int
  | [] => some 0
  | mark :: rest =>
    if mark == 'e' || mark == 'E' then
      let (negative, ds) := match rest with
        | '-' :: ds => (true, ds)
        | '+' :: ds => (false, ds)
        | ds => (false, ds)
      if ds.isEmpty || !ds.all Char.isDigit then none
      else some (if negative then -(ofDigits ds : Int) else ofDigits ds)
    else none

/-- The decimal that a text stands for. -/
def read? (cs : List Char) : Option Scaled :=
  let whole := cs.takeWhile Char.isDigit
  let (fraction, rest) := match cs.dropWhile Char.isDigit with
    | '.' :: rest => (rest.takeWhile Char.isDigit, rest.dropWhile Char.isDigit)
    | rest => ([], rest)
  if whole.isEmpty && fraction.isEmpty then none
  else (readExponent? rest).map fun e =>
    ⟨ofDigits (whole ++ fraction), e - fraction.length⟩

end SpecForest.Decimal

namespace SpecForest.Binary64
open Binary

/-- The number nearest to a decimal. Decimals beyond the range are settled by their size, before any
power of ten is formed: `1e310` is above every number and `1e-324` below half of the least. -/
def ofScaled (x : Decimal.Scaled) : Binary64 :=
  let size := (Decimal.digits x.coefficient).length
  if x.coefficient = 0 then .ofParts false 0
  else if 310 < x.exponent then .ofParts false Format.double.infinityCode
  else if x.exponent + size < -324 then .ofParts false 0
  else .ofParts false
    (Format.double.nearest (x.coefficient * Nat.pow 10 x.exponent.toNat)
      (Nat.pow 10 (-x.exponent).toNat))

/-- The number that a decimal text stands for. -/
def read? (cs : List Char) : Option Binary64 :=
  (Decimal.read? cs).map ofScaled

end SpecForest.Binary64

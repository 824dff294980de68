/-!
# Binary floating-point formats

A format is fixed by the number of digits of its significand and the width of its exponent.
A number without its sign is a *code*: the exponent field followed by the fraction field, read as
one natural number. Codes are ordered as the numbers they stand for, so rounding can carry from
the fraction into the exponent, and every code above that of infinity is no number.

All arithmetic is exact, on natural numbers and quotients of them.
-/

namespace SpecForest.Binary

/-- The nearest natural number to `n / d`, a half going to the even neighbour. -/
def roundHalfEven (n d : Nat) : Nat :=
  let q := n / d
  let r := n % d
  if d < 2 * r || (d == 2 * r && q % 2 == 1) then q + 1 else q

/-- A number of digits of the significand and a width of the exponent field. -/
structure Format where
  precision : Nat
  exponentWidth : Nat

/-- The format with 64 bits. -/
def Format.double : Format := ⟨53, 11⟩

/-- The format with 32 bits. -/
def Format.single : Format := ⟨24, 8⟩

namespace Format

variable (f : Format)

/-- One more than the largest fraction field. -/
def fractionCount : Nat :=
  Nat.pow 2 (f.precision - 1)

/-- The code of infinity: the exponent field is all ones and the fraction is zero. -/
def infinityCode : Nat :=
  (Nat.pow 2 f.exponentWidth - 1) * f.fractionCount

/-- The code of the number that stands for every result without a value. -/
def quietCode : Nat :=
  f.infinityCode + f.fractionCount / 2

/-- The exponent of the last place of the smallest numbers. -/
def leastExponent : Int :=
  3 - (Nat.pow 2 (f.exponentWidth - 1) : Int) - f.precision

/-- The significand `m` and the exponent `q` of a finite code, whose number is `m * 2 ^ q`. -/
def decode (code : Nat) : Nat × Int :=
  let field := code / f.fractionCount
  let fraction := code % f.fractionCount
  if field = 0 then (fraction, f.leastExponent)
  else (f.fractionCount + fraction, f.leastExponent + (field - 1 : Nat))

/-- The exponent of the last place of the number nearest to `n / d`. -/
def lastPlace (n d : Nat) : Int :=
  let guess : Int := (n.log2 : Int) - d.log2 - (f.precision - 1 : Nat)
  let small : Bool := n * Nat.pow 2 (-guess).toNat < f.fractionCount * d * Nat.pow 2 guess.toNat
  max (if small then guess - 1 else guess) f.leastExponent

/-- The code of the number nearest to `n / d`, a half going to the even neighbour. A number that
is too large becomes infinity. -/
def nearest (n d : Nat) : Nat :=
  if n = 0 then 0
  else
    let e := f.lastPlace n d
    let significand := roundHalfEven (n * Nat.pow 2 (-e).toNat) (d * Nat.pow 2 e.toNat)
    min ((e - f.leastExponent).toNat * f.fractionCount + significand) f.infinityCode

end Format

/-- The quotient `n / d` equal to `m * 2 ^ q`. -/
def ratioOf (m : Nat) (q : Int) : Nat × Nat :=
  (m * Nat.pow 2 q.toNat, Nat.pow 2 (-q).toNat)

end SpecForest.Binary

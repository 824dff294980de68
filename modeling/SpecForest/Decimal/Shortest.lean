import SpecForest.Binary.Binary64
import SpecForest.Decimal.Scaled

/-!
# Shortest decimals

The decimal with the fewest digits that still reads back as a given floating-point number. The
numbers that round to `m * 2 ^ q` form an interval around it, which holds its ends exactly when `m` is
even. Among the multiples of a power of ten only the two neighbours of the number need a look: if any
multiple lies in the interval, one of these does. The largest power with a hit gives the fewest
digits; of two hits the nearer one is taken, and of two equally near the larger.
-/

namespace SpecForest.Decimal
open Binary

/-- The numbers that round to `value / scale`: from `low / scale` to `high / scale`, with the ends if
`closed`. -/
structure Interval where
  low : Nat
  value : Nat
  high : Nat
  scale : Nat
  closed : Bool

/-- The interval of a finite number of 64 bits other than zero. Below a power of two the next number
is half as far away as above it. -/
def Interval.ofCode (code : Nat) : Interval :=
  let (m, q) := Format.double.decode code
  let (unit, scale) := ratioOf 1 (q - 2)
  let narrow := m == Format.double.fractionCount && Format.double.leastExponent < q
  { low := (4 * m - if narrow then 1 else 2) * unit
    value := 4 * m * unit
    high := (4 * m + 2) * unit
    scale := scale
    closed := m % 2 == 0 }

/-- The multiple of `10 ^ k` in the interval that is nearest to the value. -/
def Interval.hit (i : Interval) (k : Int) : Option Nat :=
  -- One unit of the interval is `10 ^ k / grain` of the multiples' distance.
  let step := i.scale * Nat.pow 10 k.toNat
  let grain := Nat.pow 10 (-k).toNat
  let value := i.value * grain
  let below := value / step
  let reachesDown := if i.closed then i.low * grain ≤ below * step else i.low * grain < below * step
  let above := (below + 1) * step
  let reachesUp := if i.closed then above ≤ i.high * grain else above < i.high * grain
  if reachesUp && (!reachesDown || step ≤ 2 * (value % step)) then some (below + 1)
  else if reachesDown then some below
  else none

/-- A power of ten above the value. -/
def Interval.firstPower (i : Interval) : Int :=
  ((i.value.log2 : Int) + 1 - i.scale.log2) * 30103 / 100000 + 2

/-- The shortest decimal in the interval. Seventeen digits always suffice, so the powers tried are
enough; were there no hit among them, the exact value would be the answer. -/
def Interval.shortest (i : Interval) : Scaled :=
  let found := (List.range 24).findSome? fun (j : Nat) =>
    let k := i.firstPower - (j : Int)
    (i.hit k).map fun c => (⟨c, k⟩ : Scaled)
  found.getD ⟨i.value * Nat.pow 5 i.scale.log2, -(i.scale.log2 : Int)⟩

end SpecForest.Decimal

/-- A number as text: all digits that are needed to tell it from its neighbours and no more, never
an exponent. -/
def SpecForest.Binary64.text (x : Binary64) : String :=
  let sign := if x.negative then "-" else ""
  if x.isNaN then "NaN"
  else if x.isInfinite then sign ++ "inf"
  else if x.code = 0 then sign ++ "0"
  else sign ++ String.ofList (Decimal.Interval.ofCode x.code).shortest.positional

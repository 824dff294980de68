import SpecForest.Text.CodePoints

/-!
# Blanks

The Unicode property *White_Space*, which separates the tokens of scanned source.
-/

namespace SpecForest.Text

/-- The code points with the property White_Space, in increasing order. -/
def blankRanges : List (Nat × Nat) := [
  (0x9, 0xD), (0x20, 0x20), (0x85, 0x85), (0xA0, 0xA0), (0x1680, 0x1680),
  (0x2000, 0x200A), (0x2028, 0x2029), (0x202F, 0x202F), (0x205F, 0x205F), (0x3000, 0x3000)]

/-- A blank: a space, a tabulator, a line break or one of their kin. -/
def isBlank (c : Char) : Bool :=
  inRanges blankRanges c.toNat

end SpecForest.Text

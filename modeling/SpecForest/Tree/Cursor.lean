import SpecForest.Tree.Node

/-!
# Visiting leaves one at a time

A cursor holds the nodes still to be visited, level by level, the innermost level first. Each call of
`next` goes on to the next leaf, however many empty containers lie between.
-/

namespace SpecForest

/-- The nodes still to be visited, innermost level first. -/
structure LeafCursor where
  levels : List Forest

namespace LeafCursor

/-- The cursor before the first leaf of a forest. -/
def start (f : Forest) : LeafCursor := ⟨[f]⟩

mutual

/-- The number of nodes at or below a node. -/
def nodeSize : Node → Nat
  | .container _ children => 1 + forestSize children
  | .leaf _ _ _ => 1

/-- The number of nodes of a forest, and one for the forest itself. -/
def forestSize : List Node → Nat
  | [] => 1
  | n :: rest => nodeSize n + forestSize rest

end

/-- The steps that are left at most. -/
def size : List Forest → Nat
  | [] => 0
  | f :: rest => forestSize f + size rest

/-- The next leaf, and the cursor behind it. -/
def nextOf (levels : List Forest) : Option (Leaf × List Forest) :=
  match levels with
  | [] => none
  | [] :: outer => nextOf outer
  | (.leaf head body arguments :: rest) :: outer => some (⟨head, body, arguments⟩, rest :: outer)
  | (.container _ children :: rest) :: outer => nextOf (children :: rest :: outer)
termination_by size levels
decreasing_by all_goals simp [size, forestSize, nodeSize] <;> omega

/-- The next leaf, and the cursor behind it, or nothing when all leaves have been visited. -/
def next (c : LeafCursor) : Option (Leaf × LeafCursor) :=
  (nextOf c.levels).map fun (leaf, levels) => (leaf, ⟨levels⟩)

/-- The results of a number of calls of `next`. -/
def take (c : LeafCursor) : Nat → List (Option Leaf)
  | 0 => []
  | n + 1 =>
    match c.next with
    | none => none :: c.take n
    | some (leaf, c') => some leaf :: c'.take n

end LeafCursor

end SpecForest

import SpecForest.Tree.Cursor

/-!
# The leaves that a cursor still has to visit

Whatever levels a cursor holds, the leaves ahead of it are the leaves of those levels, innermost level
first. One call of `next` takes exactly the first of them off, so calling it until nothing comes lists the
leaves of a forest from left to right.
-/

namespace SpecForest

namespace Node

theorem forestLeaves_append (f g : List Node) :
    forestLeaves (f ++ g) = forestLeaves f ++ forestLeaves g := by
  induction f with
  | nil => rfl
  | cons n rest ih => simp only [List.cons_append, forestLeaves, ih, List.append_assoc]

end Node

namespace LeafCursor

/-- The leaves ahead of a cursor with these levels. -/
def ahead : List Forest → List Leaf
  | [] => []
  | f :: outer => f.leaves ++ ahead outer

/-- What the next call does, whatever levels there are: it ends the visit when no leaf is ahead, and
otherwise it takes off the first leaf and leaves fewer nodes to visit. -/
theorem nextOf_cases (levels : List Forest) :
    (nextOf levels = none ∧ ahead levels = []) ∨
      ∃ leaf rest, nextOf levels = some (leaf, rest) ∧ ahead levels = leaf :: ahead rest ∧
        size rest < size levels := by
  fun_induction nextOf levels with
  | case1 => exact .inl ⟨rfl, rfl⟩
  | case2 outer ih =>
    rcases ih with ⟨hn, ha⟩ | ⟨leaf, rest, hn, ha, hs⟩
    · exact .inl ⟨hn, by simpa [ahead, Forest.leaves, Node.forestLeaves] using ha⟩
    · refine .inr ⟨leaf, rest, hn, by simpa [ahead, Forest.leaves, Node.forestLeaves] using ha, ?_⟩
      simp only [size, forestSize]
      omega
  | case3 head body arguments rest outer =>
    refine .inr ⟨_, _, rfl, by simp [ahead, Forest.leaves, Node.forestLeaves, Node.leaves], ?_⟩
    simp only [size, forestSize, nodeSize]
    omega
  | case4 head children rest outer ih =>
    -- going into a container changes no leaf ahead, and takes one node off
    have hahead : ahead ((.container head children :: rest) :: outer) =
        ahead (children :: rest :: outer) := by
      simp [ahead, Forest.leaves, Node.forestLeaves, Node.leaves]
    rw [hahead]
    rcases ih with ⟨hn, ha⟩ | ⟨leaf, levels, hn, ha, hs⟩
    · exact .inl ⟨hn, ha⟩
    · refine .inr ⟨leaf, levels, hn, ha, ?_⟩
      simp only [size, forestSize, nodeSize] at hs ⊢
      omega

theorem size_next {c c' : LeafCursor} {leaf : Leaf} (h : c.next = some (leaf, c')) :
    size c'.levels < size c.levels := by
  rcases nextOf_cases c.levels with ⟨hn, -⟩ | ⟨l, rest, hn, -, hs⟩
  · simp [next, hn] at h
  · simp only [next, hn, Option.map_some, Option.some.injEq, Prod.mk.injEq] at h
    obtain ⟨-, rfl⟩ := h
    exact hs

/-- All leaves that come out of a cursor, one call of `next` after the other. -/
def drain (c : LeafCursor) : List Leaf :=
  match h : c.next with
  | none => []
  | some (leaf, c') =>
    have := size_next h
    leaf :: c'.drain
termination_by size c.levels

theorem drain_eq_ahead (c : LeafCursor) : c.drain = ahead c.levels := by
  fun_induction drain c with
  | case1 c h =>
    rcases nextOf_cases c.levels with ⟨-, ha⟩ | ⟨leaf, rest, hn, -, -⟩
    · exact ha.symm
    · simp [next, hn] at h
  | case2 c leaf c' h _ ih =>
    rcases nextOf_cases c.levels with ⟨hn, -⟩ | ⟨l, rest, hn, ha, -⟩
    · simp [next, hn] at h
    · simp only [next, hn, Option.map_some, Option.some.injEq, Prod.mk.injEq] at h
      obtain ⟨rfl, rfl⟩ := h
      rw [ih, ha]

theorem drain_start (f : Forest) : (start f).drain = f.leaves := by
  rw [drain_eq_ahead]
  simp [start, ahead]

end LeafCursor

end SpecForest

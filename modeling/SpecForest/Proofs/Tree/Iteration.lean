import SpecForest.Proofs.Tree.Cursor
import SpecForest.Tree.Resolved

/-!
# Calling a cursor again and again

A call of `next` is a loop: each turn of it takes one node off the innermost level, or leaves a level that has no
node left, or goes into a container. Whatever levels there are, a turn that does not end the call leaves fewer nodes
to visit, so every call ends. After any number of calls the leaves ahead are those of the forest from left to right,
without as many as there were calls.
-/

namespace SpecForest

namespace Node

mutual

theorem length_leaves : ∀ n : Node, n.leaves.length = n.leafCount
  | .container head children => by
    rw [leaves, leafCount, length_forestLeaves children]
  | .leaf head body arguments => by
    rw [leaves, leafCount, List.length_singleton]

/-- A forest has as many leaves as are counted. -/
theorem length_forestLeaves : ∀ f : List Node, (forestLeaves f).length = forestLeafCount f
  | [] => rfl
  | n :: rest => by
    rw [forestLeaves, forestLeafCount, List.length_append, length_leaves n, length_forestLeaves rest]

end

mutual

theorem leafCount_resolve (separator : String) (above : List String) :
    ∀ n : Node, (n.resolve separator above).leafCount = n.leafCount
  | .container head children => by
    rw [resolve, leafCount, leafCount, forestLeafCount_resolveForest separator (above ++ [head.label]) children]
  | .leaf head body arguments => by
    rw [resolve, leafCount, leafCount]

/-- Resolving neither adds leaves nor takes any away. -/
theorem forestLeafCount_resolveForest (separator : String) (above : List String) :
    ∀ f : List Node, forestLeafCount (resolveForest separator above f) = forestLeafCount f
  | [] => rfl
  | n :: rest => by
    rw [resolveForest, forestLeafCount, forestLeafCount, leafCount_resolve separator above n,
      forestLeafCount_resolveForest separator above rest]

end

end Node

namespace LeafCursor

/-! ## One call, turn by turn -/

/-- What one turn of the loop comes to. -/
inductive Turn
  /-- There is no level left, and the call returns nothing. -/
  | ends
  | yields (leaf : Leaf) (levels : List Forest)
  | goesOn (levels : List Forest)

/-- One turn of the loop, on the innermost level. -/
def turn : List Forest → Turn
  | [] => .ends
  | [] :: outer => .goesOn outer
  | (.leaf head body arguments :: rest) :: outer => .yields ⟨head, body, arguments⟩ (rest :: outer)
  | (.container _ children :: rest) :: outer => .goesOn (children :: rest :: outer)

/-- A call that is given up after a number of turns: what it returns, and the levels that it leaves. -/
def callWithin : (turns : Nat) → List Forest → Option (Option Leaf × List Forest)
  | 0, _ => none
  | turns + 1, levels =>
    match turn levels with
    | .ends => some (none, [])
    | .yields leaf rest => some (some leaf, rest)
    | .goesOn levels => callWithin turns levels

/-- A call: what it returns, and the cursor that it leaves. No level is left of a cursor that returns nothing. -/
def call (c : LeafCursor) : Option Leaf × LeafCursor :=
  match c.next with
  | none => (none, ⟨[]⟩)
  | some (leaf, c') => (some leaf, c')

/-- What a turn can do. It ends the call if no level is left. It returns the leaf that comes next. Or it changes nothing
about the leaf that comes next, and leaves fewer nodes to visit. -/
theorem turn_cases (levels : List Forest) :
    (turn levels = .ends ∧ nextOf levels = none) ∨
      (∃ leaf rest, turn levels = .yields leaf rest ∧ nextOf levels = some (leaf, rest)) ∨
      ∃ rest, turn levels = .goesOn rest ∧ nextOf levels = nextOf rest ∧ size rest < size levels := by
  match levels with
  | [] => exact .inl ⟨rfl, by rw [nextOf]⟩
  | (.leaf head body arguments :: rest) :: outer => exact .inr (.inl ⟨_, _, rfl, by rw [nextOf]⟩)
  | [] :: outer =>
    refine .inr (.inr ⟨outer, rfl, by rw [nextOf], ?_⟩)
    simp only [size, forestSize]
    omega
  | (.container head children :: rest) :: outer =>
    refine .inr (.inr ⟨_, rfl, by rw [nextOf], ?_⟩)
    simp only [size, forestSize, nodeSize]
    omega

/-- A call is over after no more turns than there are nodes and levels, and one more. -/
theorem callWithin_eq {turns : Nat} {levels : List Forest} (h : size levels < turns) :
    callWithin turns levels = some ((call ⟨levels⟩).1, (call ⟨levels⟩).2.levels) := by
  induction turns generalizing levels with
  | zero => omega
  | succ turns ih =>
    rcases turn_cases levels with ⟨hturn, hnext⟩ | ⟨leaf, rest, hturn, hnext⟩ | ⟨rest, hturn, hnext, hsize⟩
    · rw [callWithin, hturn, call, next, hnext]
      rfl
    · rw [callWithin, hturn, call, next, hnext]
      rfl
    · have hcall : call ⟨levels⟩ = call ⟨rest⟩ := by rw [call, call, next, next, hnext]
      rw [callWithin, hturn, hcall]
      exact ih (by omega)

/-! ## Call after call -/

/-- A call returns the first leaf that is ahead, and leaves the others ahead. -/
theorem call_eq (c : LeafCursor) :
    c.call.1 = (ahead c.levels).head? ∧ ahead c.call.2.levels = (ahead c.levels).tail := by
  rcases nextOf_cases c.levels with ⟨hnext, hahead⟩ | ⟨leaf, rest, hnext, hahead, -⟩
  · rw [call, next, hnext, hahead]
    exact ⟨rfl, rfl⟩
  · rw [call, next, hnext, hahead]
    exact ⟨rfl, rfl⟩

/-- The cursor after a number of calls. -/
def after (c : LeafCursor) : Nat → LeafCursor
  | 0 => c
  | k + 1 => c.call.2.after k

/-- The leaves ahead after a number of calls. -/
theorem ahead_after (c : LeafCursor) (k : Nat) : ahead (c.after k).levels = (ahead c.levels).drop k := by
  induction k generalizing c with
  | zero => rfl
  | succ k ih => rw [after, ih, c.call_eq.2, List.drop_tail]

theorem call_after (c : LeafCursor) (k : Nat) : (c.after k).call.1 = (ahead c.levels)[k]? := by
  rw [(c.after k).call_eq.1, ahead_after, List.head?_drop]

theorem after_after (c : LeafCursor) (k j : Nat) : (c.after k).after j = c.after (k + j) := by
  induction k generalizing c with
  | zero => rw [Nat.zero_add]; rfl
  | succ k ih => rw [Nat.succ_add, after, after, ih]

/-- The results of a number of calls, one after the other. -/
theorem take_eq (c : LeafCursor) (n : Nat) : c.take n = (List.range n).map fun k => (ahead c.levels)[k]? := by
  induction n generalizing c with
  | zero => rfl
  | succ n ih =>
    rw [List.range_succ_eq_map, List.map_cons, List.map_map, take]
    rcases nextOf_cases c.levels with ⟨hnext, hahead⟩ | ⟨leaf, rest, hnext, hahead, -⟩
    · simp only [next, hnext, Option.map_none, ih, hahead]
      rfl
    · simp only [next, hnext, Option.map_some, ih, hahead]
      rfl

theorem ahead_start (f : Forest) : ahead (start f).levels = f.leaves := by
  rw [start, ahead, ahead, List.append_nil]

/-- After `k` calls, the leaves still to come are the leaves of the forest from left to right without the first `k`. The
next call returns the first of those, with its body and its arguments, or nothing if there is none, and once a call
returns nothing all later ones do. No call takes more turns than one more than the nodes and levels that are left. All
calls together return as many leaves as are counted, before the forest is resolved and after. -/
theorem cursor_refines_traversal (f : Forest) (k : Nat) :
    let c := (start f).after k
    c.drain = f.leaves.drop k ∧ c.call.1 = f.leaves[k]? ∧ (start f).take k = (List.range k).map (f.leaves[·]?) ∧
      (c.call.1 = none → ∀ j, (c.after j).call.1 = none) ∧
      (∀ turns, size c.levels < turns → callWithin turns c.levels = some (c.call.1, c.call.2.levels)) ∧
      (start f).drain.length = f.leafCount ∧
      ∀ separator, (start (f.resolve separator).roots).drain.length = f.leafCount := by
  intro c
  refine ⟨?_, ?_, ?_, ?_, fun turns hturns => callWithin_eq hturns, ?_, fun separator => ?_⟩
  · rw [drain_eq_ahead, ahead_after, ahead_start]
  · rw [call_after, ahead_start]
  · rw [take_eq, ahead_start]
  · intro hnone j
    rw [call_after, List.getElem?_eq_none_iff] at hnone
    rw [after_after, call_after, List.getElem?_eq_none_iff]
    omega
  · rw [drain_start]
    exact Node.length_forestLeaves f
  · rw [drain_start]
    exact (Node.length_forestLeaves _).trans (Node.forestLeafCount_resolveForest separator [] f)

/-- The only leaf stands between empty containers, of which one is in another one. The first call goes through those
before it, and the second one returns nothing. -/
theorem cursor_refines_traversal_empty_containers :
    let leaf : Leaf := ⟨{ label := "b" }, ⟨default, .noop⟩, some [.int 1]⟩
    let forest : Forest := [.container { label := "a" } [.container { label := "c" } []],
      .leaf leaf.head leaf.body leaf.arguments, .container { label := "d" } []]
    (start forest).call.1 = some leaf ∧
      (∃ levels, callWithin 9 (start forest).levels = some (some leaf, levels)) ∧
      ((start forest).after 1).call.1 = none ∧ ∀ j, (((start forest).after 1).after j).call.1 = none := by
  intro leaf forest
  have hleaves : forest.leaves = [leaf] := by
    simp [forest, Forest.leaves, Node.forestLeaves, Node.leaves, leaf]
  obtain ⟨-, hfirst, -, -, hturns, -⟩ := cursor_refines_traversal forest 0
  obtain ⟨-, hsecond, -, hlater, -⟩ := cursor_refines_traversal forest 1
  rw [hleaves] at hfirst hsecond
  have hwithin := hturns 9 (by decide)
  rw [hfirst] at hwithin
  exact ⟨hfirst, ⟨_, hwithin⟩, hsecond, hlater hsecond⟩

end LeafCursor

end SpecForest

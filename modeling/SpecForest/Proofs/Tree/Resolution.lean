import SpecForest.Tree.Resolved

/-!
# Resolving reads labels and sets paths

After resolving, the path of every node is made of the labels from its root to itself, whatever paths the
nodes had before, and nothing but paths has changed. So a forest can be resolved again, with another separator
or after its nodes have been moved, as if it had never been resolved.

The labels above a node can also be kept in one stack that the whole walk shares, onto which every node pushes
its label and from which it pops it again. `resolveOn` walks in this way, and it comes to the same.
-/

namespace SpecForest

/-! ## One stack for the whole walk -/

mutual

/-- Sets the paths at and below a node. Its label is pushed onto the stack, and popped when all nodes below it
have been visited. The stack that is left goes to the next node. -/
def Node.resolveOn (separator : String) (stack : List String) : Node → Node × List String
  | .container head children =>
    let pushed := stack ++ [head.label]
    let (children, left) := resolveForestOn separator pushed children
    (.container { head with path := .ofSegments separator pushed } children, left.dropLast)
  | .leaf head body arguments =>
    let pushed := stack ++ [head.label]
    (.leaf { head with path := .ofSegments separator pushed } body arguments, pushed.dropLast)

/-- Sets the paths of a forest, node after node on one stack. -/
def resolveForestOn (separator : String) (stack : List String) : List Node → List Node × List String
  | [] => ([], stack)
  | n :: rest =>
    let (n, stack) := n.resolveOn separator stack
    let (rest, stack) := resolveForestOn separator stack rest
    (n :: rest, stack)

end

mutual

/-- A node leaves the stack as it was. -/
theorem Node.resolveOn_eq (separator : String) (stack : List String) :
    ∀ n : Node, n.resolveOn separator stack = (n.resolve separator stack, stack)
  | .container head children => by
    simp only [Node.resolveOn, Node.resolve, resolveForestOn_eq separator (stack ++ [head.label]) children,
      List.dropLast_concat]
  | .leaf head body arguments => by
    simp only [Node.resolveOn, Node.resolve, List.dropLast_concat]

theorem resolveForestOn_eq (separator : String) (stack : List String) :
    ∀ f : List Node, resolveForestOn separator stack f = (resolveForest separator stack f, stack)
  | [] => rfl
  | n :: rest => by
    simp only [resolveForestOn, resolveForest, n.resolveOn_eq separator stack,
      resolveForestOn_eq separator stack rest]

end

/-! ## All but the paths -/

mutual

/-- A node as it is before anything is resolved: all of it but the paths. -/
def Node.unresolved : Node → Node
  | .container head children => .container { head with path := .unresolved } (unresolvedForest children)
  | .leaf head body arguments => .leaf { head with path := .unresolved } body arguments

/-- A forest as it is before it is resolved. -/
def unresolvedForest : List Node → List Node
  | [] => []
  | n :: rest => n.unresolved :: unresolvedForest rest

end

mutual

theorem Node.unresolved_resolve (separator : String) (above : List String) :
    ∀ n : Node, (n.resolve separator above).unresolved = n.unresolved
  | .container head children => by
    rw [Node.resolve, Node.unresolved, Node.unresolved,
      unresolvedForest_resolveForest separator (above ++ [head.label]) children]
  | .leaf head body arguments => by
    rw [Node.resolve, Node.unresolved, Node.unresolved]

/-- Resolving changes nothing but paths. -/
theorem unresolvedForest_resolveForest (separator : String) (above : List String) :
    ∀ f : List Node, unresolvedForest (resolveForest separator above f) = unresolvedForest f
  | [] => rfl
  | n :: rest => by
    rw [resolveForest, unresolvedForest, unresolvedForest, n.unresolved_resolve separator above,
      unresolvedForest_resolveForest separator above rest]

end

mutual

theorem Node.resolve_unresolved (separator : String) (above : List String) :
    ∀ n : Node, n.unresolved.resolve separator above = n.resolve separator above
  | .container head children => by
    rw [Node.unresolved, Node.resolve, Node.resolve,
      resolveForest_unresolvedForest separator (above ++ [head.label]) children]
  | .leaf head body arguments => by
    rw [Node.unresolved, Node.resolve, Node.resolve]

/-- Resolving looks at no path. -/
theorem resolveForest_unresolvedForest (separator : String) (above : List String) :
    ∀ f : List Node,
      resolveForest separator above (unresolvedForest f) = resolveForest separator above f
  | [] => rfl
  | n :: rest => by
    rw [unresolvedForest, resolveForest, resolveForest, n.resolve_unresolved separator above,
      resolveForest_unresolvedForest separator above rest]

end

/-- Forests that differ in their paths only are resolved to the same. -/
theorem Forest.resolve_eq_of_unresolved {f g : Forest} (separator : String)
    (h : unresolvedForest g = unresolvedForest f) : g.resolve separator = f.resolve separator := by
  rw [Forest.resolve, Forest.resolve, ← resolveForest_unresolvedForest separator [] g, h,
    resolveForest_unresolvedForest]

theorem Resolved.resolve_resolve (f : Forest) (separator other : String) :
    (f.resolve other).resolve separator = f.resolve separator :=
  Forest.resolve_eq_of_unresolved separator (unresolvedForest_resolveForest other [] f)

/-! ## Nodes in their places -/

/-- The labels of the nodes on the way that some child indexes take, roots first. -/
def Forest.labelsTo (f : Forest) : List Nat → List String
  | [] => []
  | i :: rest =>
    match f[i]? with
    | none => []
    | some n => n.label :: labelsTo n.children rest

theorem getElem?_resolveForest (separator : String) (above : List String) (f : Forest) (i : Nat) :
    (resolveForest separator above f)[i]? = f[i]?.map (·.resolve separator above) := by
  induction f generalizing i with
  | nil => rfl
  | cons n rest ih =>
    cases i with
    | zero => rfl
    | succ i =>
      rw [resolveForest, List.getElem?_cons_succ, List.getElem?_cons_succ]
      exact ih i

theorem Node.children_resolve (separator : String) (above : List String) (n : Node) :
    (n.resolve separator above).children = resolveForest separator (above ++ [n.label]) n.children := by
  cases n with
  | container head children => rw [Node.resolve]; rfl
  | leaf head body arguments => rw [Node.resolve]; rfl

theorem Node.head_resolve (separator : String) (above : List String) (n : Node) :
    (n.resolve separator above).head =
      { n.head with path := .ofSegments separator (above ++ [n.label]) } := by
  cases n with
  | container head children => rw [Node.resolve]; rfl
  | leaf head body arguments => rw [Node.resolve]; rfl

/-- At some indexes there is a node after resolving exactly if there was one before. It is the same node,
resolved below the labels on the way to it. -/
theorem node?_resolveForest (separator : String) (f : Forest) (indexes : List Nat) :
    (f.node? indexes = none ∧ ∀ above, Forest.node? (resolveForest separator above f) indexes = none) ∨
      ∃ n way, f.node? indexes = some n ∧ f.labelsTo indexes = way ++ [n.label] ∧
        indexes.length = way.length + 1 ∧
        ∀ above, Forest.node? (resolveForest separator above f) indexes =
          some (n.resolve separator (above ++ way)) := by
  induction indexes generalizing f with
  | nil => exact .inl ⟨rfl, fun _ => rfl⟩
  | cons i rest ih =>
    cases hget : f[i]? with
    | none =>
      have hnone : ∀ above, (resolveForest separator above f)[i]? = none := fun above => by
        rw [getElem?_resolveForest, hget, Option.map_none]
      cases rest <;> exact .inl ⟨by simp [Forest.node?, hget], fun above => by simp [Forest.node?, hnone]⟩
    | some n =>
      have hsome : ∀ above, (resolveForest separator above f)[i]? = some (n.resolve separator above) :=
        fun above => by rw [getElem?_resolveForest, hget, Option.map_some]
      cases rest with
      | nil =>
        exact .inr ⟨n, [], by simp [Forest.node?, hget], by simp [Forest.labelsTo, hget], rfl,
          fun above => by simp [Forest.node?, hsome]⟩
      | cons j rest =>
        -- below the node the labels on the way begin with its own
        rcases ih n.children with ⟨hnone, hresolved⟩ | ⟨m, way, hm, hlabels, hlength, hresolved⟩
        · refine .inl ⟨by simp [Forest.node?, hget, hnone], fun above => ?_⟩
          simp [Forest.node?, hsome, n.children_resolve, hresolved]
        · refine .inr ⟨m, n.label :: way, by simp [Forest.node?, hget, hm], ?_, ?_, fun above => ?_⟩
          · rw [Forest.labelsTo, hget]
            simp only [hlabels, List.cons_append]
          · rw [List.length_cons, hlength, List.length_cons]
          · simp [Forest.node?, hsome, n.children_resolve, hresolved]

/-! ## Roots under a new container -/

/-- A leaf whose path begins with one more label. -/
def Leaf.under (separator label : String) (l : Leaf) : Leaf :=
  { l with head := { l.head with path := .ofSegments separator (label :: l.head.path.segments) } }

mutual

theorem Node.leaves_resolve_cons (separator label : String) (above : List String) :
    ∀ n : Node, (n.resolve separator (label :: above)).leaves =
      (n.resolve separator above).leaves.map (Leaf.under separator label)
  | .container head children => by
    rw [Node.resolve, Node.resolve, Node.leaves, Node.leaves, List.cons_append,
      forestLeaves_resolveForest_cons separator label (above ++ [head.label]) children]
  | .leaf head body arguments => by
    rw [Node.resolve, Node.resolve, Node.leaves, Node.leaves]
    rfl

theorem forestLeaves_resolveForest_cons (separator label : String) (above : List String) :
    ∀ f : List Node, Node.forestLeaves (resolveForest separator (label :: above) f) =
      (Node.forestLeaves (resolveForest separator above f)).map (Leaf.under separator label)
  | [] => rfl
  | n :: rest => by
    rw [resolveForest, resolveForest, Node.forestLeaves, Node.forestLeaves, List.map_append,
      n.leaves_resolve_cons separator label above,
      forestLeaves_resolveForest_cons separator label above rest]

end

/-- Wrapping roots that have been resolved is the same as wrapping them before. -/
theorem Resolved.wrap_resolve (f : Forest) (separator label : String) :
    (f.resolve separator).wrap label = Forest.resolve [.container { label } f] separator := by
  refine Forest.resolve_eq_of_unresolved separator ?_
  simp only [unresolvedForest, Node.unresolved, Forest.resolve, unresolvedForest_resolveForest]

theorem Resolved.leaves_wrap (f : Forest) (separator label : String) :
    ((f.resolve separator).wrap label).leaves =
      (f.resolve separator).leaves.map (Leaf.under separator label) := by
  rw [Resolved.wrap_resolve]
  have hroots : (Forest.resolve [.container { label } f] separator).leaves =
      Node.forestLeaves (resolveForest separator [label] f) := by
    simp [Resolved.leaves, Forest.leaves, Forest.resolve, resolveForest, Node.resolve,
      Node.forestLeaves, Node.leaves]
  rw [hroots, forestLeaves_resolveForest_cons separator label []]
  rfl

/-! ## Children as new roots -/

theorem Node.unresolvedForest_children (n : Node) :
    unresolvedForest n.children = n.unresolved.children := by
  cases n with
  | container head children => rw [Node.unresolved]; rfl
  | leaf head body arguments => rw [Node.unresolved]; rfl

/-- The children that are taken out of a resolved tree are resolved as if they had always been roots. -/
theorem Resolved.take?_resolve (f : Forest) (separator : String) (indexes : List Nat) :
    (f.resolve separator).take? indexes =
      (f.node? indexes).map fun n => Forest.resolve n.children separator := by
  rw [Resolved.take?]
  rcases node?_resolveForest separator f indexes with ⟨hn, hresolved⟩ | ⟨n, way, hn, -, -, hresolved⟩
  · rw [Forest.resolve, hresolved, hn, Option.map_none]
  · rw [Forest.resolve, hresolved, hn, Option.map_some, Option.map_some]
    refine congrArg some (Forest.resolve_eq_of_unresolved separator ?_)
    rw [Node.unresolvedForest_children, Node.unresolved_resolve, Node.unresolvedForest_children]

/-! ## The law of resolving -/

/-- Resolving a forest, on one stack that is empty again at the end, gives every node the labels from its root
to itself as its path, and their text with the separator between them. All else is unchanged, and the paths
before do not matter: resolving again, with this or another separator, is the same as resolving once, and so
is resolving after children were taken out as roots or all roots were wrapped. Wrapping puts one label in front
of the path of every leaf. -/
theorem resolve_sets_paths_only (f : Forest) (separator : String) :
    resolveForestOn separator [] f = ((f.resolve separator).roots, []) ∧
      (∀ indexes n, f.node? indexes = some n →
        ∃ m, (f.resolve separator).roots.node? indexes = some m ∧
          m.head.path.segments = f.labelsTo indexes ∧
          m.head.path.depth = indexes.length ∧
          m.head.path.rendered = separator.intercalate (f.labelsTo indexes) ∧
          m.unresolved = n.unresolved) ∧
      (∀ indexes, f.node? indexes = none → (f.resolve separator).roots.node? indexes = none) ∧
      unresolvedForest (f.resolve separator).roots = unresolvedForest f ∧
      (∀ g, unresolvedForest g = unresolvedForest f → Forest.resolve g separator = f.resolve separator) ∧
      (∀ other, (f.resolve other).resolve separator = f.resolve separator) ∧
      (∀ indexes, (f.resolve separator).take? indexes =
        (f.node? indexes).map fun n => Forest.resolve n.children separator) ∧
      (∀ label, (f.resolve separator).wrap label = Forest.resolve [.container { label } f] separator ∧
        ((f.resolve separator).wrap label).leaves =
          (f.resolve separator).leaves.map (Leaf.under separator label)) := by
  refine ⟨resolveForestOn_eq separator [] f, ?_, ?_, unresolvedForest_resolveForest separator [] f,
    fun g => Forest.resolve_eq_of_unresolved separator, Resolved.resolve_resolve f separator,
    Resolved.take?_resolve f separator,
    fun label => ⟨Resolved.wrap_resolve f separator label, Resolved.leaves_wrap f separator label⟩⟩
  · intro indexes n hn
    rcases node?_resolveForest separator f indexes with ⟨hnone, -⟩ | ⟨m, way, hm, hlabels, hlength, hresolved⟩
    · rw [hn] at hnone
      cases hnone
    · obtain rfl : n = m := Option.some.inj (hn.symm.trans hm)
      have hpath : (n.resolve separator way).head.path = .ofSegments separator (f.labelsTo indexes) := by
        rw [n.head_resolve, hlabels]
      refine ⟨n.resolve separator way, hresolved [], ?_, ?_, ?_, n.unresolved_resolve separator way⟩
      · rw [hpath]
        rfl
      · rw [hpath, hlength, hlabels]
        exact List.length_append
      · rw [hpath]
        rfl
  · intro indexes hn
    rcases node?_resolveForest separator f indexes with ⟨-, hresolved⟩ | ⟨m, way, hm, -⟩
    · exact hresolved []
    · rw [hn] at hm
      cases hm

/-- A leaf with a path from another place and another separator, below a container that was never resolved. -/
theorem resolve_sets_paths_only_stale_leaf :
    let leaf : Path → Node := fun path => .leaf { label := "b", path } ⟨default, .noop⟩ (some [.nil])
    let forest : Path → Forest := fun path => [.container { label := "a" } [leaf path], leaf .unresolved]
    let stale : Path := ⟨["x", "b"], "x.b"⟩
    (∃ m, (Forest.resolve (forest stale) "/").roots.node? [0, 0] = some m ∧
        m.head.path.segments = ["a", "b"] ∧ m.head.path.depth = 2 ∧ m.head.path.rendered = "a/b" ∧
        m.unresolved = leaf .unresolved) ∧
      (Forest.resolve (forest stale) "/").roots.node? [1, 0] = none ∧
      Forest.resolve (forest stale) "/" = Forest.resolve (forest .unresolved) "/" := by
  intro leaf forest stale
  obtain ⟨-, hnode, hnone, -, hstale, -⟩ := resolve_sets_paths_only (forest .unresolved) "/"
  have hforest := hstale (forest stale) (by
    simp [forest, leaf, unresolvedForest, Node.unresolved])
  refine ⟨?_, ?_, hforest⟩
  · obtain ⟨m, hm, hsegments, hdepth, hrendered, hsame⟩ := hnode [0, 0] (leaf .unresolved) rfl
    refine ⟨m, by rw [hforest]; exact hm, hsegments, hdepth, hrendered.trans (by decide), ?_⟩
    exact hsame.trans (by simp [leaf, Node.unresolved])
  · rw [hforest]
    exact hnone [1, 0] rfl

end SpecForest

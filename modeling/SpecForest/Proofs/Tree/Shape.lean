import SpecForest.Proofs.Tree.AncestorFilter
import SpecForest.Proofs.Tree.Iteration

/-!
# Equality of structure

Two forests are equal in structure if they have one shape: kinds, labels and the order of children. Whatever is read
off paths depends on the shape alone, since resolving reads nothing but labels: the paths of a resolved forest are
those of its shape, and all that selects leaves by their paths, or shows their paths, goes through them.
-/

namespace SpecForest

/-! ## Shapes -/

/-- What is left of a node when bodies, arguments, origins and paths are left out. -/
inductive Shape
  | container (label : String) (children : List Shape)
  | leaf (label : String)

mutual

/-- The shape of a node. -/
def Node.shape : Node → Shape
  | .container head children => .container head.label (forestShape children)
  | .leaf head _ _ => .leaf head.label

/-- The shapes of the nodes of a forest. -/
def forestShape : List Node → List Shape
  | [] => []
  | n :: rest => n.shape :: forestShape rest

end

/-- The shape of a forest. -/
def Forest.shape (f : Forest) : List Shape := forestShape f

mutual

theorem Node.equal_iff_shape : ∀ n m : Node, n.equal m = true ↔ n.shape = m.shape
  | .container head children, .container head' children' => by
    simp [Node.equal, Node.shape, forestEqual_iff_shape children children']
  | .leaf head body arguments, .leaf head' body' arguments' => by simp [Node.equal, Node.shape]
  | .container head children, .leaf head' body arguments => by simp [Node.equal, Node.shape]
  | .leaf head body arguments, .container head' children => by simp [Node.equal, Node.shape]

/-- Two forests are equal in structure exactly if they have one shape. -/
theorem forestEqual_iff_shape : ∀ f g : List Node, Node.forestEqual f g = true ↔ forestShape f = forestShape g
  | [], [] => by simp [Node.forestEqual, forestShape]
  | [], m :: ms => by simp [Node.forestEqual, forestShape]
  | n :: ns, [] => by simp [Node.forestEqual, forestShape]
  | n :: ns, m :: ms => by
    simp [Node.forestEqual, forestShape, Node.equal_iff_shape n m, forestEqual_iff_shape ns ms]

end

/-! ## Equality, node by node -/

/-- Two nodes are equal exactly if kinds, labels and children are. For the children of leaves there is nothing to
compare. -/
theorem Node.equal_eq (n m : Node) :
    n.equal m = (n.isLeaf == m.isLeaf && n.label == m.label && Node.forestEqual n.children m.children) := by
  cases n <;> cases m <;> simp [Node.equal, Node.isLeaf, Node.label, Node.head, Node.children, Node.forestEqual]

/-- What equality compares at one node. -/
def Node.kindAndLabel (n : Node) : Bool × String := (n.isLeaf, n.label)

/-- Two forests agree at every place: both have a node there, of one kind and with one label, or neither has. -/
def Forest.AgreesWith (f g : Forest) : Prop :=
  ∀ place, (f.node? place).map Node.kindAndLabel = (g.node? place).map Node.kindAndLabel

theorem Node.kindAndLabel_of_equal {n m : Node} (h : n.equal m = true) : n.kindAndLabel = m.kindAndLabel := by
  rw [Node.equal_eq] at h
  simp only [Bool.and_eq_true, beq_iff_eq] at h
  rw [Node.kindAndLabel, Node.kindAndLabel, h.1.1, h.1.2]

theorem getElem?_of_forestEqual {f g : List Node} (h : Node.forestEqual f g = true) (i : Nat) :
    (f[i]? = none ∧ g[i]? = none) ∨ ∃ n m, f[i]? = some n ∧ g[i]? = some m ∧ n.equal m = true := by
  induction f generalizing g i with
  | nil =>
    cases g with
    | nil => exact .inl ⟨rfl, rfl⟩
    | cons m ms => simp [Node.forestEqual] at h
  | cons n ns ih =>
    cases g with
    | nil => simp [Node.forestEqual] at h
    | cons m ms =>
      rw [Node.forestEqual, Bool.and_eq_true] at h
      cases i with
      | zero => exact .inr ⟨n, m, rfl, rfl, h.1⟩
      | succ i => exact ih h.2 i

theorem agreesWith_of_equal {f g : Forest} (h : Node.forestEqual f g = true) : f.AgreesWith g := by
  intro place
  induction place generalizing f g with
  | nil => rfl
  | cons i rest ih =>
    rcases getElem?_of_forestEqual h i with ⟨hf, hg⟩ | ⟨n, m, hf, hg, heq⟩
    · cases rest <;> simp [Forest.node?, hf, hg]
    · cases rest with
      | nil => simp [Forest.node?, hf, hg, Node.kindAndLabel_of_equal heq]
      | cons j rest =>
        have hchildren : Node.forestEqual n.children m.children = true := by
          rw [Node.equal_eq, Bool.and_eq_true] at heq
          exact heq.2
        rw [Forest.node?_cons hf (List.cons_ne_nil j rest), Forest.node?_cons hg (List.cons_ne_nil j rest)]
        exact ih hchildren

theorem Forest.AgreesWith.head {n m : Node} {f g : List Node} (h : Forest.AgreesWith (n :: f) (m :: g)) :
    n.kindAndLabel = m.kindAndLabel ∧ Forest.AgreesWith n.children m.children := by
  refine ⟨by simpa [Forest.node?] using h [0], fun place => ?_⟩
  cases place with
  | nil => rfl
  | cons j rest =>
    have hplace := h (0 :: j :: rest)
    rwa [Forest.node?_cons rfl (List.cons_ne_nil j rest), Forest.node?_cons rfl (List.cons_ne_nil j rest)] at hplace

theorem Forest.AgreesWith.tail {n m : Node} {f g : List Node} (h : Forest.AgreesWith (n :: f) (m :: g)) :
    Forest.AgreesWith f g := by
  intro place
  cases place with
  | nil => rfl
  | cons i rest =>
    have hplace := h ((i + 1) :: rest)
    cases rest <;> simpa [Forest.node?] using hplace

mutual

theorem Node.equal_of_agrees :
    ∀ n m : Node, n.kindAndLabel = m.kindAndLabel → Forest.AgreesWith n.children m.children → n.equal m = true
  | .container head children, .container head' children', hlabel, hbelow => by
    rw [Node.equal, Bool.and_eq_true, beq_iff_eq]
    exact ⟨congrArg Prod.snd hlabel, forestEqual_of_agrees children children' hbelow⟩
  | .leaf head body arguments, .leaf head' body' arguments', hlabel, _ => by
    rw [Node.equal, beq_iff_eq]
    exact congrArg Prod.snd hlabel
  | .container head children, .leaf head' body arguments, hlabel, _ => nomatch congrArg Prod.fst hlabel
  | .leaf head body arguments, .container head' children, hlabel, _ => nomatch congrArg Prod.fst hlabel

theorem forestEqual_of_agrees : ∀ f g : List Node, Forest.AgreesWith f g → Node.forestEqual f g = true
  | [], [], _ => rfl
  | [], m :: ms, h => nomatch h [0]
  | n :: ns, [], h => nomatch h [0]
  | n :: ns, m :: ms, h => by
    obtain ⟨hlabel, hbelow⟩ := h.head
    rw [Node.forestEqual, Bool.and_eq_true]
    exact ⟨Node.equal_of_agrees n m hlabel hbelow, forestEqual_of_agrees ns ms h.tail⟩

end

/-! ## Resolving and paths -/

mutual

theorem Node.shape_resolve (separator : String) (above : List String) :
    ∀ n : Node, (n.resolve separator above).shape = n.shape
  | .container head children => by
    rw [Node.resolve, Node.shape, Node.shape, shape_resolveForest separator (above ++ [head.label]) children]
  | .leaf head body arguments => by rw [Node.resolve, Node.shape, Node.shape]

/-- Resolving changes no shape. -/
theorem shape_resolveForest (separator : String) (above : List String) :
    ∀ f : List Node, forestShape (resolveForest separator above f) = forestShape f
  | [] => rfl
  | n :: rest => by
    rw [resolveForest, forestShape, forestShape, n.shape_resolve separator above,
      shape_resolveForest separator above rest]

end

mutual

/-- The paths of the leaves of a shape, given the labels above it. -/
def Shape.leafPaths (separator : String) (above : List String) : Shape → List Path
  | .container label children => allLeafPaths separator (above ++ [label]) children
  | .leaf label => [.ofSegments separator (above ++ [label])]

/-- The paths of the leaves of some shapes. -/
def allLeafPaths (separator : String) (above : List String) : List Shape → List Path
  | [] => []
  | shape :: rest => shape.leafPaths separator above ++ allLeafPaths separator above rest

end

mutual

theorem Node.leafPaths_shape (separator : String) (above : List String) :
    ∀ n : Node, (n.resolve separator above).leaves.map (·.head.path) = n.shape.leafPaths separator above
  | .container head children => by
    rw [Node.resolve, Node.leaves, Node.shape, Shape.leafPaths,
      allLeafPaths_forestShape separator (above ++ [head.label]) children]
  | .leaf head body arguments => by
    rw [Node.resolve, Node.leaves, Node.shape, Shape.leafPaths]
    rfl

/-- The paths of the leaves of a resolved forest are those of its shape. -/
theorem allLeafPaths_forestShape (separator : String) (above : List String) :
    ∀ f : List Node, (Node.forestLeaves (resolveForest separator above f)).map (·.head.path) =
      allLeafPaths separator above (forestShape f)
  | [] => rfl
  | n :: rest => by
    rw [resolveForest, Node.forestLeaves, List.map_append, forestShape, allLeafPaths,
      n.leafPaths_shape separator above, allLeafPaths_forestShape separator above rest]

end

/-- The paths of some leaves. -/
def pathsOf (ls : List Leaf) : List Path := ls.map (·.head.path)

theorem pathsOf_leaves_resolve (f : Forest) (separator : String) :
    pathsOf (f.resolve separator).leaves = allLeafPaths separator [] f.shape :=
  allLeafPaths_forestShape separator [] f

/-- Leaves that are selected by their paths have the paths that are selected. -/
theorem pathsOf_filter (p : Path → Bool) (ls : List Leaf) :
    pathsOf (ls.filter fun l => p l.head.path) = (pathsOf ls).filter p := by
  rw [pathsOf, pathsOf, List.filter_map]
  rfl

namespace Resolved

variable {r s : Resolved}

theorem pathsOf_filterByAncestor (h : pathsOf r.leaves = pathsOf s.leaves) (label : String) :
    pathsOf (r.filterByAncestor label) = pathsOf (s.filterByAncestor label) := by
  have hfilter := pathsOf_filter fun p => p.ancestors.contains label
  rw [filterByAncestor, filterByAncestor, hfilter, hfilter, h]

theorem pathsOf_filterByPath (h : pathsOf r.leaves = pathsOf s.leaves) (pattern : String) :
    pathsOf (r.filterByPath pattern) = pathsOf (s.filterByPath pattern) := by
  have hfilter := pathsOf_filter fun p =>
    Text.occursIn (Text.lower pattern).toList (Text.lower p.rendered).toList
  calc pathsOf (r.filterByPath pattern)
      = (pathsOf r.leaves).filter _ := hfilter r.leaves
    _ = (pathsOf s.leaves).filter _ := by rw [h]
    _ = pathsOf (s.filterByPath pattern) := (hfilter s.leaves).symm

theorem display_eq_of_paths (h : pathsOf r.leaves = pathsOf s.leaves) : r.display = s.display := by
  have hlines : ∀ ls : List Leaf, ls.map (fun l => l.path ++ "\n") = (pathsOf ls).map (·.rendered ++ "\n") := by
    intro ls
    rw [pathsOf, List.map_map]
    rfl
  rw [display, display, hlines, hlines, h]

end Resolved

/-- Two forests are equal exactly if they have one shape, that is, if they agree in kind and label at every place; so
equality is reflexive, symmetric and transitive, and a forest is equal to what it is resolved to. With any separator,
equal forests are shown as one text, have as many leaves, and the paths of their leaves are the same, of all of them as
a cursor visits them and of those that are found by the label of an ancestor or by a part of the path. Bodies,
arguments, origins and the paths before have no part in it. -/
theorem equal_is_structural (f g : Forest) :
    (f.equal g = true ↔ f.shape = g.shape) ∧ (f.equal g = true ↔ f.AgreesWith g) ∧
      f.equal f = true ∧ (f.equal g = true → g.equal f = true) ∧
      (∀ h : Forest, f.equal g = true → g.equal h = true → f.equal h = true) ∧
      (∀ separator, f.equal (f.resolve separator).roots = true) ∧
      (f.equal g = true → ∀ separator,
        (f.resolve separator).display = (g.resolve separator).display ∧
        (f.resolve separator).roots.leafCount = (g.resolve separator).roots.leafCount ∧
        pathsOf (LeafCursor.start (f.resolve separator).roots).drain =
          pathsOf (LeafCursor.start (g.resolve separator).roots).drain ∧
        (∀ label, pathsOf ((f.resolve separator).filterByAncestor label) =
          pathsOf ((g.resolve separator).filterByAncestor label)) ∧
        ∀ pattern, pathsOf ((f.resolve separator).filterByPath pattern) =
          pathsOf ((g.resolve separator).filterByPath pattern)) := by
  have hiff : ∀ f g : Forest, f.equal g = true ↔ f.shape = g.shape := forestEqual_iff_shape
  refine ⟨hiff f g, ⟨agreesWith_of_equal, forestEqual_of_agrees f g⟩, (hiff f f).mpr rfl, ?_, ?_, ?_, ?_⟩
  · intro h
    exact (hiff g f).mpr ((hiff f g).mp h).symm
  · intro k hfg hgk
    exact (hiff f k).mpr (((hiff f g).mp hfg).trans ((hiff g k).mp hgk))
  · intro separator
    exact (hiff _ _).mpr (shape_resolveForest separator [] f).symm
  · intro h separator
    have hpaths : pathsOf (f.resolve separator).leaves = pathsOf (g.resolve separator).leaves := by
      rw [pathsOf_leaves_resolve, pathsOf_leaves_resolve, (hiff f g).mp h]
    have hcount : (f.resolve separator).roots.leafCount = (g.resolve separator).roots.leafCount := by
      have hlength := congrArg List.length hpaths
      rwa [pathsOf, pathsOf, List.length_map, List.length_map, Resolved.leaves, Resolved.leaves, Forest.leaves,
        Forest.leaves, Node.length_forestLeaves, Node.length_forestLeaves] at hlength
    refine ⟨Resolved.display_eq_of_paths hpaths, hcount, ?_, Resolved.pathsOf_filterByAncestor hpaths,
      Resolved.pathsOf_filterByPath hpaths⟩
    rw [LeafCursor.drain_start, LeafCursor.drain_start]
    exact hpaths

/-- A container without children, and a leaf with a stale path and arguments beside one with neither. A leaf in the
place of the container is not equal to it. -/
theorem equal_is_structural_stale_leaf :
    let forest (head : Header) (arguments : Option Arguments) : Forest :=
      [.container { label := "a" } [], .leaf head ⟨default, .noop⟩ arguments]
    let plain := forest { label := "b" } none
    let bound := forest ⟨"b", some ⟨"t", 1⟩, ⟨["x", "b"], "x.b"⟩⟩ (some [.nil])
    plain.equal bound = true ∧ bound.equal plain = true ∧ plain.equal plain = true ∧
      (plain.resolve "/").display = (bound.resolve "/").display ∧
      pathsOf ((plain.resolve "/").filterByPath "B") = pathsOf ((bound.resolve "/").filterByPath "B") ∧
      plain.equal [.leaf { label := "a" } ⟨default, .noop⟩ none, .leaf { label := "b" } ⟨default, .noop⟩ none] =
        false := by
  intro forest plain bound
  obtain ⟨hshape, -, -, hsymm, htrans, -, hpaths⟩ := equal_is_structural plain bound
  have hequal : plain.equal bound = true := hshape.mpr rfl
  obtain ⟨hdisplay, -, -, -, hfilter⟩ := hpaths hequal "/"
  exact ⟨hequal, hsymm hequal, htrans plain hequal (hsymm hequal), hdisplay, hfilter "B", rfl⟩

end SpecForest

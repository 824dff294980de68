import SpecForest.Work

/-!
# Nodes

The expanded tree of a suite: containers with children in declaration order, and leaves with their
bodies and bound arguments. Two nodes are equal in structure if kinds, labels and children agree;
bodies, arguments, origins and paths do not count.
-/

namespace SpecForest

/-- The table and the entry from which a node was expanded. -/
structure Origin where
  table : String
  entry : Nat
  deriving DecidableEq

/-- The labels from a root to a node, and their text. Nodes that have not been resolved have no
segments; an empty label is an empty segment. -/
structure Path where
  segments : List String
  rendered : String
  deriving DecidableEq

namespace Path

/-- The path of a node that has not been resolved. -/
def unresolved : Path := ⟨[], ""⟩

/-- A path whose labels are joined by a separator. -/
def ofSegments (separator : String) (segments : List String) : Path :=
  ⟨segments, separator.intercalate segments⟩

/-- The labels of the proper ancestors, outermost first. -/
def ancestors (p : Path) : List String := p.segments.dropLast

/-- The number of levels from the root to the node. -/
def depth (p : Path) : Nat := p.segments.length

/-- Whether the path has been set. -/
def isResolved (p : Path) : Bool := !p.segments.isEmpty

end Path

/-- What every node has. -/
structure Header where
  label : String
  origin : Option Origin := none
  path : Path := .unresolved
  deriving DecidableEq

/-- A node of the expanded tree. Arguments are bound to the leaves made inside a table. -/
inductive Node
  | container (head : Header) (children : List Node)
  | leaf (head : Header) (body : Body) (arguments : Option Arguments)

/-- The nodes of one level, in declaration order. -/
abbrev Forest := List Node

/-- A leaf as those who run or list leaves see it. -/
structure Leaf where
  head : Header
  body : Body
  arguments : Option Arguments

/-- What running a leaf shows: its unit of work is given the bound arguments, or none. -/
def Leaf.invoke (l : Leaf) : Outcome :=
  l.body.work (l.arguments.getD [])

/-- Whether two leaves share one body. -/
def Leaf.sameBody (a b : Leaf) : Bool :=
  a.body.id == b.body.id

namespace Node

/-- What a node shares with all other nodes. -/
def head : Node → Header
  | container head _ => head
  | leaf head _ _ => head

/-- The label of a node. -/
def label (n : Node) : String := n.head.label

/-- Whether a node is a leaf. -/
def isLeaf : Node → Bool
  | container _ _ => false
  | leaf _ _ _ => true

/-- The children of a node. A leaf has none. -/
def children : Node → Forest
  | container _ children => children
  | leaf _ _ _ => []

/-- The arguments bound to a node. Only leaves have any. -/
def arguments? : Node → Option Arguments
  | container _ _ => none
  | leaf _ _ arguments => arguments

mutual

/-- The leaves at or below a node, from left to right. -/
def leaves : Node → List Leaf
  | container _ children => forestLeaves children
  | leaf head body arguments => [⟨head, body, arguments⟩]

/-- The leaves of a forest, from left to right. -/
def forestLeaves : List Node → List Leaf
  | [] => []
  | n :: rest => n.leaves ++ forestLeaves rest

end

mutual

/-- The number of leaves at or below a node. -/
def leafCount : Node → Nat
  | container _ children => forestLeafCount children
  | leaf _ _ _ => 1

/-- The number of leaves of a forest. -/
def forestLeafCount : List Node → Nat
  | [] => 0
  | n :: rest => n.leafCount + forestLeafCount rest

end

mutual

/-- Equality of structure: kinds, labels and children. -/
def equal : Node → Node → Bool
  | container h cs, container h' cs' => h.label == h'.label && forestEqual cs cs'
  | leaf h _ _, leaf h' _ _ => h.label == h'.label
  | _, _ => false

/-- Equality of structure, node by node. -/
def forestEqual : List Node → List Node → Bool
  | [], [] => true
  | n :: ns, m :: ms => n.equal m && forestEqual ns ms
  | _, _ => false

end

end Node

namespace Forest

/-- The leaves of a forest, from left to right. -/
def leaves (f : Forest) : List Leaf := Node.forestLeaves f

/-- The number of leaves of a forest. -/
def leafCount (f : Forest) : Nat := Node.forestLeafCount f

/-- Equality of structure. -/
def equal (f g : Forest) : Bool := Node.forestEqual f g

/-- The node reached by child indexes, roots first. No index reaches no node. -/
def node? (f : Forest) : List Nat → Option Node
  | [] => none
  | [i] => f[i]?
  | i :: rest => f[i]?.bind fun n => node? n.children rest

end Forest

end SpecForest

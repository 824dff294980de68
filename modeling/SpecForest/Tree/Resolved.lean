import SpecForest.Event
import SpecForest.Text.Lowercase
import SpecForest.Tree.Build

/-!
# Resolved trees

Resolving gives every node the path of labels from its root to itself. It depends on labels alone and
sets paths alone, so a tree can be resolved again at any time. A resolved tree lists its leaves and
selects them by an ancestor's label or by a part of their path.
-/

namespace SpecForest

mutual

/-- Sets the paths at and below a node, given the labels above it. -/
def Node.resolve (separator : String) (above : List String) : Node → Node
  | .container head children =>
    let segments := above ++ [head.label]
    .container { head with path := .ofSegments separator segments }
      (resolveForest separator segments children)
  | .leaf head body arguments =>
    .leaf { head with path := .ofSegments separator (above ++ [head.label]) } body arguments

/-- Sets the paths of a forest, given the labels above it. -/
def resolveForest (separator : String) (above : List String) : List Node → List Node
  | [] => []
  | n :: rest => n.resolve separator above :: resolveForest separator above rest

end

/-- A forest whose paths are set, and the separator in their texts. -/
structure Resolved where
  roots : Forest
  separator : String

/-- The separator of a path's labels, if no other is asked for. -/
def defaultSeparator : String := " > "

/-- The separator asked for by the bytes of a setting. An empty setting, or one that is no text, asks
for the default. -/
def separatorOf (setting : Option ByteArray) : String :=
  match setting.bind String.fromUTF8? with
  | some text => if text.isEmpty then defaultSeparator else text
  | none => defaultSeparator

/-- Resolves a forest. -/
def Forest.resolve (f : Forest) (separator : String) : Resolved :=
  ⟨resolveForest separator [] f, separator⟩

/-- The events of resolving a forest. -/
def Forest.resolveEvents (f : Forest) (separator : String) : List Event :=
  [.enter (.resolving separator), .resolved f.leafCount, .exit]

/-- Builds and resolves declarations, unless a table is dropped. -/
def buildResolved (ds : List Declaration) (separator : String) : Except SpecError Resolved :=
  (build ds).strict.map (·.resolve separator)

/-- The text of a leaf's path. -/
def Leaf.path (l : Leaf) : String := l.head.path.rendered

namespace Resolved

/-- All leaves, in declaration order. -/
def leaves (r : Resolved) : List Leaf := r.roots.leaves

/-- The leaves with a proper ancestor of exactly this label. -/
def filterByAncestor (r : Resolved) (label : String) : List Leaf :=
  r.leaves.filter fun l => l.head.path.ancestors.contains label

/-- The leaves whose path has the pattern in it, both in lower case. -/
def filterByPath (r : Resolved) (pattern : String) : List Leaf :=
  let wanted := (Text.lower pattern).toList
  r.leaves.filter fun l => Text.occursIn wanted (Text.lower l.path).toList

/-- The paths of all leaves, one on each line. -/
def display (r : Resolved) : String :=
  String.join (r.leaves.map fun l => l.path ++ "\n")

/-- The same tree with another separator. -/
def resolve (r : Resolved) (separator : String) : Resolved :=
  r.roots.resolve separator

/-- The children of the node at some indexes, as a tree of their own. -/
def take? (r : Resolved) (indexes : List Nat) : Option Resolved :=
  (r.roots.node? indexes).map fun n => Forest.resolve n.children r.separator

/-- All roots under one new container. -/
def wrap (r : Resolved) (label : String) : Resolved :=
  Forest.resolve [.container { label } r.roots] r.separator

/-- Equality of structure. -/
def equal (r s : Resolved) : Bool := r.roots.equal s.roots

end Resolved

end SpecForest

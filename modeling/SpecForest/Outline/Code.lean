import SpecForest.Outline.Item

/-!
# Generated code

The code of an outline makes one declaration for each item. Bodies get arguments by position, so the code
in front of a body binds each parameter that the body sees: a row of a table sees the parameters of the
table, and a leaf sees those of the innermost table of subtrees around it. `generateAll` decides which
bindings stand where; how the code is written is another matter.
-/

namespace SpecForest.Outline

/-- The name and the parameters of a table. -/
structure Signature where
  table : StringLiteral
  params : List Param

/-- Reads the argument at an index at the type of a parameter, and gives it the parameter's name. The
table is named if the argument has another type. -/
structure Binding where
  table : StringLiteral
  index : Nat
  param : Param

/-- The bindings of all parameters, in order. -/
def Signature.bindings (s : Signature) : List Binding :=
  s.params.zipIdx.map fun (param, index) => ⟨s.table, index, param⟩

/-- The unit of work of a leaf. -/
inductive UnitCode
  /-- A body that gets no arguments. -/
  | plain (body : Stream)
  /-- Bindings of arguments, then a body. -/
  | bound (bindings : List Binding) (body : Stream)

/-- The unit of work of a leaf inside a table of subtrees, or inside none. -/
def UnitCode.ofBody (around : Option Signature) (body : Stream) : UnitCode :=
  match around with
  | none => .plain body
  | some s => .bound s.bindings body

/-- The code of a declaration. -/
inductive Code
  | container (name : StringLiteral) (children : List Code)
  | leaf (name : StringLiteral) (unit : UnitCode)
  | table (name : StringLiteral) (arity : Nat) (rows : List Row) (bindings : List Binding)
      (body : Stream)
  | subtree (name : StringLiteral) (arity : Nat) (rows : List Row) (bindings : List Binding)
      (children : List Code)

mutual

/-- The code of an item, given the innermost table of subtrees around it. -/
def Item.generate (around : Option Signature) : Item → Code
  | .container name items => .container name (generateAll around items)
  | .leaf name body => .leaf name (.ofBody around body)
  | .table name params rows body =>
    .table name params.length rows (Signature.bindings ⟨name, params⟩) body
  | .subtree name params rows items =>
    .subtree name params.length rows (Signature.bindings ⟨name, params⟩)
      (generateAll (some ⟨name, params⟩) items)

/-- The code of all items, given the innermost table of subtrees around them. -/
def generateAll (around : Option Signature) : List Item → List Code
  | [] => []
  | item :: rest => item.generate around :: generateAll around rest

end

end SpecForest.Outline

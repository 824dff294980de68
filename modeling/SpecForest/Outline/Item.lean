import SpecForest.Outline.Language

/-!
# Items of an outline

An outline is a list of items: containers of items, leaves with a body, tables with typed parameters,
rows and a body, and tables whose rows each hold items. Bodies, types and values are kept as they stand in the
outline.
-/

namespace SpecForest.Outline

/-- A string literal: as it was written, and what it stands for. -/
structure StringLiteral where
  source : String
  value : String
  deriving DecidableEq

/-- A parameter of a table. -/
structure Param where
  name : String
  type : Stream

/-- A row of a table: perhaps a label, and values. -/
structure Row where
  label : Option StringLiteral
  values : List Stream

/-- An item of an outline. -/
inductive Item
  | container (name : StringLiteral) (items : List Item)
  | leaf (name : StringLiteral) (body : Stream)
  | table (name : StringLiteral) (params : List Param) (rows : List Row) (body : Stream)
  | subtree (name : StringLiteral) (params : List Param) (rows : List Row) (items : List Item)

/-! ## Brackets that hold too much -/

section

variable (lang : Language)

/-- The first brackets in the types of parameters that hold more than a type. -/
def paramsLeftover? (params : List Param) : Option Delimiter :=
  params.findSome? fun p => lang.types.leftover? p.type

/-- The first brackets in the values of rows that hold more than a value. -/
def rowsLeftover? (rows : List Row) : Option Delimiter :=
  rows.findSome? fun r => r.values.findSome? lang.values.leftover?

mutual

/-- The first brackets in an item that hold more than a type or a value. -/
def Item.leftover? : Item → Option Delimiter
  | .container _ items => itemsLeftover? items
  | .leaf _ _ => none
  | .table _ params rows _ => (paramsLeftover? lang params).or (rowsLeftover? lang rows)
  | .subtree _ params rows items =>
    ((paramsLeftover? lang params).or (rowsLeftover? lang rows)).or (itemsLeftover? items)

/-- The first brackets in items that hold more than a type or a value. -/
def itemsLeftover? : List Item → Option Delimiter
  | [] => none
  | item :: rest => item.leftover?.or (itemsLeftover? rest)

end

end

end SpecForest.Outline

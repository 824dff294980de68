import Mathlib.Data.List.Basic
import SpecForest.Outline.Code

/-!
# Places in an outline

An item is found at a place, which is given by child indexes, roots first. What the code of an item binds is told by
its place alone. A table binds its own parameters, and a leaf binds those of the innermost table of subtrees around it,
that is, at the longest proper prefix of its place where such a table stands.
-/

namespace SpecForest.Outline

/-! ## Places -/

/-- What is found at a place, given what stands below each element. -/
def descend? {α : Type} (below : α → List α) (as : List α) : List Nat → Option α
  | [] => none
  | [i] => as[i]?
  | i :: rest => as[i]?.bind fun a => descend? below (below a) rest

theorem descend?_cons_cons {α : Type} {below : α → List α} {as : List α} {i : Nat} {a : α} (h : as[i]? = some a)
    (j : Nat) (rest : List Nat) : descend? below as (i :: j :: rest) = descend? below (below a) (j :: rest) := by
  simp [descend?, h]

theorem descend?_eq_none {α : Type} {below : α → List α} {as : List α} {i : Nat} (h : as[i]? = none)
    (rest : List Nat) : descend? below as (i :: rest) = none := by
  cases rest <;> simp [descend?, h]

/-- The items inside an item. -/
def Item.items : Item → List Item
  | .container _ items => items
  | .leaf _ _ => []
  | .table _ _ _ _ => []
  | .subtree _ _ _ items => items

/-- The item at a place. -/
def itemAt? (items : List Item) (place : List Nat) : Option Item := descend? Item.items items place

theorem itemAt?_singleton (items : List Item) (i : Nat) : itemAt? items [i] = items[i]? := rfl

theorem itemAt?_cons_cons {items : List Item} {i : Nat} {parent : Item} (h : items[i]? = some parent) (j : Nat)
    (rest : List Nat) : itemAt? items (i :: j :: rest) = itemAt? parent.items (j :: rest) :=
  descend?_cons_cons h j rest

/-! ## The innermost table around a place -/

/-- At the place `outer` there is a table of subtrees, with a place inside it. -/
structure Encloses (items : List Item) (outer : List Nat) (table : Signature) (place : List Nat) : Prop where
  stands : ∃ rows below, itemAt? items outer = some (.subtree table.table table.params rows below)
  above : outer <+: place
  proper : outer ≠ place

/-- At the place `outer` there is the innermost table of subtrees around a place. -/
structure IsInnermost (items : List Item) (outer : List Nat) (table : Signature) (place : List Nat) : Prop where
  encloses : Encloses items outer table place
  innermost : ∀ other table', Encloses items other table' place → other <+: outer

/-- There is no table of subtrees around a place. -/
def IsFree (items : List Item) (place : List Nat) : Prop := ∀ outer table, ¬ Encloses items outer table place

/-- A table around a place inside an item is the item itself, or it stands inside the item as well. -/
theorem encloses_cons_iff {items : List Item} {i j : Nat} {parent : Item} (h : items[i]? = some parent)
    {outer rest : List Nat} {table : Signature} :
    Encloses items outer table (i :: j :: rest) ↔
      (outer = [i] ∧ ∃ rows below, parent = .subtree table.table table.params rows below) ∨
        ∃ inner, outer = i :: inner ∧ Encloses parent.items inner table (j :: rest) := by
  constructor
  · rintro ⟨⟨rows, below, hat⟩, habove, hproper⟩
    cases outer with
    | nil => cases hat
    | cons k outer =>
      obtain ⟨rfl, hrest⟩ := List.cons_prefix_cons.mp habove
      cases outer with
      | nil =>
        rw [itemAt?_singleton, h] at hat
        cases hat
        exact .inl ⟨rfl, rows, below, rfl⟩
      | cons l outer =>
        rw [itemAt?_cons_cons h] at hat
        refine .inr ⟨l :: outer, rfl, ⟨rows, below, hat⟩, hrest, ?_⟩
        exact fun heq => hproper (by rw [heq])
  · rintro (⟨rfl, rows, below, rfl⟩ | ⟨inner, rfl, ⟨rows, below, hat⟩, habove, hproper⟩)
    · exact ⟨⟨rows, below, by rw [itemAt?_singleton, h]⟩, by simp, by simp⟩
    · cases inner with
      | nil => cases hat
      | cons l inner =>
        refine ⟨⟨rows, below, by rw [itemAt?_cons_cons h, hat]⟩, ?_, ?_⟩
        · exact List.cons_prefix_cons.mpr ⟨rfl, habove⟩
        · exact fun heq => hproper (List.cons.inj heq).2

theorem IsInnermost.cons {items : List Item} {i j : Nat} {parent : Item} (h : items[i]? = some parent)
    {inner rest : List Nat} {table : Signature} (hinner : IsInnermost parent.items inner table (j :: rest)) :
    IsInnermost items (i :: inner) table (i :: j :: rest) where
  encloses := (encloses_cons_iff h).mpr (.inr ⟨inner, rfl, hinner.encloses⟩)
  innermost other table' hother := by
    rcases (encloses_cons_iff h).mp hother with ⟨rfl, -⟩ | ⟨inner', rfl, hinside⟩
    · exact List.cons_prefix_cons.mpr ⟨rfl, List.nil_prefix⟩
    · exact List.cons_prefix_cons.mpr ⟨rfl, hinner.innermost inner' table' hinside⟩

/-- Around a place where no table stands further inside, a table of subtrees is the innermost. -/
theorem IsInnermost.of_isFree {items : List Item} {i j : Nat} {table : Signature} {rows : List Row}
    {below : List Item} (h : items[i]? = some (.subtree table.table table.params rows below)) {rest : List Nat}
    (hfree : IsFree below (j :: rest)) : IsInnermost items [i] table (i :: j :: rest) where
  encloses := (encloses_cons_iff h).mpr (.inl ⟨rfl, rows, below, rfl⟩)
  innermost other table' hother := by
    rcases (encloses_cons_iff h).mp hother with ⟨rfl, -⟩ | ⟨inner', rfl, hinside⟩
    · exact List.prefix_rfl
    · exact absurd hinside (hfree inner' table')

theorem IsFree.cons {items : List Item} {i j : Nat} {parent : Item} (h : items[i]? = some parent)
    (hparent : ∀ name params rows below, parent ≠ .subtree name params rows below) {rest : List Nat}
    (hfree : IsFree parent.items (j :: rest)) : IsFree items (i :: j :: rest) := by
  intro outer table houter
  rcases (encloses_cons_iff h).mp houter with ⟨-, rows, below, hsubtree⟩ | ⟨inner, -, hinside⟩
  · exact hparent _ _ _ _ hsubtree
  · exact hfree inner table hinside

/-- What is known inside an item when its code is generated. -/
def Item.inside (around : Option Signature) : Item → Option Signature
  | .subtree name params _ _ => some ⟨name, params⟩
  | _ => around

/-- The table whose parameters are in force at a place: the innermost one around it, or the one that is in force around
all the items. -/
def InForce (items : List Item) (around : Option Signature) (place : List Nat) (scope : Option Signature) : Prop :=
  (∃ outer table, IsInnermost items outer table place ∧ scope = some table) ∨ (IsFree items place ∧ scope = around)

theorem InForce.cons {items : List Item} {i j : Nat} {parent : Item} (h : items[i]? = some parent)
    {around scope : Option Signature} {rest : List Nat}
    (hscope : InForce parent.items (parent.inside around) (j :: rest) scope) :
    InForce items around (i :: j :: rest) scope := by
  rcases hscope with ⟨inner, table, hinner, rfl⟩ | ⟨hfree, rfl⟩
  · exact .inl ⟨i :: inner, table, hinner.cons h, rfl⟩
  · cases parent with
    | subtree name params rows below => exact .inl ⟨[i], ⟨name, params⟩, IsInnermost.of_isFree h hfree, rfl⟩
    | container name below => exact .inr ⟨hfree.cons h nofun, rfl⟩
    | leaf name body => exact .inr ⟨hfree.cons h nofun, rfl⟩
    | table name params rows body => exact .inr ⟨hfree.cons h nofun, rfl⟩

/-! ## Which table is bound where -/

/-- The parameters of the table at the place `outer` are bound in the code at a place. A table binds its own parameters,
and a leaf those of the innermost table of subtrees around it. -/
inductive Binds (items : List Item) : (outer : List Nat) → (table : Signature) → (place : List Nat) → Prop
  | table {place : List Nat} {name : StringLiteral} {params : List Param} {rows : List Row} {body : Stream}
      (h : itemAt? items place = some (.table name params rows body)) : Binds items place ⟨name, params⟩ place
  | subtree {place : List Nat} {name : StringLiteral} {params : List Param} {rows : List Row} {below : List Item}
      (h : itemAt? items place = some (.subtree name params rows below)) : Binds items place ⟨name, params⟩ place
  | leaf {outer place : List Nat} {table : Signature} {name : StringLiteral} {body : Stream}
      (h : itemAt? items place = some (.leaf name body)) (hinnermost : IsInnermost items outer table place) :
      Binds items outer table place

end SpecForest.Outline

import SpecForest.Outline.Plain
import SpecForest.Proofs.Outline.Inspection
import SpecForest.Proofs.Outline.Places
import SpecForest.Proofs.Outline.Written

/-!
# Where generated code binds parameters

The code of an item stands in the code of the item around it, so that it is found by the item's place when one looks
into the tokens. What its blocks define, which functions it calls and how often `let` occurs in it is read off there,
and set against what the place of the item says.
-/

namespace SpecForest.Outline

/-! ## Code in its places -/

/-- The code of the items inside an item, as it is found in the item's code: the elements of the list with which a
container is made, or of the one that the body of a table of subtrees defines. -/
def below (t : Stream) : List Stream :=
  match within [["spectree", "Declaration", "container"]] t with
  | some inner => (lists inner).flatMap elements
  | none =>
    match within [["spectree", "Declaration", "Table"], ["spectree", "TableSpec", "new"],
        ["spectree", "TableBody", "Subtree"], ["spectree", "SubtreeBody", "new"]] t with
    | some function => (blocks function).flatMap listDefined
    | none => []

/-- The code of all items, as it is found in the code of an outline. -/
def declared (code : Stream) : List Stream := (blocks code).flatMap listDefined

section

variable (lang : Language)

/-- The names that the bindings of a table define, in order, each with the index of the argument that it gets. -/
def Signature.lets (s : Signature) : List (String × Option String) :=
  s.params.zipIdx.map fun (p, i) => (p.name, some (toString i ++ "usize"))

/-- The rows of a table. -/
def Item.rows : Item → List Row
  | .container _ _ => []
  | .leaf _ _ => []
  | .table _ _ rows _ => rows
  | .subtree _ _ rows _ => rows

/-- The body of a leaf or of a table. -/
def Item.body : Item → Stream
  | .container _ _ => []
  | .leaf _ body => body
  | .table _ _ _ body => body
  | .subtree _ _ _ _ => []

end

/-! ## Items that are what they should be -/

section

variable {IsType IsValue : Stream → Prop}

theorem allValid_iff_forall {items : List Item} :
    allValid IsType IsValue items ↔ ∀ item ∈ items, item.Valid IsType IsValue := by
  induction items with
  | nil => simp [allValid]
  | cons item rest ih => rw [allValid, ih, List.forall_mem_cons]

theorem Item.Valid.items {item : Item} (h : item.Valid IsType IsValue) : allValid IsType IsValue item.items := by
  cases item with
  | container name items => exact h.2
  | leaf name body => trivial
  | table name params rows body => trivial
  | subtree name params rows items => exact h.2.2.2

theorem valid_of_itemAt? {items : List Item} (hvalid : allValid IsType IsValue items) {place : List Nat} {item : Item}
    (h : itemAt? items place = some item) : item.Valid IsType IsValue := by
  induction place generalizing items with
  | nil => cases h
  | cons i rest ih =>
    cases hi : items[i]? with
    | none => rw [itemAt?, descend?_eq_none hi] at h; cases h
    | some parent =>
      have hparent : parent.Valid IsType IsValue := allValid_iff_forall.mp hvalid parent (List.mem_of_getElem? hi)
      cases rest with
      | nil =>
        rw [itemAt?_singleton, hi] at h
        cases h
        exact hparent
      | cons j rest =>
        rw [itemAt?_cons_cons hi] at h
        exact ih hparent.items h

/-- The parameters that are bound anywhere are what they should be. -/
theorem Binds.valid {items : List Item} (hvalid : allValid IsType IsValue items) {outer place : List Nat}
    {table : Signature} (h : Binds items outer table place) : ∀ p ∈ table.params, p.Valid IsType := by
  cases h with
  | table hat => exact (valid_of_itemAt? hvalid hat).2.1
  | subtree hat => exact (valid_of_itemAt? hvalid hat).2.1
  | leaf hat hinnermost =>
    obtain ⟨rows, below, houter⟩ := hinnermost.encloses.stands
    exact (valid_of_itemAt? hvalid houter).2.1

end

end SpecForest.Outline

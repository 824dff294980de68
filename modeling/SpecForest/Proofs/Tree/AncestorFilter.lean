import SpecForest.Proofs.Tree.Resolution
import Mathlib.Data.List.Forall2

/-!
# Filtering by the label of an ancestor

The filter by ancestor reads paths, and never looks at the tree. What it finds is nevertheless told by the tree alone:
the leaves in places strictly below a node of that label, from left to right. Neither the separator nor the labels of
the leaves themselves have a part in it.

A place is given by child indexes, roots first. Places are compared by their first difference, so a smaller place stands
further to the left.
-/

namespace SpecForest

/-! ## Leaves in their places -/

/-- The leaf that a node is. -/
def Node.leaf? : Node → Option Leaf
  | .container _ _ => none
  | .leaf head body arguments => some ⟨head, body, arguments⟩

namespace Forest

/-- The leaf at a place. -/
def leaf? (f : Forest) (place : List Nat) : Option Leaf :=
  (f.node? place).bind Node.leaf?

/-- A place is strictly below a node with a label. -/
def Below (f : Forest) (label : String) (place : List Nat) : Prop :=
  ∃ above rest n, place = above ++ rest ∧ rest ≠ [] ∧ f.node? above = some n ∧ n.label = label

theorem node?_cons {f : Forest} {i : Nat} {n : Node} (hn : f[i]? = some n) {rest : List Nat} (hrest : rest ≠ []) :
    f.node? (i :: rest) = Forest.node? n.children rest := by
  cases rest with
  | nil => exact absurd rfl hrest
  | cons j rest => rw [node?, hn, Option.bind_some]; simp

theorem ne_nil_of_leaf? {f : Forest} {place : List Nat} {l : Leaf} (h : f.leaf? place = some l) : place ≠ [] := by
  rintro rfl
  cases h

/-- A leaf stands at the root of a forest, or below a container. -/
theorem leaf?_cons_iff {f : Forest} {i : Nat} {rest : List Nat} {l : Leaf} :
    f.leaf? (i :: rest) = some l ↔
      (rest = [] ∧ f[i]? = some (.leaf l.head l.body l.arguments)) ∨
        ∃ head children, f[i]? = some (.container head children) ∧ Forest.leaf? children rest = some l := by
  cases hn : f[i]? with
  | none => cases rest <;> simp [leaf?, node?, hn]
  | some n =>
    cases rest with
    | nil =>
      cases n with
      | container head children => simp [leaf?, node?, hn, Node.leaf?]
      | leaf head body arguments => cases l; simp [leaf?, node?, hn, Node.leaf?]
    | cons j rest =>
      rw [leaf?, node?_cons hn (List.cons_ne_nil j rest)]
      cases n with
      | container head children => simp [leaf?, Node.children]
      | leaf head body arguments => cases rest <;> simp [Node.children, node?]

end Forest

/-! ## Places from left to right -/

mutual

/-- The places of the leaves at or below a node that stands at an index. -/
def Node.places (i : Nat) : Node → List (List Nat)
  | .container _ children => (forestPlaces 0 children).map (i :: ·)
  | .leaf _ _ _ => [[i]]

/-- The places of the leaves of a forest, of which the first node stands at an index. -/
def forestPlaces (i : Nat) : List Node → List (List Nat)
  | [] => []
  | n :: rest => n.places i ++ forestPlaces (i + 1) rest

end

theorem mem_forestPlaces {i : Nat} {f : List Node} {place : List Nat} :
    place ∈ forestPlaces i f ↔ ∃ (j : Nat) (n : Node), f[j]? = some n ∧ place ∈ n.places (i + j) := by
  induction f generalizing i with
  | nil => simp [forestPlaces]
  | cons m rest ih =>
    rw [forestPlaces, List.mem_append, ih]
    constructor
    · rintro (h | ⟨j, n, hn, h⟩)
      · exact ⟨0, m, rfl, h⟩
      · exact ⟨j + 1, n, hn, by rwa [← Nat.add_assoc, Nat.add_right_comm]⟩
    · rintro ⟨j, n, hn, h⟩
      cases j with
      | zero =>
        cases hn
        exact .inl h
      | succ j => exact .inr ⟨j, n, hn, by rwa [Nat.add_right_comm, Nat.add_assoc]⟩

/-- The places of a forest are those where a leaf stands. -/
theorem mem_forestPlaces_iff {f : Forest} {place : List Nat} :
    place ∈ forestPlaces 0 f ↔ ∃ l, f.leaf? place = some l := by
  induction place generalizing f with
  | nil =>
    have hnone : ∀ n : Node, ∀ i, [] ∉ n.places i := by
      intro n i
      cases n <;> simp [Node.places]
    simp [mem_forestPlaces, hnone, Forest.leaf?, Forest.node?]
  | cons i rest ih =>
    rw [mem_forestPlaces]
    simp only [Nat.zero_add, Forest.leaf?_cons_iff]
    constructor
    · rintro ⟨j, n, hn, h⟩
      cases n with
      | container head children =>
        obtain ⟨place, hplace, heq⟩ := List.mem_map.mp h
        obtain ⟨rfl, rfl⟩ := List.cons.inj heq
        obtain ⟨l, hl⟩ := ih.mp hplace
        exact ⟨l, .inr ⟨head, children, hn, hl⟩⟩
      | leaf head body arguments =>
        obtain ⟨rfl, rfl⟩ := List.cons.inj (List.mem_singleton.mp h)
        exact ⟨⟨head, body, arguments⟩, .inl ⟨rfl, hn⟩⟩
    · rintro ⟨l, ⟨rfl, hn⟩ | ⟨head, children, hn, hl⟩⟩
      · exact ⟨i, _, hn, List.mem_singleton_self _⟩
      · exact ⟨i, _, hn, List.mem_map_of_mem (ih.mpr ⟨l, hl⟩)⟩

mutual

theorem Node.pairwise_places (i : Nat) : ∀ n : Node, (n.places i).Pairwise (· < ·)
  | .container head children => by
    rw [Node.places, List.pairwise_map]
    exact (pairwise_forestPlaces 0 children).imp fun h => List.cons_lt_cons_iff.mpr (.inr ⟨rfl, h⟩)
  | .leaf head body arguments => by
    rw [Node.places]
    exact List.pairwise_singleton _ _

/-- Places come from left to right, each of them once. -/
theorem pairwise_forestPlaces (i : Nat) : ∀ f : List Node, (forestPlaces i f).Pairwise (· < ·)
  | [] => .nil
  | n :: rest => by
    refine List.pairwise_append.mpr ⟨n.pairwise_places i, pairwise_forestPlaces (i + 1) rest, ?_⟩
    -- the index of the first node is smaller than those of the others
    have hfirst : ∀ (m : Node) (j : Nat), ∀ place ∈ m.places j, ∃ q, place = j :: q := by
      intro m j place hplace
      cases m with
      | container head children =>
        obtain ⟨q, -, rfl⟩ := List.mem_map.mp hplace
        exact ⟨q, rfl⟩
      | leaf head body arguments => exact ⟨[], List.mem_singleton.mp hplace⟩
    intro p hp q hq
    obtain ⟨p, rfl⟩ := hfirst n i p hp
    obtain ⟨j, m, -, hq⟩ := mem_forestPlaces.mp hq
    obtain ⟨q, rfl⟩ := hfirst m _ q hq
    exact List.cons_lt_cons_iff.mpr (.inl (by omega))

end

mutual

theorem Node.forall₂_places {f : Forest} {i : Nat} :
    ∀ n : Node, f[i]? = some n → List.Forall₂ (fun place l => f.leaf? place = some l) (n.places i) n.leaves
  | .container head children, h => by
    rw [Node.places, Node.leaves, List.forall₂_map_left_iff]
    exact (forall₂_forestPlaces children rfl).imp fun place l hl =>
      Forest.leaf?_cons_iff.mpr (.inr ⟨head, children, h, hl⟩)
  | .leaf head body arguments, h => by
    rw [Node.places, Node.leaves]
    exact .cons (Forest.leaf?_cons_iff.mpr (.inl ⟨rfl, h⟩)) .nil

/-- The leaves of a forest stand at its places, one by one. -/
theorem forall₂_forestPlaces {f : Forest} {i : Nat} :
    ∀ g : List Node, f.drop i = g →
      List.Forall₂ (fun place l => f.leaf? place = some l) (forestPlaces i g) (Node.forestLeaves g)
  | [], _ => .nil
  | n :: rest, h => by
    have hn : f[i]? = some n := by rw [← List.head?_drop, h]; rfl
    have hrest : f.drop (i + 1) = rest := by rw [← List.tail_drop, h]; rfl
    exact List.rel_append (n.forall₂_places hn) (forall₂_forestPlaces rest hrest)

end

/-! ## Labels above a place -/

theorem Forest.below_cons {f : Forest} {i : Nat} {n : Node} (hn : f[i]? = some n) {rest : List Nat}
    (hrest : rest ≠ []) {label : String} :
    f.Below label (i :: rest) ↔ n.label = label ∨ Forest.Below n.children label rest := by
  constructor
  · rintro ⟨above, below, m, hsplit, hbelow, hm, hlabel⟩
    cases above with
    | nil => cases hm
    | cons j above =>
      obtain ⟨rfl, rfl⟩ := List.cons.inj hsplit
      cases above with
      | nil =>
        rw [Forest.node?, hn] at hm
        cases hm
        exact .inl hlabel
      | cons j above =>
        rw [Forest.node?_cons hn (List.cons_ne_nil j above)] at hm
        exact .inr ⟨j :: above, below, m, rfl, hbelow, hm, hlabel⟩
  · rintro (hlabel | ⟨above, below, m, rfl, hbelow, hm, hlabel⟩)
    · exact ⟨[i], rest, n, rfl, hrest, hn, hlabel⟩
    · have habove : above ≠ [] := by
        rintro rfl
        cases hm
      exact ⟨i :: above, below, m, rfl, hbelow, by rw [Forest.node?_cons hn habove, hm], hlabel⟩

theorem Forest.not_below_root (f : Forest) (i : Nat) (label : String) : ¬ f.Below label [i] := by
  rintro ⟨above, below, m, hsplit, hbelow, hm, -⟩
  cases above with
  | nil => cases hm
  | cons j above =>
    obtain ⟨-, hnil⟩ := List.cons.inj hsplit
    exact hbelow (List.append_eq_nil_iff.mp hnil.symm).2

theorem Forest.labelsTo_ne_nil {f : Forest} {place : List Nat} {l : Leaf} (h : f.leaf? place = some l) :
    f.labelsTo place ≠ [] := by
  cases place with
  | nil => cases h
  | cons i rest =>
    rcases Forest.leaf?_cons_iff.mp h with ⟨-, hn⟩ | ⟨head, children, hn, -⟩
    · simp [Forest.labelsTo, hn]
    · simp [Forest.labelsTo, hn]

theorem Forest.dropLast_labelsTo_cons {f : Forest} {i : Nat} {head : Header} {children : List Node}
    (hn : f[i]? = some (.container head children)) {rest : List Nat} {l : Leaf}
    (hl : Forest.leaf? children rest = some l) :
    (f.labelsTo (i :: rest)).dropLast = head.label :: (Forest.labelsTo children rest).dropLast := by
  have hcons : f.labelsTo (i :: rest) = head.label :: Forest.labelsTo children rest := by
    rw [Forest.labelsTo, hn]
    rfl
  rw [hcons, List.dropLast_cons_of_ne_nil (Forest.labelsTo_ne_nil hl)]

/-- The labels on the way to a leaf, without its own, are those of the nodes that it is strictly below. -/
theorem Forest.mem_dropLast_labelsTo {f : Forest} {place : List Nat} {l : Leaf} (h : f.leaf? place = some l)
    {label : String} : label ∈ (f.labelsTo place).dropLast ↔ f.Below label place := by
  induction place generalizing f with
  | nil => cases h
  | cons i rest ih =>
    rcases Forest.leaf?_cons_iff.mp h with ⟨rfl, hn⟩ | ⟨head, children, hn, hl⟩
    · have hnone : (f.labelsTo [i]).dropLast = [] := by simp [Forest.labelsTo, hn]
      simp [hnone, f.not_below_root]
    · rw [Forest.dropLast_labelsTo_cons hn hl, Forest.below_cons hn (Forest.ne_nil_of_leaf? hl), List.mem_cons, ih hl,
        eq_comm]
      rfl

/-- In a resolved tree, the ancestors in the path of a leaf are the labels on the way to it. -/
theorem ancestors_of_leaf?_resolve {f : Forest} {separator : String} {place : List Nat} {l : Leaf}
    (h : (f.resolve separator).roots.leaf? place = some l) :
    l.head.path.ancestors = (f.labelsTo place).dropLast := by
  obtain ⟨m, hm, hleaf⟩ := Option.bind_eq_some_iff.mp h
  rcases node?_resolveForest separator f place with ⟨-, hnone⟩ | ⟨n, way, -, hlabels, -, hresolved⟩
  · rw [Forest.resolve, hnone] at hm
    cases hm
  · rw [Forest.resolve, hresolved] at hm
    cases hm
    have hhead : l.head = (n.resolve separator ([] ++ way)).head := by
      cases n with
      | container head children =>
        rw [Node.resolve] at hleaf
        cases hleaf
      | leaf head body arguments =>
        rw [Node.resolve] at hleaf ⊢
        cases hleaf
        rfl
    rw [hhead, n.head_resolve, hlabels]
    rfl

/-! ## The same containers -/

mutual

/-- Two nodes are equal in structure, and the labels of their containers agree. What leaves hold does not count, their
labels included. -/
inductive Node.SameContainers : Node → Node → Prop
  | container {head head' : Header} {children children' : List Node} (label : head.label = head'.label)
      (below : ForestSameContainers children children') :
      Node.SameContainers (.container head children) (.container head' children')
  | leaf {head head' : Header} {body body' : Body} {arguments arguments' : Option Arguments} :
      Node.SameContainers (.leaf head body arguments) (.leaf head' body' arguments')

/-- Two forests agree in all but what their leaves hold. -/
inductive ForestSameContainers : List Node → List Node → Prop
  | nil : ForestSameContainers [] []
  | cons {n m : Node} {f g : List Node} (first : n.SameContainers m) (rest : ForestSameContainers f g) :
      ForestSameContainers (n :: f) (m :: g)

end

mutual

theorem Node.SameContainers.refl : ∀ n : Node, n.SameContainers n
  | .container _ children => .container rfl (ForestSameContainers.refl children)
  | .leaf _ _ _ => .leaf

theorem ForestSameContainers.refl : ∀ f : List Node, ForestSameContainers f f
  | [] => .nil
  | n :: rest => .cons (Node.SameContainers.refl n) (ForestSameContainers.refl rest)

end

mutual

theorem Node.SameContainers.places_eq (i : Nat) :
    ∀ {n m : Node}, n.SameContainers m → m.places i = n.places i
  | _, _, .container _ below => by rw [Node.places, Node.places, below.places_eq 0]
  | _, _, .leaf => by rw [Node.places, Node.places]

/-- Where leaves stand is told by the structure. -/
theorem ForestSameContainers.places_eq (i : Nat) :
    ∀ {f g : List Node}, ForestSameContainers f g → forestPlaces i g = forestPlaces i f
  | _, _, .nil => rfl
  | _, _, .cons first rest => by rw [forestPlaces, forestPlaces, first.places_eq i, rest.places_eq (i + 1)]

end

mutual

theorem Node.SameContainers.resolve (separator : String) (above : List String) :
    ∀ {n m : Node}, n.SameContainers m → n.SameContainers (m.resolve separator above)
  | _, .container head _, .container label below => by
    rw [Node.resolve]
    exact .container label (below.resolve separator (above ++ [head.label]))
  | _, _, .leaf => by
    rw [Node.resolve]
    exact .leaf

/-- Resolving changes nothing about the containers. -/
theorem ForestSameContainers.resolve (separator : String) (above : List String) :
    ∀ {f g : List Node}, ForestSameContainers f g → ForestSameContainers f (resolveForest separator above g)
  | _, _, .nil => .nil
  | _, _, .cons first rest => .cons (first.resolve separator above) (rest.resolve separator above)

end

theorem ForestSameContainers.exists_leaf?_iff {f g : Forest} (h : ForestSameContainers f g) {place : List Nat} :
    (∃ l, g.leaf? place = some l) ↔ ∃ l, f.leaf? place = some l := by
  rw [← mem_forestPlaces_iff, ← mem_forestPlaces_iff, h.places_eq 0]

theorem ForestSameContainers.getElem? {f g : List Node} (h : ForestSameContainers f g) {i : Nat} {n : Node}
    (hn : f[i]? = some n) : ∃ m, g[i]? = some m ∧ n.SameContainers m := by
  induction i generalizing f g with
  | zero =>
    cases h with
    | nil => cases hn
    | cons first rest =>
      cases hn
      exact ⟨_, rfl, first⟩
  | succ i ih =>
    cases h with
    | nil => cases hn
    | cons first rest => exact ih rest hn

/-- The labels on the way to a leaf, without its own, are those of containers. -/
theorem ForestSameContainers.dropLast_labelsTo {f g : Forest} (h : ForestSameContainers f g) {place : List Nat}
    {l : Leaf} (hl : f.leaf? place = some l) : (g.labelsTo place).dropLast = (f.labelsTo place).dropLast := by
  induction place generalizing f g with
  | nil => cases hl
  | cons i rest ih =>
    rcases Forest.leaf?_cons_iff.mp hl with ⟨rfl, hn⟩ | ⟨head, children, hn, hl⟩
    · obtain ⟨m, hm, -⟩ := h.getElem? hn
      simp [Forest.labelsTo, hn, hm]
    · obtain ⟨m, hm, hsame⟩ := h.getElem? hn
      cases hsame with
      | container label below =>
        obtain ⟨l', hl'⟩ := below.exists_leaf?_iff.mpr ⟨l, hl⟩
        rw [Forest.dropLast_labelsTo_cons hn hl, Forest.dropLast_labelsTo_cons hm hl', ih below hl, label]

/-! ## What the filter finds -/

/-- The places of the leaves below a label, from left to right. -/
def Forest.placesBelow (f : Forest) (label : String) : List (List Nat) :=
  (forestPlaces 0 f).filter fun place => (f.labelsTo place).dropLast.contains label

theorem Forest.mem_placesBelow {f : Forest} {label : String} {place : List Nat} :
    place ∈ f.placesBelow label ↔ (∃ l, f.leaf? place = some l) ∧ f.Below label place := by
  rw [Forest.placesBelow, List.mem_filter, mem_forestPlaces_iff, List.contains_iff_mem]
  refine and_congr_right ?_
  rintro ⟨l, hl⟩
  exact Forest.mem_dropLast_labelsTo hl

/-- The leaves that the filter finds stand at the places below the label, one by one. -/
theorem ForestSameContainers.forall₂_placesBelow {f g : Forest} (h : ForestSameContainers f g)
    (separator label : String) :
    List.Forall₂ (fun place l => (g.resolve separator).roots.leaf? place = some l) (f.placesBelow label)
      ((g.resolve separator).filterByAncestor label) := by
  have hsame : ForestSameContainers f (g.resolve separator).roots := h.resolve separator []
  have hall : List.Forall₂ (fun place l => (g.resolve separator).roots.leaf? place = some l) (forestPlaces 0 f)
      (g.resolve separator).leaves := by
    rw [← hsame.places_eq 0]
    exact forall₂_forestPlaces _ rfl
  -- a leaf is kept for the labels above its place, which are those in its path
  refine List.rel_filter ?_ hall
  intro place l hl
  obtain ⟨l', hl'⟩ := hsame.exists_leaf?_iff.mp ⟨l, hl⟩
  have hancestors : l.head.path.ancestors = (f.labelsTo place).dropLast := by
    rw [ancestors_of_leaf?_resolve hl, h.dropLast_labelsTo hl']
  show _ ↔ l.head.path.ancestors.contains label = true
  rw [hancestors]

/-- For every label there are places such that the filter finds the leaves that stand there, each once and from left to
right. They are the places of leaves strictly below a node of that label. They are the same whatever the separator, and
whatever the leaves hold, their labels included. -/
theorem filterByAncestor_structural (f : Forest) (label : String) :
    ∃ places : List (List Nat), places.Pairwise (· < ·) ∧
      (∀ place, place ∈ places ↔ (∃ l, f.leaf? place = some l) ∧ f.Below label place) ∧
      (∀ separator, List.Forall₂ (fun place l => (f.resolve separator).roots.leaf? place = some l) places
        ((f.resolve separator).filterByAncestor label)) ∧
      ∀ g : Forest, ForestSameContainers f g → ∀ separator,
        List.Forall₂ (fun place l => (g.resolve separator).roots.leaf? place = some l) places
          ((g.resolve separator).filterByAncestor label) := by
  refine ⟨f.placesBelow label, ?_, fun place => Forest.mem_placesBelow, ?_, ?_⟩
  · exact (pairwise_forestPlaces 0 f).filter _
  · intro separator
    exact (ForestSameContainers.refl f).forall₂_placesBelow separator label
  · intro g h separator
    exact h.forall₂_placesBelow separator label

/-- Below a container without a label there is one whose label is a separator. A leaf in it is found for the empty
label, and so is the one that stands there in a tree with other leaves. A root without a label is not found. -/
theorem filterByAncestor_structural_empty_label :
    let forest (label : String) : Forest :=
      [.container { label := "" } [.container { label := " > " } [.leaf { label } ⟨default, .noop⟩ none]],
        .leaf { label := "" } ⟨default, .noop⟩ none]
    ∃ places : List (List Nat), [0, 0, 0] ∈ places ∧ [1] ∉ places ∧
      List.Forall₂ (fun place l => ((forest "a").resolve " > ").roots.leaf? place = some l) places
        (((forest "a").resolve " > ").filterByAncestor "") ∧
      List.Forall₂ (fun place l => ((forest "").resolve "/").roots.leaf? place = some l) places
        (((forest "").resolve "/").filterByAncestor "") := by
  intro forest
  obtain ⟨places, -, hplaces, hsame, hothers⟩ := filterByAncestor_structural (forest "a") ""
  refine ⟨places, ?_, ?_, hsame " > ", hothers (forest "") ?_ "/"⟩
  · exact (hplaces _).mpr ⟨⟨_, rfl⟩, [0], [0, 0], _, rfl, by decide, rfl, rfl⟩
  · intro hmem
    exact (forest "a").not_below_root 1 "" ((hplaces _).mp hmem).2
  · exact .cons (.container rfl (.cons (.container rfl (.cons .leaf .nil)) .nil)) (.cons .leaf .nil)

end SpecForest

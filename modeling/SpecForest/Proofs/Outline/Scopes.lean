import Mathlib
import SpecForest.Outline.Typed
import SpecForest.Proofs.Outline.Bindings
import SpecForest.Proofs.Tree.Cursor

/-!
# The scopes of an outline and the arguments of its leaves

Which parameters the body of a leaf sees is decided when code is generated, and which arguments it gets is
decided when the tree is built. Here both are read off the outline itself, by one recursion that carries the
row in force: the leaves of the built tree are those of the outline, one by one, and each gets as many
arguments as its code reads, from the table whose parameters its code binds. What a leaf inside a table of
subtrees binds has been bound before, when the row was expanded, so it can always be bound.
-/

namespace SpecForest.Outline

/-! ## The leaves of an outline -/

/-- What gives a leaf its arguments. -/
inductive Giver
  /-- Nothing: the leaf stands outside every table. -/
  | none
  /-- A row of the leaf's own table. -/
  | row (table : Signature) (args : Arguments)
  /-- A row of the innermost table of subtrees around the leaf. -/
  | subtree (table : Signature) (args : Arguments)

/-- A leaf that an outline asks for. -/
structure OutlineLeaf where
  label : String
  body : Stream
  giver : Giver

mutual

/-- The leaves of an item, given what gives arguments to a leaf that stands here. A table leaves nothing if a
row has too few or too many values, and a table of subtrees also if a row cannot be read at its parameters. -/
def Item.leaves (host : Host) (env : Environment host.Datum) (giver : Giver) : Item → List OutlineLeaf
  | .container _ items => allLeaves host env giver items
  | .leaf name body => [⟨name.value, body, giver⟩]
  | .table name params rows body =>
    if ∀ r ∈ rows, r.values.length = params.length then
      rows.map fun r =>
        ⟨(r.entry host env).description, body, .row ⟨name, params⟩ (r.arguments host env)⟩
    else []
  | .subtree name params rows items =>
    if ∀ r ∈ rows, (readParams? host params (r.arguments host env)).isSome then
      rows.flatMap fun r =>
        match readParams? host params (r.arguments host env) with
        | none => []
        | some inner => allLeaves host inner (.subtree ⟨name, params⟩ (r.arguments host env)) items
    else []

/-- The leaves of some items. -/
def allLeaves (host : Host) (env : Environment host.Datum) (giver : Giver) :
    List Item → List OutlineLeaf
  | [] => []
  | item :: rest => item.leaves host env giver ++ allLeaves host env giver rest

end

/-- The unit of work that a leaf asks for: its body alone, or behind the bindings of the table that gives it
arguments. -/
def OutlineLeaf.code (x : OutlineLeaf) : UnitCode :=
  match x.giver with
  | .none => .plain x.body
  | .row table _ => .bound table.bindings x.body
  | .subtree table _ => .bound table.bindings x.body

mutual

/-- The units of work that stand in code. -/
def Code.units : Code → List UnitCode
  | .container _ children => allUnits children
  | .leaf _ unit => [unit]
  | .table _ _ _ bindings body => [.bound bindings body]
  | .subtree _ _ _ _ children => allUnits children

/-- The units of work that stand in some code. -/
def allUnits : List Code → List UnitCode
  | [] => []
  | c :: rest => c.units ++ allUnits rest

end

/-- A leaf of a tree is one that an outline asks for. -/
structure OutlineLeaf.Describes (host : Host) (x : OutlineLeaf) (l : Leaf) : Prop where
  label_eq : l.head.label = x.label
  work_eq : l.body.work = x.code.work host
  /-- Outside every table there are no arguments, and none is read. -/
  unbound : x.giver = .none → l.arguments = none ∧ x.code.reads = []
  /-- The arguments of a row are as many as its table has parameters, and are read for these, each at its own
  index. -/
  bound : ∀ table args, x.giver = .row table args ∨ x.giver = .subtree table args →
    l.arguments = some args ∧ args.length = table.params.length ∧
      x.code.reads = table.params.zip (List.range args.length) ∧
      ∀ index count, defineAll host args table.bindings ≠ .error (.missing index count)
  /-- Inside a table of subtrees every argument has the type of its parameter, and the body runs. -/
  converts : ∀ table args, x.giver = .subtree table args →
    ∃ env, readParams? host table.params args = some env ∧ l.invoke = host.run env x.body

/-- The arguments that are bound here. -/
def Giver.arguments? : Giver → Option Arguments
  | none => .none
  | row _ args => some args
  | subtree _ args => some args

/-- The table of subtrees around a place. -/
def Giver.around : Giver → Option Signature
  | subtree table _ => some table
  | _ => .none

/-- What can give arguments to a leaf that stands here: nothing, or a row that could be read. -/
def Giver.Ready (host : Host) : Giver → Prop
  | none => True
  | row _ _ => False
  | subtree table args => ∃ env, readParams? host table.params args = some env

/-! ## The code of a leaf -/

/-- The unit of work that a leaf asks for is the one that is generated where it stands. -/
theorem OutlineLeaf.code_eq_ofBody {host : Host} {giver : Giver} (h : giver.Ready host) (label : String)
    (body : Stream) : OutlineLeaf.code ⟨label, body, giver⟩ = .ofBody giver.around body := by
  cases giver with
  | none => rfl
  | row table args => exact h.elim
  | subtree table args => rfl

mutual

theorem Item.code_mem_units {host : Host} (item : Item) {env : Environment host.Datum} {giver : Giver}
    (h : giver.Ready host) {x : OutlineLeaf} (hx : x ∈ item.leaves host env giver) :
    x.code ∈ (item.generate giver.around).units := by
  cases item with
  | container name items =>
    rw [Item.leaves] at hx
    rw [Item.generate, Code.units]
    exact code_mem_allUnits items h hx
  | leaf name body =>
    rw [Item.leaves, List.mem_singleton] at hx
    rw [hx, OutlineLeaf.code_eq_ofBody h, Item.generate, Code.units]
    exact List.mem_singleton_self _
  | table name params rows body =>
    rw [Item.leaves] at hx
    rw [Item.generate, Code.units, List.mem_singleton]
    split at hx
    · obtain ⟨r, -, rfl⟩ := List.mem_map.mp hx
      rfl
    · cases hx
  | subtree name params rows items =>
    rw [Item.leaves] at hx
    rw [Item.generate, Code.units]
    split at hx
    · obtain ⟨r, -, hr⟩ := List.mem_flatMap.mp hx
      cases hinner : readParams? host params (r.arguments host env) with
      | none => simp [hinner] at hr
      | some inner =>
        simp only [hinner] at hr
        have hready : (Giver.subtree ⟨name, params⟩ (r.arguments host env)).Ready host := ⟨inner, hinner⟩
        exact code_mem_allUnits items hready hr
    · cases hx

theorem code_mem_allUnits {host : Host} (items : List Item) {env : Environment host.Datum} {giver : Giver}
    (h : giver.Ready host) {x : OutlineLeaf} (hx : x ∈ allLeaves host env giver items) :
    x.code ∈ allUnits (generateAll giver.around items) := by
  cases items with
  | nil => cases hx
  | cons item rest =>
    rw [allLeaves, List.mem_append] at hx
    rw [generateAll, allUnits, List.mem_append]
    rcases hx with hx | hx
    · exact .inl (Item.code_mem_units item h hx)
    · exact .inr (code_mem_allUnits rest h hx)

end

/-! ## Leaves with and without arguments -/

section

variable {host : Host}

/-- A row of a table, and the leaf that it makes. -/
theorem describes_row (label : String) (body : Stream) (table : Signature) {args : Arguments}
    (h : args.length = table.params.length) (origin : Option Origin) (id : BodyId) :
    OutlineLeaf.Describes host ⟨label, body, .row table args⟩
      ⟨{ label, origin }, ⟨id, boundWork host table.bindings body⟩, some args⟩ where
  label_eq := rfl
  work_eq := rfl
  unbound hnone := nomatch hnone
  bound table' args' hgiver := by
    obtain ⟨rfl, rfl⟩ : table = table' ∧ args = args' := by simpa using hgiver
    exact ⟨rfl, h, table.reads_bindings body h, defineAll_ne_missing table h⟩
  converts _ _ hsubtree := nomatch hsubtree

theorem describes_free (label : String) (body : Stream) (id : BodyId) :
    OutlineLeaf.Describes host ⟨label, body, .none⟩ ⟨{ label }, ⟨id, fun _ => host.run [] body⟩, none⟩ where
  label_eq := rfl
  work_eq := rfl
  unbound _ := ⟨rfl, rfl⟩
  bound _ _ hgiver := by simp at hgiver
  converts _ _ hsubtree := nomatch hsubtree

/-- A leaf inside a table of subtrees, below a row that can be read. -/
theorem describes_subtree (label : String) (body : Stream) (table : Signature) {args : Arguments}
    {env : Environment host.Datum} (h : readParams? host table.params args = some env) (id : BodyId) :
    OutlineLeaf.Describes host ⟨label, body, .subtree table args⟩
      ⟨{ label }, ⟨id, boundWork host table.bindings body⟩, some args⟩ where
  label_eq := rfl
  work_eq := rfl
  unbound hnone := nomatch hnone
  bound table' args' hgiver := by
    obtain ⟨rfl, rfl⟩ : table = table' ∧ args = args' := by simpa using hgiver
    have hlength := length_of_readParams? h
    exact ⟨rfl, hlength, table.reads_bindings body hlength, defineAll_ne_missing table hlength⟩
  converts table' args' hgiver := by
    obtain ⟨rfl, rfl⟩ : table = table' ∧ args = args' := by simpa using hgiver
    refine ⟨env, h, ?_⟩
    simp [Leaf.invoke, boundWork, defineAll_of_readParams? table h]

/-! ## Tables of subtrees -/

/-- What the code of a table of subtrees does for a row. -/
def subtreeBody (host : Host) (bindings : List Binding) (children : List Code) : TableBody :=
  .record
    (fun args =>
      match defineAll host args bindings with
      | .error _ => []
      | .ok inner => declareAll host inner children)
    (fun args =>
      match defineAll host args bindings with
      | .error e => some (e.message host)
      | .ok _ => none)

theorem Code.declare_subtree (env : Environment host.Datum) (name : StringLiteral) (arity : Nat)
    (rows : List Row) (bindings : List Binding) (children : List Code) :
    (Code.subtree name arity rows bindings children).declare host env =
      .table name.value (some arity) (rows.map (Row.entry host env)) (subtreeBody host bindings children) := by
  rw [Code.declare]
  rfl

/-- A row that can be read declares what stands inside the table, with what has been read. -/
theorem subtreeBody_of_readParams? (table : Signature) (children : List Code) {args : Arguments}
    {env : Environment host.Datum} (h : readParams? host table.params args = some env) :
    (subtreeBody host table.bindings children).failure args = none ∧
      (subtreeBody host table.bindings children).declared args = declareAll host env children := by
  have hdefine := defineAll_of_readParams? table h
  simp [subtreeBody, TableBody.failure, TableBody.declared, hdefine]

/-- A row that cannot be read fails, with the first argument that has another type. -/
theorem subtreeBody_of_misread (table : Signature) (children : List Code) {args : Arguments}
    (hlength : args.length = table.params.length) (h : readParams? host table.params args = none) :
    ∃ index p v, Misread host table.params args index p v ∧
      (subtreeBody host table.bindings children).failure args =
        some ((BindingError.mismatch ⟨table.table, index, p⟩ v).message host) := by
  rcases defineAll_bindings host table hlength with ⟨env, henv, -⟩ | ⟨-, index, p, v, hmisread, hdefine⟩
  · rw [h] at henv
    cases henv
  · refine ⟨index, p, v, hmisread, ?_⟩
    simp [subtreeBody, TableBody.failure, hdefine]

/-- A table of subtrees is kept exactly if every row can be read. -/
theorem keeps_subtreeBody_iff (env : Environment host.Datum) (table : Signature) (rows : List Row)
    (children : List Code) :
    Keeps (some table.params.length) (rows.map (Row.entry host env))
        (subtreeBody host table.bindings children) ↔
      ∀ r ∈ rows, (readParams? host table.params (r.arguments host env)).isSome := by
  constructor
  · intro hkeeps r hr
    have hmem := List.mem_map_of_mem (f := Row.entry host env) hr
    have hlength := hkeeps.fits _ hmem
    have hsucceeds := hkeeps.succeeds _ hmem
    rw [Row.arguments_entry] at hlength hsucceeds
    rw [Option.isSome_iff_ne_none]
    intro hnone
    obtain ⟨_, _, _, -, hfails⟩ := subtreeBody_of_misread table children hlength hnone
    rw [hsucceeds] at hfails
    cases hfails
  · intro hread
    constructor
    · intro e he
      obtain ⟨r, hr, rfl⟩ := List.mem_map.mp he
      obtain ⟨inner, hinner⟩ := Option.isSome_iff_exists.mp (hread r hr)
      rw [Row.arguments_entry]
      exact length_of_readParams? hinner
    · intro e he
      obtain ⟨r, hr, rfl⟩ := List.mem_map.mp he
      obtain ⟨inner, hinner⟩ := Option.isSome_iff_exists.mp (hread r hr)
      rw [Row.arguments_entry]
      exact (subtreeBody_of_readParams? table children hinner).1

/-- The leaves below the rows of a table, row by row. -/
theorem forall₂_expandAll {R : OutlineLeaf → Leaf → Prop} {each : Nat → Entry → Built}
    {entry : Row → Entry} {pieces : Row → List OutlineLeaf} (label : String) (i : Nat) (rows : List Row)
    (h : ∀ j, ∀ r ∈ rows, List.Forall₂ R (pieces r) (Node.forestLeaves (each j (entry r)).nodes)) :
    List.Forall₂ R (rows.flatMap pieces)
      (Node.forestLeaves (expandAll label each i (rows.map entry)).nodes) := by
  induction rows generalizing i with
  | nil => exact .nil
  | cons r rest ih =>
    have hrest := ih (i + 1) fun j r' hr' => h j r' (List.mem_cons_of_mem r hr')
    have hfirst := h i r List.mem_cons_self
    simp only [List.flatMap_cons, List.map_cons, expandAll, Built.append, entryNode,
      Node.forestLeaves_append, Node.forestLeaves, Node.leaves, List.append_nil]
    exact List.rel_append hfirst hrest

/-- The leaves of a leaf table, row by row. -/
theorem forall₂_expandLeaves {R : OutlineLeaf → Leaf → Prop} {entry : Row → Entry} {piece : Row → OutlineLeaf}
    (label : String) (body : Body) (i : Nat) (rows : List Row)
    (h : ∀ r ∈ rows, ∀ origin, R (piece r)
      ⟨{ label := (entry r).description, origin }, body, some (entry r).arguments⟩) :
    List.Forall₂ R (rows.map piece) (Node.forestLeaves (((rows.map entry).zipIdx i).map fun (e, j) =>
      .leaf { label := e.description, origin := some ⟨label, j⟩ } body (some e.arguments))) := by
  induction rows generalizing i with
  | nil => exact .nil
  | cons r rest ih =>
    simp only [List.map_cons, List.zipIdx_cons, Node.forestLeaves, Node.leaves, List.singleton_append]
    exact .cons (h r List.mem_cons_self _) (ih (i + 1) fun r' hr' => h r' (List.mem_cons_of_mem r hr'))

/-! ## The tree of an outline -/

/-- A table that is not kept leaves no node. -/
theorem nodes_build_of_not_keeps {label : String} {arity : Option Nat} {entries : List Entry} {body : TableBody}
    (h : ¬ Keeps arity entries body) (s : Scope) :
    ((Declaration.table label arity entries body).build s).nodes = [] := by
  rcases keeps_or_drops label arity entries body with hkeeps | ⟨error, hdrops⟩
  · exact absurd hkeeps h
  · exact Declaration.nodes_build_of_drops s hdrops

/-- The leaves that are built for a table are those that it asks for. -/
theorem table_describes (env : Environment host.Datum) (giver : Giver) (s : Scope) (name : StringLiteral)
    (params : List Param) (rows : List Row) (body : Stream) :
    List.Forall₂ (OutlineLeaf.Describes host) ((Item.table name params rows body).leaves host env giver)
      (Node.forestLeaves
        ((((Item.table name params rows body).generate giver.around).declare host env).build s).nodes) := by
  have hfit := fitsArity_rows_iff env rows params.length
  rw [Item.leaves, Item.generate, Code.declare]
  by_cases hrows : ∀ r ∈ rows, r.values.length = params.length
  · rw [if_pos hrows, Declaration.build_leaves_of_fits s (hfit.mpr hrows)]
    refine forall₂_expandLeaves name.value _ 0 rows fun r hr origin => ?_
    have hlength : (r.arguments host env).length = params.length := by
      rw [Row.length_arguments, hrows r hr]
    rw [Row.arguments_entry]
    exact describes_row _ body ⟨name, params⟩ hlength origin s.bodyId
  · rw [if_neg hrows, nodes_build_of_not_keeps fun hkeeps => hrows (hfit.mp hkeeps.fits)]
    exact .nil

/-- The leaves that are built for a table of subtrees are those that it asks for, if this holds of what stands
inside it below every row that can be read. -/
theorem subtree_describes (env : Environment host.Datum) (giver : Giver) (s : Scope) (name : StringLiteral)
    (params : List Param) (rows : List Row) (items : List Item)
    (hbelow : ∀ inner args s', s'.arguments = some args → readParams? host params args = some inner →
      List.Forall₂ (OutlineLeaf.Describes host) (allLeaves host inner (.subtree ⟨name, params⟩ args) items)
        (Node.forestLeaves
          (buildSequence s' 0 (declareAll host inner (generateAll (some ⟨name, params⟩) items))).nodes)) :
    List.Forall₂ (OutlineLeaf.Describes host) ((Item.subtree name params rows items).leaves host env giver)
      (Node.forestLeaves
        ((((Item.subtree name params rows items).generate giver.around).declare host env).build s).nodes) := by
  have hkeep := keeps_subtreeBody_iff env ⟨name, params⟩ rows (generateAll (some ⟨name, params⟩) items)
  rw [Item.leaves, Item.generate, Code.declare_subtree]
  by_cases hrows : ∀ r ∈ rows, (readParams? host params (r.arguments host env)).isSome
  · rw [if_pos hrows, Declaration.build_subtree_of_keeps s rfl (hkeep.mpr hrows)]
    refine forall₂_expandAll name.value 0 rows fun j r hr => ?_
    obtain ⟨inner, hinner⟩ := Option.isSome_iff_exists.mp (hrows r hr)
    have hdeclared := subtreeBody_of_readParams? ⟨name, params⟩ (generateAll (some ⟨name, params⟩) items) hinner
    rw [TableBody.builtBelow, Row.arguments_entry, hdeclared.2]
    simp only [hinner]
    -- below a row, its own arguments are bound and its own data are seen
    exact hbelow inner (r.arguments host env) _ (TableBody.scope_arguments _ _ _ _) hinner
  · rw [if_neg hrows, nodes_build_of_not_keeps fun hkeeps => hrows (hkeep.mp hkeeps)]
    exact .nil

mutual

/-- The leaves that are built for an item are those that it asks for. -/
theorem Item.describes (item : Item) (env : Environment host.Datum) {giver : Giver} {s : Scope}
    (hargs : s.arguments = giver.arguments?) (hready : giver.Ready host) :
    List.Forall₂ (OutlineLeaf.Describes host) (item.leaves host env giver)
      (Node.forestLeaves (((item.generate giver.around).declare host env).build s).nodes) := by
  cases item with
  | container name items =>
    have hbelow := allLeaves_describes items env 0 hargs hready
    rw [Item.leaves, Item.generate, Code.declare, Declaration.build]
    simpa [Node.forestLeaves, Node.leaves] using hbelow
  | leaf name body =>
    rw [Item.leaves, Item.generate, Code.declare, Declaration.build, hargs]
    refine .cons ?_ .nil
    cases giver with
    | none => exact describes_free name.value body s.bodyId
    | row table args => exact hready.elim
    | subtree table args =>
      obtain ⟨inner, hinner⟩ := hready
      exact describes_subtree name.value body table hinner s.bodyId
  | table name params rows body => exact table_describes env giver s name params rows body
  | subtree name params rows items =>
    refine subtree_describes env giver s name params rows items fun inner args s' hs' hinner => ?_
    have hbound : s'.arguments = (Giver.subtree ⟨name, params⟩ args).arguments? := hs'
    exact allLeaves_describes items inner 0 hbound ⟨inner, hinner⟩

theorem allLeaves_describes (items : List Item) (env : Environment host.Datum) {giver : Giver} {s : Scope}
    (i : Nat) (hargs : s.arguments = giver.arguments?) (hready : giver.Ready host) :
    List.Forall₂ (OutlineLeaf.Describes host) (allLeaves host env giver items)
      (Node.forestLeaves (buildSequence s i (declareAll host env (generateAll giver.around items))).nodes) := by
  cases items with
  | nil => exact .nil
  | cons item rest =>
    have hfirst := Item.describes item env (s := s.child i) hargs hready
    have hrest := allLeaves_describes rest env (i + 1) hargs hready
    rw [allLeaves, generateAll, declareAll, buildSequence, Built.append, Node.forestLeaves_append]
    exact List.rel_append hfirst hrest

end

/-- A table of subtrees with a row that cannot be read is dropped for the first such row. -/
theorem Item.build_of_misread (env : Environment host.Datum) (around : Option Signature) (s : Scope)
    {name : StringLiteral} {params : List Param} {rows : List Row} (items : List Item) {index : Nat} {row : Row}
    (hlength : ∀ r ∈ rows, r.values.length = params.length) (hrow : rows[index]? = some row)
    (hnone : readParams? host params (row.arguments host env) = none)
    (hbefore : ∀ (j : Nat) (r : Row), j < index → rows[j]? = some r →
      readParams? host params (r.arguments host env) ≠ none) :
    ∃ k p v events, Misread host params (row.arguments host env) k p v ∧
      (((Item.subtree name params rows items).generate around).declare host env).build s =
        .dropped (.bodyFailed name.value index ((BindingError.mismatch ⟨name, k, p⟩ v).message host)) events := by
  let table : Signature := ⟨name, params⟩
  let body := subtreeBody host table.bindings (generateAll (some table) items)
  have hmem : row ∈ rows := List.mem_of_getElem? hrow
  have hcount : (row.arguments host env).length = table.params.length := by
    rw [Row.length_arguments, hlength row hmem]
  obtain ⟨k, p, v, hmisread, hmessage⟩ :=
    subtreeBody_of_misread table (generateAll (some table) items) hcount hnone
  have hfirst : IsFirst (fun e => body.failure e.arguments ≠ none) (rows.map (Row.entry host env)) index
      (row.entry host env) := by
    refine ⟨by rw [List.getElem?_map, hrow]; rfl, ?_, ?_⟩
    · rw [Row.arguments_entry, hmessage]
      exact Option.some_ne_none _
    · intro j e hj he
      rw [List.getElem?_map] at he
      obtain ⟨r, hr, rfl⟩ := Option.map_eq_some_iff.mp he
      obtain ⟨inner, hinner⟩ := Option.ne_none_iff_exists'.mp (hbefore j r hj hr)
      rw [Row.arguments_entry, (subtreeBody_of_readParams? table _ hinner).1]
      exact fun hne => hne rfl
  rw [← Row.arguments_entry] at hmessage
  have hdrops : Drops name.value (some params.length) (rows.map (Row.entry host env)) body _ :=
    .failed ((fitsArity_rows_iff env rows params.length).mpr hlength) hfirst hmessage
  obtain ⟨events, hbuild⟩ := Declaration.build_of_drops s hdrops
  refine ⟨k, p, v, events, hmisread, ?_⟩
  rw [Item.generate, Code.declare_subtree]
  exact hbuild

end

/-- The leaves of the tree of an outline are those that the outline asks for, in order, and their units of work
are generated for it. A leaf outside every
table is unbound and reads nothing; every other leaf is bound to a row, of its own table or of the innermost
table of subtrees around it, and reads for each parameter of that table the argument at its index; and inside
a table of subtrees the arguments can be read at the parameters, since a table with a row that cannot be read
is dropped, wherever it stands, for the first such row and its first argument of another type. -/
theorem leaves_build_declarations (host : Host) (env : Environment host.Datum) (items : List Item) :
    List.Forall₂ (OutlineLeaf.Describes host) (allLeaves host env .none items)
        (build (declarations host env items)).nodes.leaves ∧
      (∀ x ∈ allLeaves host env .none items, x.code ∈ allUnits (generateAll none items)) ∧
      ∀ (seen : Environment host.Datum) (around : Option Signature) (s : Scope) (name : StringLiteral)
        (params : List Param) (rows : List Row) (below : List Item) (index : Nat) (row : Row),
        (∀ r ∈ rows, r.values.length = params.length) → rows[index]? = some row →
        readParams? host params (row.arguments host seen) = none →
        (∀ (j : Nat) (r : Row), j < index → rows[j]? = some r →
          readParams? host params (r.arguments host seen) ≠ none) →
        ∃ k p v events, Misread host params (row.arguments host seen) k p v ∧
          (((Item.subtree name params rows below).generate around).declare host seen).build s =
            .dropped (.bodyFailed name.value index ((BindingError.mismatch ⟨name, k, p⟩ v).message host)) events := by
  have hready : Giver.none.Ready host := trivial
  refine ⟨?_, fun x hx => code_mem_allUnits items hready hx, ?_⟩
  · have hunbound : ({} : Scope).arguments = Giver.none.arguments? := rfl
    exact allLeaves_describes items env 0 hunbound hready
  · intro seen around s name params rows below index row hlength hrow hnone hbefore
    exact Item.build_of_misread seen around s below hlength hrow hnone hbefore

/-- A leaf outside, a leaf in a container inside a table of subtrees, and a row of a table in the same place;
and a table of subtrees of which the second row does not fit. Bodies log the names that they see. -/
theorem leaves_build_declarations_nested_tables :
    let host := typedHost fun env _ => { log := env.map Prod.fst }
    let number : Signature := ⟨⟨"\"t\"", "t"⟩, [⟨"n", [.word "i64"]⟩]⟩
    let truth : Signature := ⟨⟨"\"u\"", "u"⟩, [⟨"b", [.word "bool"]⟩]⟩
    let one : Row := ⟨none, [[.literal "1"]]⟩
    let yes : Row := ⟨none, [[.word "true"]]⟩
    let items : List Item := [.leaf ⟨"\"a\"", "a"⟩ [], .subtree number.table number.params [one]
      [.container ⟨"\"c\"", "c"⟩ [.leaf ⟨"\"d\"", "d"⟩ []], .table truth.table truth.params [yes] []]]
    (∃ a d u, (build (declarations host [] items)).nodes.leaves = [a, d, u] ∧ a.arguments = none ∧
      d.arguments = some [.int 1] ∧ d.invoke = { log := ["n"] } ∧ u.arguments = some [.bool true]) ∧
      ∃ events, (((Item.subtree number.table number.params [one, yes] []).generate none).declare host
          []).build {} =
        .dropped (.bodyFailed "t" 1
          ((BindingError.mismatch ⟨number.table, 0, ⟨"n", [.word "i64"]⟩⟩ (.bool true)).message host)) events := by
  intro host number truth one yes items
  have hall : allLeaves host [] .none items = [⟨"a", [], .none⟩, ⟨"d", [], .subtree number [.int 1]⟩,
      ⟨"Entry: true", [], .row truth [.bool true]⟩] := by cbv
  have hnames : (readParams? host number.params [.int 1]).map (·.map Prod.fst) = some ["n"] := by cbv
  have hread : (readParams? host number.params (one.arguments host [])).isSome = true := by cbv
  have hnone : readParams? host number.params (yes.arguments host []) = none := by cbv
  obtain ⟨hleaves, -, hdropped⟩ := leaves_build_declarations host [] items
  constructor
  · rw [hall] at hleaves
    obtain ⟨a, _, ha, hbehind, hlist⟩ := List.forall₂_cons_left_iff.mp hleaves
    obtain ⟨d, _, hd, hlast, rfl⟩ := List.forall₂_cons_left_iff.mp hbehind
    obtain ⟨u, _, hu, ⟨⟩, rfl⟩ := List.forall₂_cons_left_iff.mp hlast
    obtain ⟨env, henv, hinvoke⟩ := hd.converts number [.int 1] rfl
    have hseen : env.map Prod.fst = ["n"] := by simpa [henv] using hnames
    refine ⟨a, d, u, hlist, (ha.unbound rfl).1, (hd.bound number [.int 1] (.inr rfl)).1, ?_,
      (hu.bound truth [.bool true] (.inl rfl)).1⟩
    rw [hinvoke, ← hseen]
    rfl
  · have hlength : ∀ r ∈ [one, yes], r.values.length = number.params.length := by
      simp [one, yes, number]
    have hbefore : ∀ (j : Nat) (r : Row), j < 1 → [one, yes][j]? = some r →
        readParams? host number.params (r.arguments host []) ≠ none := by
      intro j r hj hr
      obtain rfl : j = 0 := by omega
      cases hr
      exact Option.isSome_iff_ne_none.mp hread
    obtain ⟨k, p, v, events, hmisread, hbuild⟩ :=
      hdropped [] none {} number.table number.params [one, yes] [] 1 yes hlength rfl hnone hbefore
    refine ⟨events, ?_⟩
    cases k with
    | zero =>
      have hvalue := hmisread.value
      rw [show yes.arguments host [] = [.bool true] by cbv] at hvalue
      cases hmisread.param
      cases hvalue
      exact hbuild
    | succ k => cases hmisread.param

end SpecForest.Outline

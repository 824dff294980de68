import SpecForest.Proofs.Tree.Cursor
import SpecForest.Proofs.Tree.Expansion
import SpecForest.Tree.Resolved

/-!
# The leaves of a suite, read off its declarations

Which leaves a suite has, with which labels above them, which arguments and which origin, can be told from
the declarations alone, by one recursion that carries the labels and the arguments in force. Building,
resolving and visiting with a cursor lists exactly these leaves, in order.
-/

namespace SpecForest

/-- What a list of leaves shows of each. -/
structure LeafRow where
  segments : List String
  arguments : Option Arguments
  origin : Option Origin
  deriving DecidableEq

/-- The row of a leaf in a resolved tree. -/
def Leaf.row (l : Leaf) : LeafRow :=
  ⟨l.head.path.segments, l.arguments, l.head.origin⟩

/-! ## Rows of declarations -/

instance (arity : Option Nat) (entries : List Entry) : Decidable (FitsArity arity entries) :=
  match arity with
  | some expected => inferInstanceAs (Decidable (∀ e ∈ entries, e.arguments.length = expected))
  | none => inferInstanceAs
      (Decidable (∀ e ∈ entries, ∀ f ∈ entries, e.arguments.length = f.arguments.length))

mutual

/-- The rows of a declaration, given the labels above it and the arguments in force. -/
def Declaration.leafRows (above : List String) (bound : Option Arguments) : Declaration → List LeafRow
  | .container label body => allLeafRows (above ++ [label]) bound body
  | .leaf label _ => [⟨above ++ [label], bound, none⟩]
  | .table label arity entries body =>
    if FitsArity arity entries then body.leafRows above label entries else []

/-- The rows of a table whose numbers of arguments are right. A body that fails for some entry leaves
none. -/
def TableBody.leafRows (above : List String) (label : String) (entries : List Entry) :
    TableBody → List LeafRow
  | .leaves _ => entries.zipIdx.map fun (e, i) =>
    ⟨above ++ [e.description], some e.arguments, some ⟨label, i⟩⟩
  | .replay template => entries.flatMap fun e =>
    allLeafRows (above ++ [e.description]) (some e.arguments) template
  | .record declared failure =>
    if ∀ e ∈ entries, failure e.arguments = none then
      entries.flatMap fun e =>
        allLeafRows (above ++ [e.description]) (some e.arguments) (declared e.arguments)
    else []

/-- The rows of a sequence of declarations. -/
def allLeafRows (above : List String) (bound : Option Arguments) : List Declaration → List LeafRow
  | [] => []
  | d :: rest => d.leafRows above bound ++ allLeafRows above bound rest

end

section

variable {label : String} {arity : Option Nat} {entries : List Entry} {body : TableBody}

theorem TableBody.leafRows_of_succeeds (above : List String) (hsub : body.isSubtree = true)
    (h : ∀ e ∈ entries, body.failure e.arguments = none) :
    body.leafRows above label entries = entries.flatMap fun e =>
      allLeafRows (above ++ [e.description]) (some e.arguments) (body.declared e.arguments) := by
  cases body with
  | leaves work => cases hsub
  | replay template =>
    rw [leafRows]
    rfl
  | record declared failure =>
    have hok : ∀ e ∈ entries, failure e.arguments = none := h
    rw [leafRows, if_pos hok]
    rfl

theorem Declaration.leafRows_of_drops {error : SpecError} (above : List String)
    (bound : Option Arguments) (h : Drops label arity entries body error) :
    (Declaration.table label arity entries body).leafRows above bound = [] := by
  rw [leafRows]
  split
  · rename_i hfits
    have hfail : ¬ ∀ e ∈ entries, body.failure e.arguments = none :=
      fun hok => h.not_keeps ⟨hfits, hok⟩
    cases body with
    | leaves work => exact absurd (fun _ _ => rfl) hfail
    | replay template => exact absurd (fun _ _ => rfl) hfail
    | record declared failure =>
      have hsome : ¬ ∀ e ∈ entries, failure e.arguments = none := hfail
      rw [TableBody.leafRows, if_neg hsome]
  · rfl

end

/-! ## Rows of a built forest -/

/-- The rows of a forest once it is resolved below some labels. -/
def forestRows (separator : String) (above : List String) (f : Forest) : List LeafRow :=
  (Node.forestLeaves (resolveForest separator above f)).map Leaf.row

theorem resolveForest_append (separator : String) (above : List String) (f g : List Node) :
    resolveForest separator above (f ++ g) =
      resolveForest separator above f ++ resolveForest separator above g := by
  induction f with
  | nil => rfl
  | cons n rest ih => simp only [List.cons_append, resolveForest, ih]

section

variable (separator : String) (above : List String)

@[simp] theorem forestRows_nil : forestRows separator above [] = [] := rfl

@[simp] theorem forestRows_append (f g : Forest) :
    forestRows separator above (f ++ g) =
      forestRows separator above f ++ forestRows separator above g := by
  simp only [forestRows, resolveForest_append, Node.forestLeaves_append, List.map_append]

@[simp] theorem forestRows_container (head : Header) (children rest : Forest) :
    forestRows separator above (.container head children :: rest) =
      forestRows separator (above ++ [head.label]) children ++ forestRows separator above rest := by
  simp [forestRows, resolveForest, Node.resolve, Node.forestLeaves, Node.leaves]

@[simp] theorem forestRows_leaf (head : Header) (body : Body) (arguments : Option Arguments)
    (rest : Forest) :
    forestRows separator above (.leaf head body arguments :: rest) =
      ⟨above ++ [head.label], arguments, head.origin⟩ :: forestRows separator above rest := by
  simp [forestRows, resolveForest, Node.resolve, Node.forestLeaves, Node.leaves, Leaf.row,
    Path.ofSegments]

end

theorem forestRows_expandLeaves (separator : String) (above : List String) (label : String) (body : Body)
    (entries : List Entry) :
    forestRows separator above (expandLeaves label body entries) =
      entries.zipIdx.map fun (e, i) => ⟨above ++ [e.description], some e.arguments, some ⟨label, i⟩⟩ := by
  unfold expandLeaves
  induction entries.zipIdx with
  | nil => rfl
  | cons p rest ih => simp [ih]

theorem forestRows_expandAll {separator : String} {above : List String} {each : Nat → Entry → Built}
    {rows : Entry → List LeafRow} (label : String) (i : Nat) (entries : List Entry)
    (h : ∀ j, ∀ e ∈ entries, forestRows separator (above ++ [e.description]) (each j e).nodes = rows e) :
    forestRows separator above (expandAll label each i entries).nodes = entries.flatMap rows := by
  induction entries generalizing i with
  | nil => rfl
  | cons e rest ih =>
    have hrest := ih (i + 1) fun j f hf => h j f (List.mem_cons_of_mem e hf)
    simp [expandAll, Built.append, entryNode, h i e List.mem_cons_self, hrest]

/-- From the declarations of a sequence to the sequence. -/
theorem forestRows_buildSequence_of_mem {separator : String} {ds : List Declaration}
    (h : ∀ d ∈ ds, ∀ (s : Scope) (above : List String),
      forestRows separator above (d.build s).nodes = d.leafRows above s.arguments)
    (s : Scope) (i : Nat) (above : List String) :
    forestRows separator above (buildSequence s i ds).nodes = allLeafRows above s.arguments ds := by
  induction ds generalizing i with
  | nil => rfl
  | cons d rest ih =>
    have hrest := ih (fun d' hd' => h d' (List.mem_cons_of_mem d hd')) (i + 1)
    rw [buildSequence, allLeafRows]
    simp only [Built.append, forestRows_append, hrest, h d List.mem_cons_self]
    rfl

theorem forestRows_build (separator : String) (d : Declaration) :
    ∀ (s : Scope) (above : List String),
      forestRows separator above (d.build s).nodes = d.leafRows above s.arguments := by
  induction d using Declaration.induct with
  | leaf label work =>
    intro s above
    simp [Declaration.build, Declaration.leafRows]
  | container label body ih =>
    intro s above
    simp [Declaration.build, Declaration.leafRows, forestRows_buildSequence_of_mem ih]
  | leaves label arity entries work =>
    intro s above
    rcases keeps_or_drops label arity entries (.leaves work) with hkeeps | ⟨error, hdrops⟩
    · rw [Declaration.build_leaves_of_fits s hkeeps.fits, Declaration.leafRows, if_pos hkeeps.fits,
        TableBody.leafRows, forestRows_expandLeaves]
    · rw [Declaration.nodes_build_of_drops s hdrops, Declaration.leafRows_of_drops above s.arguments hdrops,
        forestRows_nil]
  | subtree label arity entries body hsub ih =>
    intro s above
    rcases keeps_or_drops label arity entries body with hkeeps | ⟨error, hdrops⟩
    · rw [Declaration.build_subtree_of_keeps s hsub hkeeps, Declaration.leafRows, if_pos hkeeps.fits,
        TableBody.leafRows_of_succeeds above hsub hkeeps.succeeds]
      -- below an entry the arguments in force are its own, whatever they were around the table
      refine forestRows_expandAll label 0 entries fun j e _ => ?_
      rw [TableBody.builtBelow, forestRows_buildSequence_of_mem (ih e.arguments),
        TableBody.scope_arguments]
    · rw [Declaration.nodes_build_of_drops s hdrops, Declaration.leafRows_of_drops above s.arguments hdrops,
        forestRows_nil]

/-! ## Paths -/

mutual

theorem Node.path_of_mem_leaves_resolve (separator : String) (above : List String) :
    ∀ (n : Node), ∀ l ∈ (n.resolve separator above).leaves,
      l.path = separator.intercalate l.head.path.segments
  | .container head children, l, h => by
    rw [Node.resolve, Node.leaves] at h
    exact path_of_mem_leaves_resolveForest separator (above ++ [head.label]) children l h
  | .leaf head body arguments, l, h => by
    rw [Node.resolve, Node.leaves, List.mem_singleton] at h
    subst h
    rfl

theorem path_of_mem_leaves_resolveForest (separator : String) (above : List String) :
    ∀ (f : List Node), ∀ l ∈ Node.forestLeaves (resolveForest separator above f),
      l.path = separator.intercalate l.head.path.segments
  | [], l, h => absurd h List.not_mem_nil
  | n :: rest, l, h => by
    rw [resolveForest, Node.forestLeaves, List.mem_append] at h
    rcases h with h | h
    · exact Node.path_of_mem_leaves_resolve separator above n l h
    · exact path_of_mem_leaves_resolveForest separator above rest l h

end

/-! ## The leaf law -/

/-- The leaves that a cursor lists in the resolved tree of a suite are, one by one and in order, those that
the declarations say, and the text of each path is its labels with the separator between them. -/
theorem drain_resolve_build (ds : List Declaration) (separator : String) :
    (LeafCursor.start ((build ds).nodes.resolve separator).roots).drain.map Leaf.row =
        allLeafRows [] none ds ∧
      ((build ds).nodes.resolve separator).leaves.map Leaf.row = allLeafRows [] none ds ∧
      ∀ l ∈ (LeafCursor.start ((build ds).nodes.resolve separator).roots).drain,
        l.path = separator.intercalate l.head.path.segments := by
  have hrows : ((build ds).nodes.resolve separator).leaves.map Leaf.row = allLeafRows [] none ds :=
    forestRows_buildSequence_of_mem (fun d _ => forestRows_build separator d) {} 0 []
  rw [LeafCursor.drain_start]
  exact ⟨hrows, hrows, path_of_mem_leaves_resolveForest separator [] (build ds).nodes⟩

end SpecForest

import SpecForest.Proofs.Tree.Dropping

/-!
# Templates are expanded alike

A declaration is built to the same structure in every scope, and it reports the same errors. So the containers
that a subtree table makes from a template have equal children, as if the template had been built once, and
every error below them is reported once for each entry.

`Reaches` says which declarations a build comes to, and in which scope; what it builds from each of them is a
part of the whole.
-/

namespace SpecForest

/-! ## Equality of structure -/

namespace Node

theorem forestEqual_append {a a' b b' : List Node} (ha : forestEqual a a' = true)
    (hb : forestEqual b b' = true) : forestEqual (a ++ b) (a' ++ b') = true := by
  induction a generalizing a' with
  | nil =>
    cases a' with
    | nil => exact hb
    | cons m ms => cases ha
  | cons n ns ih =>
    cases a' with
    | nil => cases ha
    | cons m ms =>
      rw [forestEqual, Bool.and_eq_true] at ha
      rw [List.cons_append, List.cons_append, forestEqual, Bool.and_eq_true]
      exact ⟨ha.1, ih ha.2⟩

mutual

theorem leafCount_eq_of_equal : ∀ {n m : Node}, n.equal m = true → n.leafCount = m.leafCount
  | .container h cs, .container h' cs', heq => by
    rw [equal, Bool.and_eq_true] at heq
    rw [leafCount, leafCount]
    exact forestLeafCount_eq_of_equal heq.2
  | .leaf h body arguments, .leaf h' body' arguments', _ => rfl
  | .container h cs, .leaf h' body arguments, heq => by simp [equal] at heq
  | .leaf h body arguments, .container h' cs, heq => by simp [equal] at heq

/-- Forests of equal structure have as many leaves. -/
theorem forestLeafCount_eq_of_equal :
    ∀ {f g : List Node}, forestEqual f g = true → forestLeafCount f = forestLeafCount g
  | [], [], _ => rfl
  | [], m :: ms, heq => by simp [forestEqual] at heq
  | n :: ns, [], heq => by simp [forestEqual] at heq
  | n :: ns, m :: ms, heq => by
    rw [forestEqual, Bool.and_eq_true] at heq
    rw [forestLeafCount, forestLeafCount, leafCount_eq_of_equal heq.1, forestLeafCount_eq_of_equal heq.2]

end

end Node

theorem forestEqual_expandLeaves (label : String) (body body' : Body) (entries : List Entry) :
    Node.forestEqual (expandLeaves label body entries) (expandLeaves label body' entries) = true := by
  unfold expandLeaves
  induction entries.zipIdx with
  | nil => rfl
  | cons p rest ih => simp [Node.forestEqual, Node.equal, ih]

theorem forestEqual_expandAll {each each' : Nat → Entry → Built} (label : String) (i : Nat)
    (entries : List Entry)
    (h : ∀ j e, Node.forestEqual (each j e).nodes (each' j e).nodes = true) :
    Node.forestEqual (expandAll label each i entries).nodes (expandAll label each' i entries).nodes = true := by
  induction entries generalizing i with
  | nil => rfl
  | cons e rest ih =>
    simp only [expandAll, Built.append, entryNode, List.cons_append, List.nil_append, Node.forestEqual,
      Node.equal, beq_self_eq_true, Bool.true_and, Bool.and_eq_true]
    exact ⟨h i e, ih (i + 1)⟩

theorem forestEqual_buildSequence_of_mem {ds : List Declaration}
    (h : ∀ d ∈ ds, ∀ s s' : Scope, Node.forestEqual (d.build s).nodes (d.build s').nodes = true)
    (s s' : Scope) (i j : Nat) :
    Node.forestEqual (buildSequence s i ds).nodes (buildSequence s' j ds).nodes = true := by
  induction ds generalizing i j with
  | nil => rfl
  | cons d rest ih =>
    rw [buildSequence, buildSequence]
    exact Node.forestEqual_append (h d List.mem_cons_self (s.child i) (s'.child j))
      (ih (fun d' hd' => h d' (List.mem_cons_of_mem d hd')) (i + 1) (j + 1))

/-- A declaration is built to the same structure in every scope. -/
theorem forestEqual_build (d : Declaration) :
    ∀ s s' : Scope, Node.forestEqual (d.build s).nodes (d.build s').nodes = true := by
  induction d using Declaration.induct with
  | leaf label work =>
    intro s s'
    simp [Declaration.build, Node.forestEqual, Node.equal]
  | container label body ih =>
    intro s s'
    simp [Declaration.build, Node.forestEqual, Node.equal, forestEqual_buildSequence_of_mem ih s s' 0 0]
  | leaves label arity entries work =>
    intro s s'
    rcases keeps_or_drops label arity entries (.leaves work) with hkeeps | ⟨error, hdrops⟩
    · rw [Declaration.build_leaves_of_fits s hkeeps.fits, Declaration.build_leaves_of_fits s' hkeeps.fits]
      exact forestEqual_expandLeaves label ⟨s.bodyId, work⟩ ⟨s'.bodyId, work⟩ entries
    · rw [Declaration.nodes_build_of_drops s hdrops, Declaration.nodes_build_of_drops s' hdrops]
      rfl
  | subtree label arity entries body hsub ih =>
    intro s s'
    rcases keeps_or_drops label arity entries body with hkeeps | ⟨error, hdrops⟩
    · rw [Declaration.build_subtree_of_keeps s hsub hkeeps,
        Declaration.build_subtree_of_keeps s' hsub hkeeps]
      refine forestEqual_expandAll label 0 entries fun j e => ?_
      exact forestEqual_buildSequence_of_mem (ih e.arguments) _ _ 0 0
    · rw [Declaration.nodes_build_of_drops s hdrops, Declaration.nodes_build_of_drops s' hdrops]
      rfl

theorem forestEqual_buildSequence (ds : List Declaration) (s s' : Scope) (i j : Nat) :
    Node.forestEqual (buildSequence s i ds).nodes (buildSequence s' j ds).nodes = true :=
  forestEqual_buildSequence_of_mem (fun d _ => forestEqual_build d) s s' i j

/-- A sequence of declarations reports the same errors in every scope. -/
theorem errors_buildSequence (ds : List Declaration) (s s' : Scope) (i j : Nat) :
    (buildSequence s i ds).errors = (buildSequence s' j ds).errors :=
  (reportsAll_iff s' j ds _).mp ((reportsAll_iff s i ds _).mpr rfl)

/-! ## One container for each entry -/

/-- What a subtree table makes of its entries, if all of them have one template: as many containers, described
by the entries in order, each with the children that building the template once gives. -/
structure ExpandsUniformly (entries : List Entry) (template : List Declaration) (b : Built) : Prop where
  labels : b.nodes.map Node.label = entries.map Entry.description
  containers : ∀ n ∈ b.nodes, n.isLeaf = false
  children : ∀ n ∈ b.nodes, Forest.equal n.children (build template).nodes = true
  pairwise : ∀ n ∈ b.nodes, ∀ m ∈ b.nodes, Forest.equal n.children m.children = true
  leafCount : Forest.leafCount b.nodes = entries.length * Forest.leafCount (build template).nodes
  errors : b.errors = (List.replicate entries.length (build template).errors).flatten

section

variable {label : String} {each : Nat → Entry → Built} {entries : List Entry}

theorem map_label_expandAll (i : Nat) :
    (expandAll label each i entries).nodes.map Node.label = entries.map Entry.description := by
  induction entries generalizing i with
  | nil => rfl
  | cons e rest ih =>
    simp only [expandAll, Built.append, List.cons_append, List.nil_append, List.map_cons, ih (i + 1)]
    rfl

theorem exists_of_mem_expandAll {i : Nat} {n : Node} (h : n ∈ (expandAll label each i entries).nodes) :
    ∃ j e, n = entryNode label j e (each j e).nodes := by
  induction entries generalizing i with
  | nil => exact absurd h List.not_mem_nil
  | cons e rest ih =>
    rcases List.mem_cons.mp h with rfl | hrest
    · exact ⟨i, e, rfl⟩
    · exact ih hrest

theorem forestLeafCount_expandAll {k : Nat} (i : Nat)
    (h : ∀ j e, Node.forestLeafCount (each j e).nodes = k) :
    Node.forestLeafCount (expandAll label each i entries).nodes = entries.length * k := by
  induction entries generalizing i with
  | nil => simp [expandAll, Node.forestLeafCount]
  | cons e rest ih =>
    simp only [expandAll, Built.append, entryNode, List.cons_append, List.nil_append, Node.forestLeafCount,
      Node.leafCount, h, ih (i + 1), List.length_cons]
    rw [Nat.succ_mul, Nat.add_comm]

theorem errors_expandAll {errors : List SpecError} (i : Nat) (h : ∀ j e, (each j e).errors = errors) :
    (expandAll label each i entries).errors = (List.replicate entries.length errors).flatten := by
  induction entries generalizing i with
  | nil => rfl
  | cons e rest ih =>
    simp only [expandAll, Built.append, h, ih (i + 1), List.length_cons, List.replicate_succ, List.flatten_cons]

end

/-- A table that replays a template makes of all its entries the same. -/
theorem expandsUniformly_build {arity : Option Nat} {entries : List Entry} (s : Scope) (label : String)
    (template : List Declaration) (h : FitsArity arity entries) :
    ExpandsUniformly entries template ((Declaration.table label arity entries (.replay template)).build s) := by
  have hkeeps : Keeps arity entries (.replay template) := ⟨h, fun _ _ => rfl⟩
  have hequal : ∀ i e j f, Node.forestEqual ((TableBody.replay template).builtBelow s i e).nodes
      ((TableBody.replay template).builtBelow s j f).nodes = true :=
    fun i e j f => forestEqual_buildSequence template _ _ 0 0
  have honce : ∀ i e, Node.forestEqual ((TableBody.replay template).builtBelow s i e).nodes
      (build template).nodes = true :=
    fun i e => forestEqual_buildSequence template _ _ 0 0
  rw [Declaration.build_subtree_of_keeps s rfl hkeeps]
  refine ⟨map_label_expandAll 0, ?_, ?_, ?_, ?_, ?_⟩
  · intro n hn
    obtain ⟨j, e, rfl⟩ := exists_of_mem_expandAll hn
    rfl
  · intro n hn
    obtain ⟨j, e, rfl⟩ := exists_of_mem_expandAll hn
    exact honce j e
  · intro n hn m hm
    obtain ⟨j, e, rfl⟩ := exists_of_mem_expandAll hn
    obtain ⟨k, f, rfl⟩ := exists_of_mem_expandAll hm
    exact hequal j e k f
  · exact forestLeafCount_expandAll 0 fun j e => Node.forestLeafCount_eq_of_equal (honce j e)
  · exact errors_expandAll 0 fun j e => errors_buildSequence template _ _ 0 0

/-! ## What a build comes to -/

/-- Building a sequence of declarations in a scope comes to a declaration in a scope: to those of the sequence
itself, and to what is built below its containers and below the entries of the subtree tables that are kept. -/
inductive Reaches : Scope → List Declaration → Scope → Declaration → Prop
  | here {s : Scope} {ds : List Declaration} {i : Nat} {d : Declaration} (found : ds[i]? = some d) :
      Reaches s ds (s.child i) d
  | container {s s' : Scope} {ds body : List Declaration} {i : Nat} {label : String} {d : Declaration}
      (found : ds[i]? = some (.container label body)) (below : Reaches (s.child i) body s' d) :
      Reaches s ds s' d
  | entry {s s' : Scope} {ds : List Declaration} {i j : Nat} {label : String} {arity : Option Nat}
      {entries : List Entry} {body : TableBody} {e : Entry} {d : Declaration}
      (found : ds[i]? = some (.table label arity entries body)) (subtree : body.isSubtree = true)
      (keeps : Keeps arity entries body) (entry : entries[j]? = some e)
      (below : Reaches (body.scope (s.child i) j e.arguments) (body.declared e.arguments) s' d) :
      Reaches s ds s' d

/-- Which declarations a build comes to does not depend on its scope. -/
theorem Reaches.in_scope {s s' : Scope} {ds : List Declaration} {d : Declaration} (h : Reaches s ds s' d)
    (t : Scope) : ∃ t', Reaches t ds t' d := by
  induction h generalizing t with
  | here found => exact ⟨_, .here found⟩
  | @container s s' ds body i label d found below ih =>
    obtain ⟨t', ht⟩ := ih (t.child i)
    exact ⟨t', .container found ht⟩
  | @entry s s' ds i j label arity entries body e d found subtree keeps entry below ih =>
    obtain ⟨t', ht⟩ := ih (body.scope (t.child i) j e.arguments)
    exact ⟨t', .entry found subtree keeps entry ht⟩

/-- Nodes that stand side by side in a forest, at any level. -/
inductive RunOf (run : Forest) : Forest → Prop
  | here (before after : Forest) : RunOf run (before ++ run ++ after)
  | inside {f children : Forest} {head : Header} (mem : .container head children ∈ f)
      (among : RunOf run children) : RunOf run f

theorem RunOf.append_left {run f : Forest} (h : RunOf run f) (before : Forest) : RunOf run (before ++ f) := by
  cases h with
  | here front after =>
    rw [← List.append_assoc, ← List.append_assoc]
    exact .here (before ++ front) after
  | inside mem among => exact .inside (List.mem_append_right before mem) among

theorem RunOf.append_right {run f : Forest} (h : RunOf run f) (after : Forest) : RunOf run (f ++ after) := by
  cases h with
  | here before back =>
    rw [List.append_assoc]
    exact .here before (back ++ after)
  | inside mem among => exact .inside (List.mem_append_left after mem) among

/-- What is built from a declaration is a part of what is built from the sequence. -/
structure PartOf (part whole : Built) : Prop where
  nodes : RunOf part.nodes whole.nodes
  errors : part.errors <:+: whole.errors

theorem PartOf.append_left {part b : Built} (h : PartOf part b) (before : Built) :
    PartOf part (before.append b) :=
  ⟨h.nodes.append_left before.nodes, h.errors.trans (List.suffix_append before.errors b.errors).isInfix⟩

theorem PartOf.append_right {part b : Built} (h : PartOf part b) (after : Built) :
    PartOf part (b.append after) :=
  ⟨h.nodes.append_right after.nodes, h.errors.trans (List.prefix_append b.errors after.errors).isInfix⟩

theorem partOf_self (b : Built) : PartOf b b := by
  refine ⟨?_, List.infix_rfl⟩
  have h : RunOf b.nodes ([] ++ b.nodes ++ []) := .here [] []
  rwa [List.nil_append, List.append_nil] at h

theorem partOf_buildSequence {ds : List Declaration} {j : Nat} {d : Declaration} (h : ds[j]? = some d)
    (s : Scope) (i : Nat) {part : Built} (hpart : PartOf part (d.build (s.child (i + j)))) :
    PartOf part (buildSequence s i ds) := by
  induction ds generalizing i j with
  | nil => cases h
  | cons first rest ih =>
    rw [buildSequence]
    cases j with
    | zero =>
      obtain rfl := Option.some.inj h
      exact hpart.append_right _
    | succ j =>
      refine (ih h (i + 1) ?_).append_left _
      rwa [Nat.add_assoc, Nat.add_comm 1 j]

theorem partOf_expandAll {each : Nat → Entry → Built} {entries : List Entry} {j : Nat} {e : Entry}
    (h : entries[j]? = some e) (label : String) (i : Nat) {part : Built}
    (hpart : PartOf part (each (i + j) e)) : PartOf part (expandAll label each i entries) := by
  induction entries generalizing i j with
  | nil => cases h
  | cons first rest ih =>
    rw [expandAll]
    cases j with
    | zero =>
      obtain rfl := Option.some.inj h
      refine PartOf.append_right ?_ _
      exact ⟨.inside List.mem_cons_self hpart.nodes, hpart.errors⟩
    | succ j =>
      refine (ih h (i + 1) ?_).append_left _
      rwa [Nat.add_assoc, Nat.add_comm 1 j]

/-- What a build makes of a declaration that it comes to is in the forest and among the errors. -/
theorem Reaches.partOf {s s' : Scope} {ds : List Declaration} {d : Declaration} (h : Reaches s ds s' d) :
    PartOf (d.build s') (buildSequence s 0 ds) := by
  induction h with
  | @here s ds i d found =>
    refine partOf_buildSequence found s 0 ?_
    rw [Nat.zero_add]
    exact partOf_self _
  | @container s s' ds body i label d found below ih =>
    refine partOf_buildSequence found s 0 ?_
    rw [Nat.zero_add, Declaration.build]
    exact ⟨.inside List.mem_cons_self ih.nodes, ih.errors⟩
  | @entry s s' ds i j label arity entries body e d found subtree keeps entry below ih =>
    refine partOf_buildSequence found s 0 ?_
    rw [Nat.zero_add, Declaration.build_subtree_of_keeps _ subtree keeps]
    have hpart : PartOf (d.build s') (expandAll label (body.builtBelow (s.child i)) 0 entries) :=
      partOf_expandAll entry label 0 (by rwa [Nat.zero_add])
    exact ⟨hpart.nodes, hpart.errors⟩

/-! ## Where errors come from -/

section

variable {error : SpecError}

theorem exists_of_mem_errors_buildSequence {s : Scope} {i : Nat} {ds : List Declaration}
    (h : error ∈ (buildSequence s i ds).errors) :
    ∃ (j : Nat) (d : Declaration), ds[j]? = some d ∧ error ∈ (d.build (s.child (i + j))).errors := by
  induction ds generalizing i with
  | nil => exact absurd h List.not_mem_nil
  | cons d rest ih =>
    rw [buildSequence] at h
    rcases List.mem_append.mp h with h | h
    · exact ⟨0, d, rfl, h⟩
    · obtain ⟨j, d', hget, hmem⟩ := ih h
      exact ⟨j + 1, d', hget, by rwa [Nat.add_comm j, ← Nat.add_assoc]⟩

theorem exists_of_mem_errors_expandAll {label : String} {each : Nat → Entry → Built} {i : Nat}
    {entries : List Entry} (h : error ∈ (expandAll label each i entries).errors) :
    ∃ (j : Nat) (e : Entry), entries[j]? = some e ∧ error ∈ (each (i + j) e).errors := by
  induction entries generalizing i with
  | nil => exact absurd h List.not_mem_nil
  | cons e rest ih =>
    rw [expandAll] at h
    rcases List.mem_append.mp h with h | h
    · exact ⟨0, e, rfl, h⟩
    · obtain ⟨j, e', hget, hmem⟩ := ih h
      exact ⟨j + 1, e', hget, by rwa [Nat.add_comm j, ← Nat.add_assoc]⟩

/-- An error of the declaration at an index is that of a table to which the build comes. -/
theorem exists_reaches_of_mem_errors (d : Declaration) :
    ∀ (s : Scope) (ds : List Declaration) (i : Nat), ds[i]? = some d → error ∈ (d.build (s.child i)).errors →
      ∃ s' label arity entries body, Reaches s ds s' (.table label arity entries body) ∧
        Drops label arity entries body error := by
  induction d using Declaration.induct with
  | leaf label work =>
    intro s ds i _ herror
    rw [Declaration.build] at herror
    exact absurd herror List.not_mem_nil
  | container label body ih =>
    intro s ds i hget herror
    rw [Declaration.build] at herror
    obtain ⟨j, d, hd, hmem⟩ := exists_of_mem_errors_buildSequence herror
    rw [Nat.zero_add] at hmem
    obtain ⟨s', l, a, es, b, hreaches, hdrops⟩ := ih d (List.mem_of_getElem? hd) (s.child i) body j hd hmem
    exact ⟨s', l, a, es, b, .container hget hreaches, hdrops⟩
  | leaves label arity entries work =>
    intro s ds i hget herror
    rcases keeps_or_drops label arity entries (.leaves work) with hkeeps | ⟨error', hdrops⟩
    · rw [Declaration.build_leaves_of_fits _ hkeeps.fits] at herror
      exact absurd herror List.not_mem_nil
    · rw [Declaration.errors_build_of_drops _ hdrops, List.mem_singleton] at herror
      exact ⟨_, _, _, _, _, .here hget, herror ▸ hdrops⟩
  | subtree label arity entries body hsub ih =>
    intro s ds i hget herror
    rcases keeps_or_drops label arity entries body with hkeeps | ⟨error', hdrops⟩
    · rw [Declaration.build_subtree_of_keeps _ hsub hkeeps] at herror
      obtain ⟨k, e, he, hentry⟩ := exists_of_mem_errors_expandAll herror
      obtain ⟨j, d, hd, hmem⟩ := exists_of_mem_errors_buildSequence hentry
      rw [Nat.zero_add, Nat.zero_add] at hmem
      obtain ⟨s', l, a, es, b, hreaches, hdrops⟩ := ih e.arguments d (List.mem_of_getElem? hd) _ _ j hd hmem
      exact ⟨s', l, a, es, b, .entry hget hsub hkeeps he hreaches, hdrops⟩
    · rw [Declaration.errors_build_of_drops _ hdrops, List.mem_singleton] at herror
      exact ⟨_, _, _, _, _, .here hget, herror ▸ hdrops⟩

/-- The errors of a build are those of the tables to which it comes and which it drops. -/
theorem mem_errors_iff (s : Scope) (ds : List Declaration) :
    error ∈ (buildSequence s 0 ds).errors ↔
      ∃ s' label arity entries body, Reaches s ds s' (.table label arity entries body) ∧
        Drops label arity entries body error := by
  constructor
  · intro h
    obtain ⟨j, d, hget, hmem⟩ := exists_of_mem_errors_buildSequence h
    rw [Nat.zero_add] at hmem
    exact exists_reaches_of_mem_errors d s ds j hget hmem
  · rintro ⟨s', label, arity, entries, body, hreaches, hdrops⟩
    refine hreaches.partOf.errors.subset ?_
    rw [Declaration.errors_build_of_drops s' hdrops]
    exact List.mem_singleton_self error

end

end SpecForest

import SpecForest.Proofs.Tree.Expansion

/-!
# Dropped tables and their errors

A table that cannot be expanded is dropped whole. It leaves no node, one error, and nothing of what was
built or reported below the entries expanded before the failure. Hence the errors of a build are those of the
dropped tables that are not declared inside a dropped one, in the order of the declarations.

Errors can also be collected in one list that is handed from declaration to declaration. The entries of a
subtree table then report to a list of their own, which is added only when all of them have succeeded.
`buildSequenceOnto` builds in this way, and it comes to the same.
-/

namespace SpecForest

/-! ## Building onto a list of errors -/

/-- Expands the entries of a subtree table from an index on. The nodes so far and the errors reported below
the entries go from entry to entry, and both are lost when an entry fails. -/
def expandEntriesOnto (label : String)
    (each : Nat → Entry → List SpecError → Except String (Forest × List SpecError)) :
    Nat → List Entry → Forest → List SpecError → Except SpecError (Forest × List SpecError)
  | _, [], nodes, nested => .ok (nodes, nested)
  | i, e :: rest, nodes, nested =>
    match each i e nested with
    | .error message => .error (.bodyFailed label i message)
    | .ok (children, nested) =>
      expandEntriesOnto label each (i + 1) rest (nodes ++ [entryNode label i e children]) nested

mutual

/-- Builds one declaration, given the errors reported before it. -/
def Declaration.buildOnto (s : Scope) (errors : List SpecError) : Declaration → Forest × List SpecError
  | .container label body =>
    let (children, errors) := buildSequenceOnto s 0 errors body
    ([.container { label } children], errors)
  | .leaf label work => ([.leaf { label } ⟨s.bodyId, work⟩ s.arguments], errors)
  | .table label arity entries body =>
    match arityError? label arity entries with
    | some error => ([], errors ++ [error])
    | none =>
      match body.expandOnto s label entries errors with
      | .ok result => result
      | .error error => ([], errors ++ [error])

/-- Expands a table whose numbers of arguments are right, given the errors reported before it. -/
def TableBody.expandOnto (s : Scope) (label : String) (entries : List Entry) (errors : List SpecError) :
    TableBody → Except SpecError (Forest × List SpecError)
  | .leaves work => .ok (expandLeaves label ⟨s.bodyId, work⟩ entries, errors)
  | .replay template =>
    let each := fun i (e : Entry) nested =>
      .ok (buildSequenceOnto (s.replayed i e.arguments) 0 nested template)
    (expandEntriesOnto label each 0 entries [] []).map fun (nodes, nested) => (nodes, errors ++ nested)
  | .record declared failure =>
    let each := fun i (e : Entry) nested =>
      match failure e.arguments with
      | some message => .error message
      | none => .ok (buildSequenceOnto (s.recorded i e.arguments) 0 nested (declared e.arguments))
    (expandEntriesOnto label each 0 entries [] []).map fun (nodes, nested) => (nodes, errors ++ nested)

/-- Builds a sequence of declarations, given the errors reported before it. -/
def buildSequenceOnto (s : Scope) (i : Nat) (errors : List SpecError) :
    List Declaration → Forest × List SpecError
  | [] => ([], errors)
  | d :: rest =>
    let (nodes, errors) := d.buildOnto (s.child i) errors
    let (after, errors) := buildSequenceOnto s (i + 1) errors rest
    (nodes ++ after, errors)

end

namespace TableBody

/-- What is built below an entry, onto the errors reported below the entries before. -/
def tryBelowOnto (s : Scope) (body : TableBody) (i : Nat) (e : Entry) (nested : List SpecError) :
    Except String (Forest × List SpecError) :=
  match body.failure e.arguments with
  | some message => .error message
  | none => .ok (buildSequenceOnto (body.scope s i e.arguments) 0 nested (body.declared e.arguments))

theorem expandOnto_eq {body : TableBody} (h : body.isSubtree = true) (s : Scope) (label : String)
    (entries : List Entry) (errors : List SpecError) :
    body.expandOnto s label entries errors =
      (expandEntriesOnto label (body.tryBelowOnto s) 0 entries [] []).map
        fun (nodes, nested) => (nodes, errors ++ nested) := by
  cases body with
  | leaves work => cases h
  | replay template =>
    rw [expandOnto]
    rfl
  | record declared failure =>
    rw [expandOnto]
    rfl

end TableBody

/-- Entries expanded one after the other onto two lists, if the same holds of what is built below each. -/
theorem expandEntriesOnto_eq {body : TableBody} (s : Scope) (label : String)
    (h : ∀ (s : Scope) (args : Arguments) (nested : List SpecError),
      buildSequenceOnto s 0 nested (body.declared args) =
        ((buildSequence s 0 (body.declared args)).nodes,
          nested ++ (buildSequence s 0 (body.declared args)).errors))
    (i : Nat) (entries : List Entry) (nodes : Forest) (nested : List SpecError) :
    expandEntriesOnto label (body.tryBelowOnto s) i entries nodes nested =
      match (expandEntries label (body.tryBelow s) i entries).failure with
      | none => .ok (nodes ++ (expandEntries label (body.tryBelow s) i entries).built.nodes,
          nested ++ (expandEntries label (body.tryBelow s) i entries).built.errors)
      | some error => .error error := by
  induction entries generalizing i nodes nested with
  | nil => simp [expandEntriesOnto, expandEntries]
  | cons e rest ih =>
    cases hfail : body.failure e.arguments with
    | some message =>
      simp [expandEntriesOnto, expandEntries, TableBody.tryBelowOnto, TableBody.tryBelow, hfail]
    | none =>
      simp only [expandEntriesOnto, expandEntries, TableBody.tryBelowOnto, TableBody.tryBelow, hfail, h]
      rw [ih]
      simp only [TableBody.builtBelow, entryNode, List.append_assoc, List.cons_append, List.nil_append]

theorem buildSequenceOnto_of_mem {ds : List Declaration}
    (h : ∀ d ∈ ds, ∀ (s : Scope) (errors : List SpecError),
      d.buildOnto s errors = ((d.build s).nodes, errors ++ (d.build s).errors))
    (s : Scope) (i : Nat) (errors : List SpecError) :
    buildSequenceOnto s i errors ds =
      ((buildSequence s i ds).nodes, errors ++ (buildSequence s i ds).errors) := by
  induction ds generalizing i errors with
  | nil => simp [buildSequenceOnto, buildSequence]
  | cons d rest ih =>
    have hrest := ih fun d' hd' => h d' (List.mem_cons_of_mem d hd')
    simp [buildSequenceOnto, buildSequence, h d List.mem_cons_self, hrest, Built.append]

theorem Declaration.buildOnto_eq (d : Declaration) :
    ∀ (s : Scope) (errors : List SpecError),
      d.buildOnto s errors = ((d.build s).nodes, errors ++ (d.build s).errors) := by
  induction d using Declaration.induct with
  | leaf label work =>
    intro s errors
    simp [Declaration.buildOnto, Declaration.build]
  | container label body ih =>
    intro s errors
    simp [Declaration.buildOnto, Declaration.build, buildSequenceOnto_of_mem ih]
  | leaves label arity entries work =>
    intro s errors
    rw [Declaration.buildOnto, Declaration.build]
    cases arityError? label arity entries with
    | some error => rfl
    | none => simp [TableBody.expandOnto, TableBody.expand]
  | subtree label arity entries body hsub ih =>
    intro s errors
    -- below the entries the errors begin with none, and they are added only if no entry fails
    have hbelow := expandEntriesOnto_eq s label
      (fun s args nested => buildSequenceOnto_of_mem (ih args) s 0 nested) 0 entries [] []
    rw [Declaration.buildOnto, Declaration.build]
    cases arityError? label arity entries with
    | some error => rfl
    | none =>
      simp only [TableBody.expandOnto_eq hsub, TableBody.expand_eq hsub, hbelow, Expansion.finish]
      cases (expandEntries label (body.tryBelow s) 0 entries).failure with
      | none => simp [Except.map]
      | some error => simp [Except.map, Built.dropped]

/-- Building onto a list of errors keeps the list and adds the errors of the build. -/
theorem buildSequenceOnto_eq (s : Scope) (i : Nat) (errors : List SpecError) (ds : List Declaration) :
    buildSequenceOnto s i errors ds =
      ((buildSequence s i ds).nodes, errors ++ (buildSequence s i ds).errors) :=
  buildSequenceOnto_of_mem (fun d _ => d.buildOnto_eq) s i errors

/-! ## The errors of dropped tables -/

mutual

/-- The errors of the tables that are dropped in a declaration and not inside a dropped table, in the order
of the declarations. -/
inductive Reports : Declaration → List SpecError → Prop
  | leaf (label : String) (work : Work) : Reports (.leaf label work) []
  | container (label : String) {body : List Declaration} {errors : List SpecError} :
      ReportsAll body errors → Reports (.container label body) errors
  | dropped {label : String} {arity : Option Nat} {entries : List Entry} {body : TableBody}
      {error : SpecError} :
      Drops label arity entries body error → Reports (.table label arity entries body) [error]
  | leaves (label : String) {arity : Option Nat} {entries : List Entry} (work : Work) :
      Keeps arity entries (.leaves work) → Reports (.table label arity entries (.leaves work)) []
  | subtree (label : String) {arity : Option Nat} {entries : List Entry} {body : TableBody}
      {errors : List SpecError} :
      body.isSubtree = true → Keeps arity entries body → ReportsEach body entries errors →
      Reports (.table label arity entries body) errors

/-- The errors of a sequence of declarations. -/
inductive ReportsAll : List Declaration → List SpecError → Prop
  | nil : ReportsAll [] []
  | cons {d : Declaration} {rest : List Declaration} {errors later : List SpecError} :
      Reports d errors → ReportsAll rest later → ReportsAll (d :: rest) (errors ++ later)

/-- The errors of what a body declares for some entries, entry by entry. -/
inductive ReportsEach : TableBody → List Entry → List SpecError → Prop
  | nil (body : TableBody) : ReportsEach body [] []
  | cons {body : TableBody} {e : Entry} {rest : List Entry} {errors later : List SpecError} :
      ReportsAll (body.declared e.arguments) errors → ReportsEach body rest later →
      ReportsEach body (e :: rest) (errors ++ later)

end

theorem reportsAll_iff_of_mem {ds : List Declaration}
    (h : ∀ d ∈ ds, ∀ (s : Scope) (errors : List SpecError), Reports d errors ↔ errors = (d.build s).errors)
    (s : Scope) (i : Nat) (errors : List SpecError) :
    ReportsAll ds errors ↔ errors = (buildSequence s i ds).errors := by
  induction ds generalizing i errors with
  | nil =>
    constructor
    · rintro ⟨⟩
      rfl
    · rintro rfl
      exact .nil
  | cons d rest ih =>
    have hd := h d List.mem_cons_self (s.child i)
    have hrest := ih (fun d' hd' => h d' (List.mem_cons_of_mem d hd')) (i + 1)
    rw [buildSequence]
    constructor
    · rintro ⟨⟩
      rename_i hfirst hlater
      rw [(hd _).mp hfirst, (hrest _).mp hlater]
      rfl
    · rintro rfl
      exact .cons ((hd _).mpr rfl) ((hrest _).mpr rfl)

theorem reportsEach_iff {body : TableBody}
    (h : ∀ (args : Arguments) (s : Scope) (errors : List SpecError),
      ReportsAll (body.declared args) errors ↔ errors = (buildSequence s 0 (body.declared args)).errors)
    (s : Scope) (label : String) (i : Nat) (entries : List Entry) (errors : List SpecError) :
    ReportsEach body entries errors ↔ errors = (expandAll label (body.builtBelow s) i entries).errors := by
  induction entries generalizing i errors with
  | nil =>
    constructor
    · rintro ⟨⟩
      rfl
    · rintro rfl
      exact .nil body
  | cons e rest ih =>
    have he := h e.arguments (body.scope s i e.arguments)
    rw [expandAll]
    constructor
    · rintro ⟨⟩
      rename_i hfirst hlater
      rw [(he _).mp hfirst, (ih (i + 1) _).mp hlater]
      rfl
    · rintro rfl
      exact .cons ((he _).mpr rfl) ((ih (i + 1) _).mpr rfl)

theorem Drops.reports_iff {label : String} {arity : Option Nat} {entries : List Entry} {body : TableBody}
    {error : SpecError} (h : Drops label arity entries body error) (errors : List SpecError) :
    Reports (.table label arity entries body) errors ↔ errors = [error] := by
  constructor
  · intro hr
    cases hr with
    | dropped h' =>
      have herrors := Declaration.errors_build_of_drops {} h'
      rw [Declaration.errors_build_of_drops {} h] at herrors
      exact herrors.symm
    | leaves _ _ hkeeps => exact absurd hkeeps h.not_keeps
    | subtree _ _ hkeeps _ => exact absurd hkeeps h.not_keeps
  · rintro rfl
    exact .dropped h

/-- The errors of a declaration are reported in its build, whatever its scope. -/
theorem reports_iff (d : Declaration) :
    ∀ (s : Scope) (errors : List SpecError), Reports d errors ↔ errors = (d.build s).errors := by
  induction d using Declaration.induct with
  | leaf label work =>
    intro s errors
    constructor
    · rintro ⟨⟩
      simp [Declaration.build]
    · intro h
      simp only [Declaration.build] at h
      subst h
      exact .leaf label work
  | container label body ih =>
    intro s errors
    have hbody := reportsAll_iff_of_mem ih s 0 errors
    rw [Declaration.build]
    constructor
    · rintro ⟨⟩
      rename_i h
      exact hbody.mp h
    · intro h
      exact .container label (hbody.mpr h)
  | leaves label arity entries work =>
    intro s errors
    rcases keeps_or_drops label arity entries (.leaves work) with hkeeps | ⟨error, hdrops⟩
    · rw [Declaration.build_leaves_of_fits s hkeeps.fits]
      constructor
      · intro h
        cases h with
        | dropped hdrops => exact absurd hkeeps hdrops.not_keeps
        | leaves => rfl
        | subtree _ hsub => cases hsub
      · rintro rfl
        exact .leaves label work hkeeps
    · rw [Declaration.errors_build_of_drops s hdrops, hdrops.reports_iff]
  | subtree label arity entries body hsub ih =>
    intro s errors
    rcases keeps_or_drops label arity entries body with hkeeps | ⟨error, hdrops⟩
    · -- of the three rules for a table, the one that applies is known: it is kept, and it is no leaf table
      have heach := reportsEach_iff (fun args s => reportsAll_iff_of_mem (ih args) s 0) s label 0 entries
      rw [Declaration.build_subtree_of_keeps s hsub hkeeps]
      constructor
      · intro h
        cases h with
        | dropped hdrops => exact absurd hkeeps hdrops.not_keeps
        | leaves => cases hsub
        | subtree _ _ _ hentries => exact (heach _).mp hentries
      · intro h
        exact .subtree label hsub hkeeps ((heach _).mpr h)
    · rw [Declaration.errors_build_of_drops s hdrops, hdrops.reports_iff]

theorem reportsAll_iff (s : Scope) (i : Nat) (ds : List Declaration) (errors : List SpecError) :
    ReportsAll ds errors ↔ errors = (buildSequence s i ds).errors :=
  reportsAll_iff_of_mem (fun d _ => reports_iff d) s i errors

/-! ## Nodes without a dropped table -/

mutual

/-- A node without the places at which its bodies were recorded. Those are numbered along the declarations,
and all else of a node is independent of the numbers. -/
def Node.unplaced : Node → Node
  | .container head children => .container head (unplacedForest children)
  | .leaf head body arguments => .leaf head { body with id := ⟨[], []⟩ } arguments

/-- A forest without the places at which its bodies were recorded. -/
def unplacedForest : List Node → List Node
  | [] => []
  | n :: rest => n.unplaced :: unplacedForest rest

end

theorem unplacedForest_append (f g : List Node) :
    unplacedForest (f ++ g) = unplacedForest f ++ unplacedForest g := by
  induction f with
  | nil => rfl
  | cons n rest ih => simp only [List.cons_append, unplacedForest, ih]

theorem unplacedForest_expandLeaves (label : String) (id id' : BodyId) (work : Work) (entries : List Entry) :
    unplacedForest (expandLeaves label ⟨id, work⟩ entries) =
      unplacedForest (expandLeaves label ⟨id', work⟩ entries) := by
  unfold expandLeaves
  induction entries.zipIdx with
  | nil => rfl
  | cons p rest ih => simp [unplacedForest, Node.unplaced, ih]

theorem unplacedForest_expandAll {each each' : Nat → Entry → Built} (label : String) (i : Nat)
    (entries : List Entry)
    (h : ∀ j e, unplacedForest (each j e).nodes = unplacedForest (each' j e).nodes) :
    unplacedForest (expandAll label each i entries).nodes =
      unplacedForest (expandAll label each' i entries).nodes := by
  induction entries generalizing i with
  | nil => rfl
  | cons e rest ih =>
    simp only [expandAll, Built.append, entryNode, List.cons_append, List.nil_append, unplacedForest,
      Node.unplaced, h i e, ih (i + 1)]

theorem unplacedForest_buildSequence_of_mem {ds : List Declaration}
    (h : ∀ d ∈ ds, ∀ s s' : Scope, s.arguments = s'.arguments →
      unplacedForest (d.build s).nodes = unplacedForest (d.build s').nodes)
    {s s' : Scope} (hs : s.arguments = s'.arguments) (i j : Nat) :
    unplacedForest (buildSequence s i ds).nodes = unplacedForest (buildSequence s' j ds).nodes := by
  induction ds generalizing i j with
  | nil => rfl
  | cons d rest ih =>
    have hrest := ih (fun d' hd' => h d' (List.mem_cons_of_mem d hd')) (i + 1) (j + 1)
    have hd := h d List.mem_cons_self (s.child i) (s'.child j) hs
    simp only [buildSequence, Built.append, unplacedForest_append, hd, hrest]

/-- Apart from where bodies were recorded, the nodes of a declaration depend on the bound arguments only. -/
theorem unplacedForest_build (d : Declaration) :
    ∀ s s' : Scope, s.arguments = s'.arguments →
      unplacedForest (d.build s).nodes = unplacedForest (d.build s').nodes := by
  induction d using Declaration.induct with
  | leaf label work =>
    intro s s' hs
    simp [Declaration.build, unplacedForest, Node.unplaced, hs]
  | container label body ih =>
    intro s s' hs
    simp [Declaration.build, unplacedForest, Node.unplaced, unplacedForest_buildSequence_of_mem ih hs 0 0]
  | leaves label arity entries work =>
    intro s s' _
    rcases keeps_or_drops label arity entries (.leaves work) with hkeeps | ⟨error, hdrops⟩
    · rw [Declaration.build_leaves_of_fits s hkeeps.fits, Declaration.build_leaves_of_fits s' hkeeps.fits]
      exact unplacedForest_expandLeaves label s.bodyId s'.bodyId work entries
    · rw [Declaration.nodes_build_of_drops s hdrops, Declaration.nodes_build_of_drops s' hdrops]
  | subtree label arity entries body hsub ih =>
    intro s s' _
    rcases keeps_or_drops label arity entries body with hkeeps | ⟨error, hdrops⟩
    · rw [Declaration.build_subtree_of_keeps s hsub hkeeps,
        Declaration.build_subtree_of_keeps s' hsub hkeeps]
      refine unplacedForest_expandAll label 0 entries fun j e => ?_
      exact unplacedForest_buildSequence_of_mem (ih e.arguments) (by simp) 0 0
    · rw [Declaration.nodes_build_of_drops s hdrops, Declaration.nodes_build_of_drops s' hdrops]

theorem buildSequence_append (s : Scope) (i : Nat) (ds es : List Declaration) :
    buildSequence s i (ds ++ es) =
      (buildSequence s i ds).append (buildSequence s (i + ds.length) es) := by
  induction ds generalizing i with
  | nil => simp [buildSequence, Built.append]
  | cons d rest ih =>
    have hlen : i + (rest.length + 1) = i + 1 + rest.length := by omega
    simp [buildSequence, ih (i + 1), Built.append, hlen]

/-- The nodes of a sequence with a dropped table are those of the sequence without it. -/
theorem buildSequence_delete {label : String} {arity : Option Nat} {entries : List Entry}
    {body : TableBody} {error : SpecError} (h : Drops label arity entries body error) (s : Scope) (i : Nat)
    (before after : List Declaration) :
    (buildSequence s i (before ++ .table label arity entries body :: after)).nodes =
        (buildSequence s i before).nodes ++ (buildSequence s (i + before.length + 1) after).nodes ∧
      unplacedForest (buildSequence s i (before ++ .table label arity entries body :: after)).nodes =
        unplacedForest (buildSequence s i (before ++ after)).nodes := by
  obtain ⟨events, hbuild⟩ := Declaration.build_of_drops (s.child (i + before.length)) h
  have hnodes : (buildSequence s i (before ++ .table label arity entries body :: after)).nodes =
      (buildSequence s i before).nodes ++ (buildSequence s (i + before.length + 1) after).nodes := by
    rw [buildSequence_append, buildSequence, hbuild]
    simp [Built.append, Built.dropped]
  refine ⟨hnodes, ?_⟩
  -- without the table all that comes behind it has a number less
  have hafter : unplacedForest (buildSequence s (i + before.length + 1) after).nodes =
      unplacedForest (buildSequence s (i + before.length) after).nodes :=
    unplacedForest_buildSequence_of_mem (fun d _ => unplacedForest_build d) rfl _ _
  rw [hnodes, buildSequence_append]
  simp only [Built.append, unplacedForest_append, hafter]

/-! ## Tables are dropped whole -/

section

variable {label : String} {arity : Option Nat} {entries : List Entry} {body : TableBody}

theorem expandAll_ne_dropped {each : Nat → Entry → Built} {error : SpecError} (i : Nat)
    (h : (expandAll label each i entries).nodes = []) :
    (expandAll label each i entries).errors ≠ [error] := by
  cases entries with
  | nil => simp [expandAll]
  | cons e rest => simp [expandAll, Built.append] at h

/-- A table is dropped with an error exactly for the cause that the error names. -/
theorem Declaration.build_eq_dropped_iff (s : Scope) (error : SpecError) :
    (∃ events, (Declaration.table label arity entries body).build s = .dropped error events) ↔
      Drops label arity entries body error := by
  refine ⟨fun ⟨events, hdropped⟩ => ?_, fun h => Declaration.build_of_drops s h⟩
  rcases keeps_or_drops label arity entries body with hkeeps | ⟨error', hdrops⟩
  · -- what is kept has nodes or no errors
    have hnodes := congrArg Built.nodes hdropped
    have herrors := congrArg Built.errors hdropped
    by_cases hsub : body.isSubtree = true
    · rw [Declaration.build_subtree_of_keeps s hsub hkeeps] at hnodes herrors
      exact absurd herrors (expandAll_ne_dropped 0 hnodes)
    · cases body with
      | leaves work =>
        rw [Declaration.build_leaves_of_fits s hkeeps.fits] at herrors
        cases herrors
      | replay template => exact absurd rfl hsub
      | record declared failure => exact absurd rfl hsub
  · have herrors := Declaration.errors_build_of_drops s hdrops
    rw [hdropped] at herrors
    cases herrors
    exact hdrops

/-- The body of a table has no part in its outcome if the numbers of arguments are wrong. -/
theorem Declaration.build_of_not_fits (s : Scope) (body' : TableBody) (h : ¬ FitsArity arity entries) :
    (Declaration.table label arity entries body).build s =
      (Declaration.table label arity entries body').build s := by
  obtain ⟨error, herror⟩ : ∃ error, arityError? label arity entries = some error :=
    Option.ne_none_iff_exists'.mp fun hnone => h ((arityError?_eq_none_iff label arity entries).mp hnone)
  simp only [Declaration.build, herror]

end

theorem strict_eq_ok_iff (ds : List Declaration) (f : Forest) :
    (build ds).strict = .ok f ↔ ReportsAll ds [] ∧ f = (build ds).nodes := by
  have hreports : ReportsAll ds [] ↔ [] = (build ds).errors := reportsAll_iff {} 0 ds []
  rw [hreports]
  unfold Built.strict
  cases (build ds).errors with
  | nil => simp [eq_comm]
  | cons error later => simp

theorem strict_eq_error_iff (ds : List Declaration) (error : SpecError) :
    (build ds).strict = .error error ↔ ∃ later, ReportsAll ds (error :: later) := by
  have hreports : ∀ later, ReportsAll ds (error :: later) ↔ error :: later = (build ds).errors :=
    fun later => reportsAll_iff {} 0 ds (error :: later)
  simp only [hreports]
  unfold Built.strict
  cases (build ds).errors with
  | nil => simp
  | cons first later => simp [eq_comm]

/-- Building a sequence onto given errors keeps them and adds one error for each dropped table that is not
inside a dropped one, in order. A table is dropped exactly for a cause that its error names; the body of a
table with wrong numbers of arguments has no part in it. The nodes are those of the sequence without the
table, and building strictly succeeds exactly if no table is dropped, and fails with the first error
otherwise. -/
theorem buildSequence_drops_whole_tables (s : Scope) (i : Nat) (ds : List Declaration)
    (given : List SpecError) :
    (∃ reported, (∀ errors, ReportsAll ds errors ↔ errors = reported) ∧
        buildSequenceOnto s i given ds = ((buildSequence s i ds).nodes, given ++ reported)) ∧
      (∀ label arity entries body error,
        (∃ events, (Declaration.table label arity entries body).build s = .dropped error events) ↔
          Drops label arity entries body error) ∧
      (∀ label arity entries body body', ¬ FitsArity arity entries →
        (Declaration.table label arity entries body).build s =
          (Declaration.table label arity entries body').build s) ∧
      (∀ before after label arity entries body error,
        ds = before ++ .table label arity entries body :: after → Drops label arity entries body error →
        (buildSequence s i ds).nodes =
            (buildSequence s i before).nodes ++ (buildSequence s (i + before.length + 1) after).nodes ∧
          unplacedForest (buildSequence s i ds).nodes =
            unplacedForest (buildSequence s i (before ++ after)).nodes) ∧
      (∀ f, (build ds).strict = .ok f ↔ ReportsAll ds [] ∧ f = (build ds).nodes) ∧
      (∀ error, (build ds).strict = .error error ↔ ∃ later, ReportsAll ds (error :: later)) := by
  refine ⟨⟨(buildSequence s i ds).errors, reportsAll_iff s i ds, buildSequenceOnto_eq s i given ds⟩,
    fun label arity entries body error => Declaration.build_eq_dropped_iff s error,
    fun label arity entries body body' hfits => Declaration.build_of_not_fits s body' hfits, ?_,
    strict_eq_ok_iff ds, strict_eq_error_iff ds⟩
  rintro before after label arity entries body error rfl hdrops
  exact buildSequence_delete hdrops s i before after

/-- A body that fails for its second entry, while the table declared for the first entry is itself
dropped: only the failure is reported, and the leaves around the table stay. -/
theorem buildSequence_drops_failing_body :
    let entries : List Entry := [⟨"first", [.nil]⟩, ⟨"second", [.bool true]⟩]
    let inner := Declaration.table "inner" (some 1) [⟨"row", []⟩] (.leaves .noop)
    let body : TableBody := .record (fun _ => [inner])
      fun args => if args = [.bool true] then some "boom" else none
    let ds := [.leaf "a" .noop, .table "outer" (some 1) entries body, .leaf "b" .noop]
    ¬ FitsArity (some 2) entries ∧
      (Declaration.table "outer" (some 2) entries body).build {} =
        (Declaration.table "outer" (some 2) entries (.replay [])).build {} ∧
      Drops "outer" (some 1) entries body (.bodyFailed "outer" 1 "boom") ∧
      (buildSequence {} 0 ds).nodes =
        (buildSequence {} 0 [.leaf "a" .noop]).nodes ++ (buildSequence {} 2 [.leaf "b" .noop]).nodes := by
  intro entries inner body ds
  have hfits : ¬ FitsArity (some 2) entries := by
    intro h
    exact absurd (h ⟨"first", [.nil]⟩ List.mem_cons_self) (by decide)
  have hdrops : Drops "outer" (some 1) entries body (.bodyFailed "outer" 1 "boom") := by
    refine .failed ?_ ⟨rfl, by simp [body, TableBody.failure], ?_⟩ (by simp [body, TableBody.failure])
    · simp [FitsArity, entries]
    · intro j e hj hget
      have hzero : j = 0 := by omega
      subst hzero
      cases hget
      simp [body, TableBody.failure]
  have hall := buildSequence_drops_whole_tables {} 0 ds []
  exact ⟨hfits, hall.2.2.1 "outer" (some 2) entries body (.replay []) hfits, hdrops,
    (hall.2.2.2.1 [.leaf "a" .noop] [.leaf "b" .noop] "outer" (some 1) entries body _ rfl hdrops).1⟩

end SpecForest

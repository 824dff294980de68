import SpecForest.Proofs.Source.Concatenation
import SpecForest.Proofs.Tree.Uniformity

/-!
# Subtree tables of a source

The body of a subtree table in a source is read once, as a template. So nothing that a scan declares can fail
while it is built, and every entry of such a table is expanded in the same way, wherever the build comes to the
table. What is wrong inside the template is wrong for every entry.
-/

namespace SpecForest

/-! ## Declarations that record nothing -/

/-- A declaration all of which is known before it is built: every subtree table in it replays a template. -/
inductive Static : Declaration → Prop
  | leaf (label : String) (work : Work) : Static (.leaf label work)
  | container (label : String) {body : List Declaration} (below : ∀ d ∈ body, Static d) :
      Static (.container label body)
  | leaves (label : String) (arity : Option Nat) (entries : List Entry) (work : Work) :
      Static (.table label arity entries (.leaves work))
  | replay (label : String) (arity : Option Nat) (entries : List Entry) {template : List Declaration}
      (below : ∀ d ∈ template, Static d) : Static (.table label arity entries (.replay template))

section

variable {label : String} {arity : Option Nat} {entries : List Entry} {body : TableBody}

theorem Static.failure_eq (h : Static (.table label arity entries body)) (args : Arguments) :
    body.failure args = none := by
  cases h <;> rfl

theorem Static.exists_template (h : Static (.table label arity entries body)) (hsub : body.isSubtree = true) :
    ∃ template, body = .replay template ∧ ∀ d ∈ template, Static d := by
  cases h with
  | leaves _ _ _ work => cases hsub
  | replay _ _ _ below => exact ⟨_, rfl, below⟩

/-- A table that replays a template or has a unit of work is dropped for its numbers of arguments alone. -/
theorem Static.not_failed (h : Static (.table label arity entries body)) {error : SpecError}
    (hdrops : Drops label arity entries body error) (table : String) (index : Nat) (message : String) :
    error ≠ .bodyFailed table index message := by
  cases hdrops with
  | known first => exact SpecError.noConfusion
  | unknown first => exact SpecError.noConfusion
  | failed fits first message_eq => exact absurd (h.failure_eq _) first.holds

end

/-- What a build of declarations comes to is static if they are. -/
theorem Reaches.static {s s' : Scope} {ds : List Declaration} {d : Declaration} (h : Reaches s ds s' d)
    (hds : ∀ d ∈ ds, Static d) : Static d := by
  induction h with
  | here found => exact hds _ (List.mem_of_getElem? found)
  | container found below ih =>
    cases hds _ (List.mem_of_getElem? found) with
    | container _ hbody => exact ih hbody
  | @entry s s' ds i j label arity entries body e d found subtree keeps entry below ih =>
    obtain ⟨template, rfl, htemplate⟩ := (hds _ (List.mem_of_getElem? found)).exists_template subtree
    exact ih htemplate

/-- No body fails in a build of static declarations. -/
theorem not_failed_of_static {ds : List Declaration} (hds : ∀ d ∈ ds, Static d) {s : Scope} {error : SpecError}
    (h : error ∈ (buildSequence s 0 ds).errors) (table : String) (index : Nat) (message : String) :
    error ≠ .bodyFailed table index message := by
  obtain ⟨s', label, arity, entries, body, hreaches, hdrops⟩ := (mem_errors_iff s ds).mp h
  exact (hreaches.static hds).not_failed hdrops table index message

namespace Source

/-- All that a call declares is static, if what was found in its body is. -/
theorem static_declareCall (k : CallKind) (name : Token) (inner : List TokenTree) {below : Scanned}
    (h : ∀ d ∈ below.declarations, Static d) :
    ∀ d ∈ (declareCall k name inner below).declarations, Static d := by
  intro d hd
  cases k with
  | container =>
    obtain rfl := List.mem_singleton.mp hd
    exact .container _ h
  | leaf =>
    obtain rfl := List.mem_singleton.mp hd
    exact .leaf _ _
  | table =>
    obtain rfl := List.mem_singleton.mp hd
    exact .leaves _ _ _ _
  | subtreeTable =>
    obtain rfl := List.mem_singleton.mp hd
    exact .replay _ _ _ h
  | entry => exact absurd hd List.not_mem_nil

/-- All that a scan declares is static. -/
theorem static_scanTrees (prior : Prior) (ts : List TokenTree) :
    ∀ d ∈ (scanTrees prior ts).declarations, Static d := by
  induction prior, ts using scanTrees_induct with
  | nil prior =>
    intro d hd
    rw [scanTrees_nil] at hd
    exact absurd hd List.not_mem_nil
  | call prior name opening closing inner rest k hcall ihpart ihrest =>
    intro d hd
    rw [scanTrees_call hcall] at hd
    rcases List.mem_append.mp hd with hd | hd
    · exact static_declareCall k name inner ihpart d hd
    · exact ihrest d hd
  | token prior t rest hcall ih =>
    intro d hd
    rw [scanTrees_token hcall] at hd
    exact ih d hd
  | group prior opening closing d' inner rest ihinner ihrest =>
    intro d hd
    rw [scanTrees_group] at hd
    rcases List.mem_append.mp hd with hd | hd
    · exact ihinner d hd
    · exact ihrest d hd

/-! ## Tables of a source -/

/-- In a build of what a scan declares no body fails. Wherever the build comes to a subtree table whose numbers
of arguments are right, the table replays a template, and what is built from it is part of the whole: one
container for each entry, with children as if the template had been built once. A table in the template that
is dropped is dropped below each entry, with the same error. -/
theorem scan_tables_expand_uniformly {source : String} {found : Scanned} (h : scan source = .ok found) :
    (∀ error ∈ (build found.declarations).errors, ∀ table index message,
        error ≠ .bodyFailed table index message) ∧
      ∀ s label arity entries body, Reaches {} found.declarations s (.table label arity entries body) →
        body.isSubtree = true → FitsArity arity entries →
        ∃ template, body = .replay template ∧
          PartOf ((Declaration.table label arity entries body).build s) (build found.declarations) ∧
          ExpandsUniformly entries template ((Declaration.table label arity entries body).build s) ∧
          ∀ s' label' arity' entries' body' error,
            Reaches {} template s' (.table label' arity' entries' body') →
            Drops label' arity' entries' body' error →
            ∀ (j : Nat) (e : Entry), entries[j]? = some e →
              ∃ t, Reaches (s.replayed j e.arguments) template t (.table label' arity' entries' body') ∧
                ((Declaration.table label' arity' entries' body').build t).nodes = [] ∧
                ((Declaration.table label' arity' entries' body').build t).errors = [error] := by
  obtain ⟨ts, trees, -, -, hfound⟩ := scan_eq_ok h
  have hstatic : ∀ d ∈ found.declarations, Static d := by
    rw [hfound]
    exact static_scanTrees .other trees
  refine ⟨fun error herror => not_failed_of_static hstatic herror, ?_⟩
  intro s label arity entries body hreaches hsub hfits
  obtain ⟨template, rfl, -⟩ := (hreaches.static hstatic).exists_template hsub
  refine ⟨template, rfl, ⟨hreaches.partOf.nodes, hreaches.partOf.errors⟩,
    expandsUniformly_build s label template hfits, ?_⟩
  intro s' label' arity' entries' body' error hnested hdrops j e _
  obtain ⟨t, ht⟩ := hnested.in_scope (s.replayed j e.arguments)
  exact ⟨t, ht, Declaration.nodes_build_of_drops t hdrops, Declaration.errors_build_of_drops t hdrops⟩

set_option maxRecDepth 2000 in
/-- A subtree table with two entries, whose template has a table that is dropped for its only row. -/
theorem scan_tables_expand_uniformly_failing_row :
    let row : Entry := ⟨"v", []⟩
    let nested : Declaration := .table "u" (some 1) [row] (.leaves .noop)
    let entries : List Entry := [⟨"a", [.int 1]⟩, ⟨"b", [.int 2]⟩]
    let table : Declaration := .table "t" (some 1) entries (.replay [nested])
    ∃ found, scan ("DescribeTableSubtree(\"t\", func(x int) \x7b DescribeTable(\"u\", func(y int) \x7b\x7d, " ++
        "Entry(\"v\")) \x7d, Entry(\"a\", 1), Entry(\"b\", 2))") = .ok found ∧
      found.declarations = [table] ∧
      (∀ e ∈ (build found.declarations).errors, ∀ table index message, e ≠ .bodyFailed table index message) ∧
      ExpandsUniformly entries [nested] (table.build (Scope.child {} 0)) ∧
      Drops "u" (some 1) [row] (.leaves .noop) (.arityMismatch "u" 0 1 0) ∧
      ∃ t, Reaches ((Scope.child {} 0).replayed 1 [.int 2]) [nested] t nested ∧
        (nested.build t).nodes = [] ∧ (nested.build t).errors = [.arityMismatch "u" 0 1 0] := by
  intro row nested entries table
  have hread : ∃ ts trees,
      tokens ("DescribeTableSubtree(\"t\", func(x int) \x7b DescribeTable(\"u\", func(y int) \x7b\x7d, " ++
        "Entry(\"v\")) \x7d, Entry(\"a\", 1), Entry(\"b\", 2))") = .ok ts ∧ group ts = .ok trees ∧
      (scanTrees .other trees).declarations = [table] := by
    refine ⟨_, _, by cbv, by cbv, ?_⟩
    rw [scanTrees_call (k := .subtreeTable) rfl, scanTrees_nil]
    -- the scan goes on in the body of the table, which is one call of its own
    refine (congrArg (fun below => ((declareCall .subtreeTable _ _ below).append {}).declarations)
      (scanTrees_call (k := .table) rfl)).trans ?_
    rw [scanTrees_nil]
    rfl
  obtain ⟨ts, trees, htokens, hgroup, hdeclared⟩ := hread
  obtain ⟨found, hfound, heq⟩ := exists_scan htokens hgroup
  have hfits : FitsArity (some 1) entries := by simp [FitsArity, entries]
  have hdrops : Drops "u" (some 1) [row] (.leaves .noop) (.arityMismatch "u" 0 1 0) :=
    .known (.head (by decide))
  have hall : found.declarations = [table] := heq.trans hdeclared
  have hreaches : Reaches {} found.declarations (Scope.child {} 0) table := by
    rw [hall]
    exact .here rfl
  obtain ⟨hfailed, htables⟩ := scan_tables_expand_uniformly hfound
  obtain ⟨template, htemplate, -, huniform, hnested⟩ := htables _ _ _ _ _ hreaches rfl hfits
  cases htemplate
  exact ⟨found, hfound, hall, hfailed, huniform, hdrops,
    hnested _ _ _ _ _ _ (.here (i := 0) rfl) hdrops 1 _ rfl⟩

end Source

end SpecForest

import SpecForest.Proofs.Tree.Expansion

/-!
# Warnings and errors of dropped tables

A dropped table is reported twice: as a warning among the events, at once, and as an error of the build. The warning
stays when a table around it is dropped later on, and the error does not. So the errors are found among the warnings,
in the same order, and the two differ only if the body of some table has failed.
-/

namespace SpecForest

/-! ## Warnings among events -/

/-- The text of the error for which a report says that a table is dropped. -/
def Report.droppedError? : Report → Option String
  | .event .warn "dropping table" fields => fields.lookup "error"
  | _ => none

/-- The texts of the errors that events warn of, in order. -/
def warnedErrors (events : List Event) : List String :=
  events.filterMap fun e => e.report.droppedError?

@[simp] theorem droppedError?_dropping (error : SpecError) :
    (Event.dropping error).report.droppedError? = some error.message := by
  simp [Event.report, Report.droppedError?]

@[simp] theorem warnedErrors_append (es fs : List Event) :
    warnedErrors (es ++ fs) = warnedErrors es ++ warnedErrors fs :=
  List.filterMap_append

/-! ## What is built, part by part -/

/-- The errors are warned of, in order, and nothing else is if no body failed. -/
structure Built.Warned (b : Built) : Prop where
  sublist : (b.errors.map SpecError.message).Sublist (warnedErrors b.events)
  all : (∀ table index message, .bodyFailed table index message ∉ b.errors) →
    b.errors.map SpecError.message = warnedErrors b.events

namespace Built.Warned

theorem empty : Warned {} where
  sublist := .slnil
  all _ := rfl

theorem append {a b : Built} (ha : a.Warned) (hb : b.Warned) : (a.append b).Warned where
  sublist := by
    show ((a.errors ++ b.errors).map SpecError.message).Sublist (warnedErrors (a.events ++ b.events))
    rw [List.map_append, warnedErrors_append]
    exact ha.sublist.append hb.sublist
  all h := by
    have hfirst := ha.all fun table index message hmem => h table index message (List.mem_append_left _ hmem)
    have hsecond := hb.all fun table index message hmem => h table index message (List.mem_append_right _ hmem)
    show (a.errors ++ b.errors).map SpecError.message = warnedErrors (a.events ++ b.events)
    rw [List.map_append, warnedErrors_append, hfirst, hsecond]

/-- Nodes have no part in it, and neither have events that are no warnings. -/
theorem of_eq {a b : Built} (ha : a.Warned) (herrors : b.errors = a.errors)
    (hevents : warnedErrors b.events = warnedErrors a.events) : b.Warned where
  sublist := by
    rw [herrors, hevents]
    exact ha.sublist
  all h := by
    rw [herrors] at h ⊢
    rw [hevents]
    exact ha.all h

/-- A table that is dropped before its body is looked at. -/
theorem dropped_at_once (error : SpecError) : (Built.dropped error []).Warned where
  sublist := by simp [Built.dropped, warnedErrors]
  all _ := by simp [Built.dropped, warnedErrors]

/-- A table that is dropped for its body. What was warned of below the entries before stays warned of. -/
theorem dropped_for_body (table : String) (index : Nat) (message : String) (events : List Event) :
    (Built.dropped (.bodyFailed table index message) events).Warned where
  sublist := by
    simp only [Built.dropped, warnedErrors_append]
    exact List.sublist_append_right _ _
  all h := absurd (List.mem_singleton_self _) (h table index message)

end Built.Warned

theorem expandEntries_failure {label : String} {each : Nat → Entry → Except String Built} {i : Nat}
    {entries : List Entry} {error : SpecError} (h : (expandEntries label each i entries).failure = some error) :
    ∃ index message, error = .bodyFailed label index message := by
  induction entries generalizing i with
  | nil => cases h
  | cons e rest ih =>
    rw [expandEntries] at h
    split at h
    · cases h
      exact ⟨_, _, rfl⟩
    · exact ih h

/-- The entries that have been expanded, if it holds below each of them. -/
theorem warned_expandEntries {label : String} {each : Nat → Entry → Except String Built}
    (h : ∀ i e below, each i e = .ok below → below.Warned) (i : Nat) (entries : List Entry) :
    (expandEntries label each i entries).built.Warned := by
  induction entries generalizing i with
  | nil => exact .empty
  | cons e rest ih =>
    rw [expandEntries]
    split
    · exact .empty
    · rename_i below hbelow
      exact ((h i e below hbelow).append (ih (i + 1))).of_eq rfl rfl

theorem warned_buildSequence_of_mem {ds : List Declaration} (h : ∀ d ∈ ds, ∀ s : Scope, (d.build s).Warned)
    (s : Scope) (i : Nat) : (buildSequence s i ds).Warned := by
  induction ds generalizing i with
  | nil =>
    rw [buildSequence]
    exact .empty
  | cons d rest ih =>
    rw [buildSequence]
    have hfirst := h d List.mem_cons_self (s.child i)
    exact hfirst.append (ih (fun d' hd' => h d' (List.mem_cons_of_mem d hd')) (i + 1))

/-- A subtree table whose numbers of arguments are right, if it holds of what its body declares. -/
theorem warned_expand {body : TableBody} (hsub : body.isSubtree = true)
    (h : ∀ (args : Arguments) (s : Scope), (buildSequence s 0 (body.declared args)).Warned) (s : Scope)
    (label : String) (entries : List Entry) : (body.expand s label entries).Warned := by
  have hbuilt : (expandEntries label (body.tryBelow s) 0 entries).built.Warned := by
    refine warned_expandEntries (fun i e below hbelow => ?_) 0 entries
    rw [TableBody.tryBelow] at hbelow
    split at hbelow
    · cases hbelow
    · cases hbelow
      exact h e.arguments _
  rw [TableBody.expand_eq hsub, Expansion.finish]
  split
  · exact hbuilt
  · rename_i error hfailure
    obtain ⟨index, message, rfl⟩ := expandEntries_failure hfailure
    exact .dropped_for_body label index message _

theorem warned_build (d : Declaration) : ∀ s : Scope, (d.build s).Warned := by
  induction d using Declaration.induct with
  | leaf label work =>
    intro s
    rw [Declaration.build]
    exact Built.Warned.empty.of_eq rfl rfl
  | container label body ih =>
    intro s
    rw [Declaration.build]
    refine (warned_buildSequence_of_mem ih s 0).of_eq rfl ?_
    rw [warnedErrors_append]
    exact List.append_nil _
  | leaves label arity entries work =>
    intro s
    rw [Declaration.build]
    split
    · exact .dropped_at_once _
    · rw [TableBody.expand]
      exact Built.Warned.empty.of_eq rfl rfl
  | subtree label arity entries body hsub ih =>
    intro s
    rw [Declaration.build]
    split
    · exact .dropped_at_once _
    · have hbelow := fun args s => warned_buildSequence_of_mem (ih args) s 0
      exact (warned_expand hsub hbelow s label entries).of_eq rfl rfl

/-- The texts of the errors of a build are found among the texts that its warnings of dropped tables give, in the same
order. If no error says that a body failed, there are no other warnings. -/
theorem build_warns_of_errors (ds : List Declaration) :
    ((build ds).errors.map SpecError.message).Sublist (warnedErrors (build ds).events) ∧
      ((∀ table index message, .bodyFailed table index message ∉ (build ds).errors) →
        (build ds).errors.map SpecError.message = warnedErrors (build ds).events) := by
  have hwarned : (build ds).Warned := by
    refine (warned_buildSequence_of_mem (fun d _ => warned_build d) {} 0).of_eq rfl ?_
    -- the events of the build itself, before the first declaration and behind the last, are no warnings
    show warnedErrors ((_ :: (buildSequence {} 0 ds).events) ++ [.exit]) = _
    rw [warnedErrors_append]
    exact List.append_nil _
  exact ⟨hwarned.sublist, hwarned.all⟩

/-- Below each entry of a table there is one whose row has no argument. It is dropped and warned of twice. If the body
fails for the second entry, it has been warned of once, and the error is that of the table around it. -/
theorem build_warns_of_errors_nested_tables :
    let inner := Declaration.table "inner" (some 1) [⟨"row", []⟩] (.leaves .noop)
    let outer (failure : Arguments → Option String) : Declaration :=
      .table "outer" none [⟨"first", [.nil]⟩, ⟨"second", [.bool true]⟩] (.record (fun _ => [inner]) failure)
    let kept := build [outer fun _ => none]
    let failing := build [outer fun args => if args = [.bool true] then some "boom" else none]
    (kept.errors.map SpecError.message = warnedErrors kept.events ∧ kept.errors.length = 2) ∧
      (failing.errors.map SpecError.message).Sublist (warnedErrors failing.events) ∧
      failing.errors.length = 1 ∧ (warnedErrors failing.events).length = 2 := by
  intro inner outer kept failing
  have hkept : kept.errors = [.arityMismatch "inner" 0 1 0, .arityMismatch "inner" 0 1 0] := by
    rfl
  obtain ⟨-, hall⟩ := build_warns_of_errors [outer fun _ => none]
  obtain ⟨hsublist, -⟩ :=
    build_warns_of_errors [outer fun args => if args = [.bool true] then some "boom" else none]
  refine ⟨⟨hall ?_, by rw [hkept]; rfl⟩, hsublist, by rfl, by rfl⟩
  intro table index message hmem
  change _ ∈ kept.errors at hmem
  simp [hkept] at hmem

end SpecForest

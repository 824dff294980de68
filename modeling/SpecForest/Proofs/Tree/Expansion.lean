import SpecForest.Tree.Build

/-!
# What becomes of a table

The outcome of expanding a table, said once for every kind of body. A table is dropped for one of three
causes: an entry does not fit a known arity, an entry does not fit the first one, or the body of a subtree
table fails for an entry. In each case the error names the first such entry. Otherwise every entry is
expanded.

Replayed and recorded bodies differ only in the scope in which the declarations of an entry are built, so
both are treated together through `TableBody.declared` and `TableBody.failure`.
-/

namespace SpecForest

/-! ## Induction over declarations -/

section

variable {motive : Declaration → Prop}
  (leaf : ∀ label work, motive (.leaf label work))
  (container : ∀ label body, (∀ d ∈ body, motive d) → motive (.container label body))
  (leaves : ∀ label arity entries work, motive (.table label arity entries (.leaves work)))
  (subtree : ∀ label arity entries (body : TableBody), body.isSubtree = true →
    (∀ args, ∀ d ∈ body.declared args, motive d) → motive (.table label arity entries body))

include leaf container leaves subtree

set_option linter.unusedSectionVars false

mutual

/-- A property of declarations holds of all, if it passes from the declarations in the body of a container
or of a subtree table to the declaration itself. -/
theorem Declaration.induct : ∀ d, motive d
  | .leaf label work => leaf label work
  | .container label body => container label body (Declaration.induct_mem body)
  | .table label arity entries (.leaves work) => leaves label arity entries work
  | .table label arity entries (.replay template) =>
    subtree label arity entries (.replay template) rfl fun _ => Declaration.induct_mem template
  | .table label arity entries (.record declared failure) =>
    subtree label arity entries (.record declared failure) rfl
      fun args => Declaration.induct_mem (declared args)

theorem Declaration.induct_mem : ∀ (ds : List Declaration), ∀ d ∈ ds, motive d
  | [], _, h => absurd h List.not_mem_nil
  | first :: rest, d, h =>
    match List.mem_cons.mp h with
    | .inl heq => heq ▸ Declaration.induct first
    | .inr hrest => Declaration.induct_mem rest d hrest

end

end

/-! ## The first entry of a kind -/

/-- The entry at an index has a property that no entry before it has. -/
structure IsFirst (p : Entry → Prop) (entries : List Entry) (index : Nat) (entry : Entry) : Prop where
  found : entries[index]? = some entry
  holds : p entry
  before : ∀ (j : Nat) (e : Entry), j < index → entries[j]? = some e → ¬ p e

namespace IsFirst

variable {p : Entry → Prop} {entries : List Entry} {index : Nat} {entry e : Entry}

theorem mem (h : IsFirst p entries index entry) : entry ∈ entries :=
  List.mem_of_getElem? h.found

theorem head (h : p e) : IsFirst p (e :: entries) 0 e :=
  ⟨rfl, h, fun j _ hj => absurd hj (Nat.not_lt_zero j)⟩

/-- Behind an entry without the property, the first one with it is the first one in the rest. -/
theorem cons_iff (h : ¬ p e) :
    IsFirst p (e :: entries) (index + 1) entry ↔ IsFirst p entries index entry := by
  constructor
  · intro hf
    refine ⟨hf.found, hf.holds, fun j f hj hget => ?_⟩
    exact hf.before (j + 1) f (by omega) (by simpa using hget)
  · intro hf
    refine ⟨by simpa using hf.found, hf.holds, fun j f hj hget => ?_⟩
    cases j with
    | zero =>
      cases hget
      exact h
    | succ j => exact hf.before j f (by omega) (by simpa using hget)

/-- Either no entry has the property, or one of them is the first that has it. -/
theorem exists_or (p : Entry → Prop) (entries : List Entry) :
    (∀ e ∈ entries, ¬ p e) ∨ ∃ index entry, IsFirst p entries index entry := by
  induction entries with
  | nil => exact .inl fun e he => absurd he List.not_mem_nil
  | cons e rest ih =>
    by_cases he : p e
    · exact .inr ⟨0, e, head he⟩
    · rcases ih with hnone | ⟨index, entry, hfirst⟩
      · exact .inl fun f hf => (List.mem_cons.mp hf).elim (fun h => h ▸ he) (hnone f)
      · exact .inr ⟨index + 1, entry, (cons_iff he).mpr hfirst⟩

end IsFirst

/-! ## Numbers of arguments -/

/-- The entries have as many arguments as the arity says, or all equally many if it says nothing. -/
def FitsArity (arity : Option Nat) (entries : List Entry) : Prop :=
  match arity with
  | some expected => ∀ e ∈ entries, e.arguments.length = expected
  | none => ∀ e ∈ entries, ∀ f ∈ entries, e.arguments.length = f.arguments.length

theorem firstMismatch_eq_some_iff (expected : Nat) (entries : List Entry) (index : Nat) (entry : Entry) :
    firstMismatch expected entries = some (index, entry) ↔
      IsFirst (fun e => e.arguments.length ≠ expected) entries index entry := by
  simp only [firstMismatch, Option.map_eq_some_iff, Prod.mk.injEq, Prod.exists,
    List.find?_eq_some_iff_getElem]
  constructor
  · rintro ⟨e, j, ⟨hp, i, hi, hget, hbefore⟩, rfl, rfl⟩
    simp only [List.length_zipIdx] at hi
    simp only [List.getElem_zipIdx, Nat.zero_add, Prod.mk.injEq] at hget
    obtain ⟨rfl, rfl⟩ := hget
    refine ⟨by simp [hi], by simpa using hp, fun k f hk hf => ?_⟩
    obtain ⟨hlt, rfl⟩ := List.getElem?_eq_some_iff.mp hf
    have := hbefore k hk
    simpa using this
  · intro hfirst
    obtain ⟨hlt, hget⟩ := List.getElem?_eq_some_iff.mp hfirst.found
    refine ⟨entry, index, ⟨by simpa using hfirst.holds, index, by simpa using hlt, ?_, ?_⟩, rfl, rfl⟩
    · simp [hget]
    · intro k hk
      have := hfirst.before k _ hk (List.getElem?_eq_getElem (by omega))
      simpa using this

theorem firstMismatch_eq_none_iff (expected : Nat) (entries : List Entry) :
    firstMismatch expected entries = none ↔ ∀ e ∈ entries, e.arguments.length = expected := by
  rcases IsFirst.exists_or (fun e => e.arguments.length ≠ expected) entries with hnone | ⟨i, e, hfirst⟩
  · have hfit : ∀ e ∈ entries, e.arguments.length = expected := fun e he => Decidable.not_not.mp (hnone e he)
    refine ⟨fun _ => hfit, fun _ => ?_⟩
    refine Option.eq_none_iff_forall_ne_some.mpr fun ⟨i, e⟩ h => ?_
    have hfirst := (firstMismatch_eq_some_iff expected entries i e).mp h
    exact hfirst.holds (hfit e hfirst.mem)
  · rw [(firstMismatch_eq_some_iff expected entries i e).mpr hfirst]
    exact ⟨fun h => (Option.some_ne_none _ h).elim, fun h => absurd (h e hfirst.mem) hfirst.holds⟩

theorem arityError?_eq_none_iff (label : String) (arity : Option Nat) (entries : List Entry) :
    arityError? label arity entries = none ↔ FitsArity arity entries := by
  cases arity with
  | some expected => simp [arityError?, FitsArity, firstMismatch_eq_none_iff]
  | none =>
    cases entries with
    | nil => simp [arityError?, FitsArity]
    | cons first rest =>
      simp only [arityError?, FitsArity, Option.map_eq_none_iff, firstMismatch_eq_none_iff]
      constructor
      · intro h e he f hf
        rw [h e he, h f hf]
      · intro h e he
        exact h e he first List.mem_cons_self

/-! ## Causes for dropping a table -/

/-- Why a table is dropped, and the error that says so. The numbers of arguments are looked at first; the
body counts only if they are right. The unit of work of a leaf table never fails here. -/
inductive Drops (label : String) : Option Nat → List Entry → TableBody → SpecError → Prop
  | known {expected index : Nat} {entries : List Entry} {entry : Entry} {body : TableBody}
      (first : IsFirst (fun e => e.arguments.length ≠ expected) entries index entry) :
      Drops label (some expected) entries body
        (.arityMismatch label index expected entry.arguments.length)
  | unknown {index : Nat} {head entry : Entry} {rest : List Entry} {body : TableBody}
      (first : IsFirst (fun e => e.arguments.length ≠ head.arguments.length) (head :: rest) index entry) :
      Drops label none (head :: rest) body
        (.structural ("table " ++ quoted label)
          ("entries have heterogeneous arity: entry 0 supplies " ++ toString head.arguments.length
            ++ " argument(s), entry " ++ toString index ++ " supplies "
            ++ toString entry.arguments.length))
  | failed {arity : Option Nat} {index : Nat} {entries : List Entry} {entry : Entry} {body : TableBody}
      {message : String} (fits : FitsArity arity entries)
      (first : IsFirst (fun e => body.failure e.arguments ≠ none) entries index entry)
      (message_eq : body.failure entry.arguments = some message) :
      Drops label arity entries body (.bodyFailed label index message)

/-- What keeps a table in the tree: the numbers of arguments are right, and the body fails for no entry. -/
structure Keeps (arity : Option Nat) (entries : List Entry) (body : TableBody) : Prop where
  fits : FitsArity arity entries
  succeeds : ∀ e ∈ entries, body.failure e.arguments = none

section

variable {label : String} {arity : Option Nat} {entries : List Entry} {body : TableBody} {error : SpecError}

theorem arityError?_eq_some_iff :
    arityError? label arity entries = some error ↔
      ¬ FitsArity arity entries ∧ Drops label arity entries body error := by
  constructor
  · intro h
    have hfits : ¬ FitsArity arity entries := fun hfits => by
      rw [(arityError?_eq_none_iff label arity entries).mpr hfits] at h
      cases h
    refine ⟨hfits, ?_⟩
    cases arity with
    | some expected =>
      obtain ⟨⟨index, entry⟩, hm, rfl⟩ := Option.map_eq_some_iff.mp h
      exact .known ((firstMismatch_eq_some_iff _ _ _ _).mp hm)
    | none =>
      cases entries with
      | nil => cases h
      | cons head rest =>
        obtain ⟨⟨index, entry⟩, hm, rfl⟩ := Option.map_eq_some_iff.mp h
        exact .unknown ((firstMismatch_eq_some_iff _ _ _ _).mp hm)
  · rintro ⟨hfits, hdrops⟩
    cases hdrops with
    | known first => simp [arityError?, (firstMismatch_eq_some_iff _ _ _ _).mpr first]
    | unknown first => simp [arityError?, (firstMismatch_eq_some_iff _ _ _ _).mpr first]
    | failed fits _ _ => exact absurd fits hfits

/-- Every table is kept or dropped. -/
theorem keeps_or_drops (label : String) (arity : Option Nat) (entries : List Entry) (body : TableBody) :
    Keeps arity entries body ∨ ∃ error, Drops label arity entries body error := by
  cases harity : arityError? label arity entries with
  | some error => exact .inr ⟨error, (arityError?_eq_some_iff.mp harity).2⟩
  | none =>
    have hfits := (arityError?_eq_none_iff label arity entries).mp harity
    rcases IsFirst.exists_or (fun e => body.failure e.arguments ≠ none) entries with hnone | ⟨i, e, hfirst⟩
    · exact .inl ⟨hfits, fun e he => Decidable.not_not.mp (hnone e he)⟩
    · obtain ⟨message, hmessage⟩ := Option.ne_none_iff_exists'.mp hfirst.holds
      exact .inr ⟨_, .failed hfits hfirst hmessage⟩

/-- No table is both kept and dropped. -/
theorem Drops.not_keeps (h : Drops label arity entries body error) : ¬ Keeps arity entries body := by
  intro hkeeps
  cases h with
  | known first => exact first.holds (hkeeps.fits _ first.mem)
  | unknown first => exact first.holds (hkeeps.fits _ first.mem _ List.mem_cons_self)
  | failed _ first _ => exact first.holds (hkeeps.succeeds _ first.mem)

end

/-! ## Expanding the entries -/

namespace TableBody

/-- The scope in which the declarations for an entry are built. -/
def scope (s : Scope) (i : Nat) (arguments : Arguments) : TableBody → Scope
  | replay _ => s.replayed i arguments
  | _ => s.recorded i arguments

@[simp] theorem scope_arguments (s : Scope) (i : Nat) (arguments : Arguments) (body : TableBody) :
    (body.scope s i arguments).arguments = some arguments := by
  cases body <;> rfl

/-- What is built below an entry. -/
def builtBelow (s : Scope) (body : TableBody) (i : Nat) (e : Entry) : Built :=
  buildSequence (body.scope s i e.arguments) 0 (body.declared e.arguments)

/-- What is built below an entry, or the message with which the body fails for it. -/
def tryBelow (s : Scope) (body : TableBody) (i : Nat) (e : Entry) : Except String Built :=
  match body.failure e.arguments with
  | some message => .error message
  | none => .ok (body.builtBelow s i e)

theorem expand_eq {body : TableBody} (h : body.isSubtree = true) (s : Scope) (label : String)
    (entries : List Entry) :
    body.expand s label entries = (expandEntries label (body.tryBelow s) 0 entries).finish := by
  cases body with
  | leaves work => cases h
  | replay template =>
    rw [expand]
    rfl
  | record declared failure =>
    rw [expand]
    rfl

end TableBody

/-- The container that an entry becomes. -/
def entryNode (label : String) (i : Nat) (e : Entry) (children : Forest) : Node :=
  .container { label := e.description, origin := some ⟨label, i⟩ } children

/-- Entries that all succeed, each a container, from an index on. -/
def expandAll (label : String) (each : Nat → Entry → Built) (i : Nat) : List Entry → Built
  | [] => {}
  | e :: rest => Built.append
      { each i e with nodes := [entryNode label i e (each i e).nodes] }
      (expandAll label each (i + 1) rest)

section

variable {label : String} {arity : Option Nat} {entries : List Entry} {body : TableBody}

theorem expandEntries_of_succeeds (s : Scope) (i : Nat)
    (h : ∀ e ∈ entries, body.failure e.arguments = none) :
    expandEntries label (body.tryBelow s) i entries =
      { built := expandAll label (body.builtBelow s) i entries } := by
  induction entries generalizing i with
  | nil => rfl
  | cons e rest ih =>
    have hrest := ih (i + 1) fun f hf => h f (List.mem_cons_of_mem e hf)
    simp only [expandEntries, TableBody.tryBelow, h e List.mem_cons_self]
    rw [hrest]
    rfl

theorem expandEntries_of_first {message : String} {index : Nat} {entry : Entry} (s : Scope) (i : Nat)
    (first : IsFirst (fun e => body.failure e.arguments ≠ none) entries index entry)
    (message_eq : body.failure entry.arguments = some message) :
    (expandEntries label (body.tryBelow s) i entries).failure =
      some (.bodyFailed label (i + index) message) := by
  induction entries generalizing i index with
  | nil => cases first.found
  | cons e rest ih =>
    cases index with
    | zero =>
      cases first.found
      simp [expandEntries, TableBody.tryBelow, message_eq]
    | succ index =>
      -- the entry in front does not fail, since the first one that does is further back
      have he : body.failure e.arguments = none :=
        Decidable.not_not.mp (first.before 0 e (Nat.succ_pos index) rfl)
      have hrest := ih (i + 1) ((IsFirst.cons_iff (by simp [he])).mp first)
      simp only [expandEntries, TableBody.tryBelow, he, hrest]
      rw [Nat.add_assoc, Nat.add_comm 1 index]

/-! ## Building a table -/

/-- A table that is dropped leaves its error alone. -/
theorem Declaration.build_of_drops {error : SpecError} (s : Scope)
    (h : Drops label arity entries body error) :
    ∃ events, (Declaration.table label arity entries body).build s = .dropped error events := by
  by_cases hfits : FitsArity arity entries
  · have harity := (arityError?_eq_none_iff label arity entries).mpr hfits
    cases h with
    | known first => exact absurd (hfits _ first.mem) first.holds
    | unknown first => exact absurd (hfits _ first.mem _ List.mem_cons_self) first.holds
    | failed _ first message_eq =>
      -- a unit of work cannot fail here, so the body declares something
      have hsub : body.isSubtree = true := by
        cases body with
        | leaves work => exact absurd rfl first.holds
        | replay template => rfl
        | record declared failure => rfl
      have hfail : (expandEntries label (body.tryBelow s) 0 entries).failure = _ :=
        expandEntries_of_first s 0 first message_eq
      rw [Nat.zero_add] at hfail
      rw [Declaration.build, harity]
      simp only [TableBody.expand_eq hsub, Expansion.finish, hfail]
      exact ⟨_ :: _, rfl⟩
  · refine ⟨[], ?_⟩
    rw [Declaration.build, arityError?_eq_some_iff.mpr ⟨hfits, h⟩]

theorem Declaration.nodes_build_of_drops {error : SpecError} (s : Scope)
    (h : Drops label arity entries body error) :
    ((Declaration.table label arity entries body).build s).nodes = [] := by
  obtain ⟨events, hbuild⟩ := Declaration.build_of_drops s h
  rw [hbuild]
  rfl

theorem Declaration.errors_build_of_drops {error : SpecError} (s : Scope)
    (h : Drops label arity entries body error) :
    ((Declaration.table label arity entries body).build s).errors = [error] := by
  obtain ⟨events, hbuild⟩ := Declaration.build_of_drops s h
  rw [hbuild]
  rfl

/-- A leaf table that is kept has one leaf for each entry. -/
theorem Declaration.build_leaves_of_fits {work : Work} (s : Scope) (h : FitsArity arity entries) :
    (Declaration.table label arity entries (.leaves work)).build s =
      { nodes := expandLeaves label ⟨s.bodyId, work⟩ entries
        events := [.expanding label entries.length false] } := by
  rw [Declaration.build, (arityError?_eq_none_iff label arity entries).mpr h]
  simp only [TableBody.expand]
  rfl

/-- A subtree table that is kept has one container for each entry. -/
theorem Declaration.build_subtree_of_keeps (s : Scope) (hsub : body.isSubtree = true)
    (h : Keeps arity entries body) :
    (Declaration.table label arity entries body).build s =
      { expandAll label (body.builtBelow s) 0 entries with
        events := .expanding label entries.length true ::
          (expandAll label (body.builtBelow s) 0 entries).events } := by
  rw [Declaration.build, (arityError?_eq_none_iff label arity entries).mpr h.fits]
  simp only [TableBody.expand_eq hsub, expandEntries_of_succeeds s 0 h.succeeds, Expansion.finish, hsub]

end

end SpecForest

import SpecForest.Declaration
import SpecForest.Event
import SpecForest.Tree.Node

/-!
# Building the tree

Declarations become nodes in order, and tables are expanded in place. A table whose entries do not
fit its arity, or whose body fails for an entry, is dropped whole: it leaves no node and one error. The
errors of tables inside the entries expanded before the failure are dropped with it; what was reported
as events stays reported.
-/

namespace SpecForest

/-- What is known while one sequence of declarations is built: the bound arguments, the place in the
expansion, and the place of the units of work among those recorded together. Indexes are kept innermost
first. -/
structure Scope where
  arguments : Option Arguments := none
  place : List Nat := []
  occasion : List Nat := []
  unit : List Nat := []

namespace Scope

/-- The scope of the declaration at an index. -/
def child (s : Scope) (i : Nat) : Scope :=
  { s with place := i :: s.place, unit := i :: s.unit }

/-- The scope of an entry whose declarations are those of a template: its units of work are the
template's own. -/
def replayed (s : Scope) (i : Nat) (arguments : Arguments) : Scope :=
  { s with arguments := some arguments, place := i :: s.place }

/-- The scope of an entry whose declarations were recorded for it alone. -/
def recorded (s : Scope) (i : Nat) (arguments : Arguments) : Scope :=
  { arguments := some arguments, place := i :: s.place, occasion := i :: s.place, unit := [] }

/-- Where the unit of work of the declaration in this scope was recorded. -/
def bodyId (s : Scope) : BodyId := ⟨s.occasion, s.unit⟩

end Scope

/-- The nodes built from some declarations, the errors of the tables that were dropped, and the events
in between. -/
structure Built where
  nodes : Forest := []
  errors : List SpecError := []
  events : List Event := []

namespace Built

/-- First the one, then the other. -/
def append (a b : Built) : Built :=
  ⟨a.nodes ++ b.nodes, a.errors ++ b.errors, a.events ++ b.events⟩

/-- What is left of a table that is dropped: its error, and the events until then. -/
def dropped (error : SpecError) (events : List Event) : Built :=
  { errors := [error], events := events ++ [.dropping error] }

end Built

/-- The entries of a subtree table expanded so far, and the error if one of them failed. -/
structure Expansion where
  built : Built := {}
  failure : Option SpecError := none

/-- Expands the entries of a subtree table from an index on, up to the first that fails. `each` gives
what is built below an entry, or the message with which its body failed. -/
def expandEntries (label : String) (each : Nat → Entry → Except String Built) (i : Nat) :
    List Entry → Expansion
  | [] => {}
  | entry :: rest =>
    match each i entry with
    | .error message => { failure := some (.bodyFailed label i message) }
    | .ok below =>
      let head : Header := { label := entry.description, origin := some ⟨label, i⟩ }
      let after := expandEntries label each (i + 1) rest
      { built :=
          { nodes := .container head below.nodes :: after.built.nodes
            errors := below.errors ++ after.built.errors
            events := below.events ++ after.built.events }
        failure := after.failure }

/-- All entries or none. -/
def Expansion.finish (e : Expansion) : Built :=
  match e.failure with
  | none => e.built
  | some error => .dropped error e.built.events

/-- One leaf for each entry of a table, all with one body. -/
def expandLeaves (label : String) (body : Body) (entries : List Entry) : Forest :=
  entries.zipIdx.map fun (entry, i) =>
    .leaf { label := entry.description, origin := some ⟨label, i⟩ } body (some entry.arguments)

mutual

/-- Builds one declaration. -/
def Declaration.build (s : Scope) : Declaration → Built
  | .container label body =>
    let below := buildSequence s 0 body
    { below with
      nodes := [.container { label } below.nodes]
      events := below.events ++ [.container label below.nodes.length] }
  | .leaf label work =>
    { nodes := [.leaf { label } ⟨s.bodyId, work⟩ s.arguments], events := [.leaf label] }
  | .table label arity entries body =>
    match arityError? label arity entries with
    | some error => .dropped error []
    | none =>
      let built := body.expand s label entries
      { built with events := .expanding label entries.length body.isSubtree :: built.events }

/-- Expands the entries of a table whose numbers of arguments are right. -/
def TableBody.expand (s : Scope) (label : String) (entries : List Entry) : TableBody → Built
  | .leaves work => { nodes := expandLeaves label ⟨s.bodyId, work⟩ entries }
  | .replay template =>
    (expandEntries label
      (fun i e => .ok (buildSequence (s.replayed i e.arguments) 0 template)) 0 entries).finish
  | .record declared failure =>
    (expandEntries label
      (fun i e =>
        match failure e.arguments with
        | some message => .error message
        | none => .ok (buildSequence (s.recorded i e.arguments) 0 (declared e.arguments)))
      0 entries).finish

/-- Builds a sequence of declarations, the first of which has an index. -/
def buildSequence (s : Scope) (i : Nat) : List Declaration → Built
  | [] => {}
  | d :: rest => (d.build (s.child i)).append (buildSequence s (i + 1) rest)

end

/-- Builds everything that can be built. -/
def build (ds : List Declaration) : Built :=
  let built := buildSequence {} 0 ds
  { built with events := .enter (.building ds.length) :: built.events ++ [.exit] }

/-- The forest if no table was dropped, otherwise the first error. -/
def Built.strict (b : Built) : Except SpecError Forest :=
  match b.errors with
  | [] => .ok b.nodes
  | error :: _ => .error error

end SpecForest

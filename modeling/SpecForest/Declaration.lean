import SpecForest.Error
import SpecForest.Work

/-!
# Declarations

What a suite declares, before any table is expanded: containers, leaves, and tables whose entries
share one body. The body of a table is a unit of work, run once per entry, or it declares a subtree
for each entry: by replaying a template, or by recording declarations from the entry's arguments, which
may fail.
-/

namespace SpecForest

/-- A row of a table. -/
structure Entry where
  description : String
  arguments : Arguments
  deriving DecidableEq

/-- A row without a description is described by its arguments. -/
def Entry.unnamed (arguments : Arguments) : Entry :=
  { description := "Entry: " ++ Arguments.text arguments, arguments }

mutual

/-- One declaration of a suite. -/
inductive Declaration
  | container (label : String) (body : List Declaration)
  | leaf (label : String) (work : Work)
  | table (label : String) (arity : Option Nat) (entries : List Entry) (body : TableBody)

/-- What a table does for each of its entries. -/
inductive TableBody
  /-- One leaf, all of them with the same unit of work. -/
  | leaves (work : Work)
  /-- A container with the declarations of a template. -/
  | replay (template : List Declaration)
  /-- A container with what is recorded for the entry's arguments. `declared` is what has been
  recorded when recording ends, and `failure` is the message if it ends early. -/
  | record (declared : Arguments → List Declaration) (failure : Arguments → Option String)

end

/-- The label of a declaration. -/
def Declaration.label : Declaration → String
  | container label _ => label
  | leaf label _ => label
  | table label _ _ _ => label

namespace TableBody

/-- Whether each entry becomes a subtree. -/
def isSubtree : TableBody → Bool
  | leaves _ => false
  | replay _ => true
  | record _ _ => true

/-- What a body of a subtree table declares for some arguments. -/
def declared : TableBody → Arguments → List Declaration
  | leaves _, _ => []
  | replay template, _ => template
  | record declared _, args => declared args

/-- The message with which a body fails for some arguments. -/
def failure : TableBody → Arguments → Option String
  | leaves _, _ => none
  | replay _, _ => none
  | record _ failure, args => failure args

end TableBody

/-! ## The number of arguments -/

/-- The first entry, with its index, that has another number of arguments than `expected`. -/
def firstMismatch (expected : Nat) (entries : List Entry) : Option (Nat × Entry) :=
  (entries.zipIdx.find? fun e => e.1.arguments.length != expected).map fun e => (e.2, e.1)

/-- What is wrong with the numbers of arguments in a table. If the arity is known, every entry must
have that many arguments; if not, every entry must have as many as the first. -/
def arityError? (label : String) (arity : Option Nat) (entries : List Entry) : Option SpecError :=
  match arity with
  | some expected => (firstMismatch expected entries).map fun (index, entry) =>
    .arityMismatch label index expected entry.arguments.length
  | none =>
    match entries with
    | [] => none
    | first :: _ =>
      let expected := first.arguments.length
      (firstMismatch expected entries).map fun (index, entry) =>
        .structural ("table " ++ quoted label)
          ("entries have heterogeneous arity: entry 0 supplies " ++ toString expected
            ++ " argument(s), entry " ++ toString index ++ " supplies "
            ++ toString entry.arguments.length)

end SpecForest

/-!
# Errors

What can go wrong when a source is read and scanned and when a table is expanded, and the text of each.
-/

namespace SpecForest

/-- Why a source file could not be read. -/
inductive ReadFailure
  | missing
  | directory
  | notText
  deriving DecidableEq

/-- The text of a failure to read. -/
def ReadFailure.message : ReadFailure → String
  | missing => "No such file or directory (os error 2)"
  | directory => "Is a directory (os error 21)"
  | notText => "stream did not contain valid UTF-8"

/-- What keeps a source from being scanned or a table from being expanded. -/
inductive SpecError
  /-- The source text or a table is ill-formed, at a place and for a reason. -/
  | structural (context reason : String)
  /-- An entry of a table has another number of arguments than the unit of work takes. -/
  | arityMismatch (table : String) (index expected found : Nat)
  /-- The body of a subtree table failed while it recorded an entry. -/
  | bodyFailed (table : String) (index : Nat) (message : String)
  /-- A source file could not be read. -/
  | unreadable (path : String) (failure : ReadFailure)
  deriving DecidableEq

/-- A name between double quotes, as messages show tables. -/
def quoted (name : String) : String :=
  "\"" ++ name ++ "\""

/-- The text of an error. -/
def SpecError.message : SpecError → String
  | structural context reason => "structural error in " ++ context ++ ": " ++ reason
  | arityMismatch table index expected found =>
    "table " ++ quoted table ++ ": entry " ++ toString index ++ " supplies " ++ toString found
      ++ " argument(s) but the unit of work takes " ++ toString expected
  | bodyFailed table index message =>
    "table " ++ quoted table ++ ": subtree body for entry " ++ toString index ++ " panicked: "
      ++ message
  | unreadable path failure => "failed to read spec source " ++ path ++ ": " ++ failure.message

end SpecForest

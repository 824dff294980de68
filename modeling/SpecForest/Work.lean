import SpecForest.Value.Basic

/-!
# Units of work

The body of a leaf is opaque: nothing here runs it except a caller who invokes a leaf. What invoking
it shows is its outcome, the lines that it logs and the message with which it fails, if it does.
-/

namespace SpecForest

/-- What running a unit of work shows. -/
structure Outcome where
  log : List String := []
  failure : Option String := none
  deriving DecidableEq, Inhabited

/-- A unit of work, run with the arguments bound to its leaf. -/
abbrev Work := Arguments → Outcome

/-- The unit of work that does nothing. -/
def Work.noop : Work := fun _ => {}

/-- Where the body of a leaf was recorded: `occasion` tells the call of a recording body from all other
calls, and `unit` tells the unit of work from the others recorded in that call. Two leaves share one
body if both agree. -/
structure BodyId where
  occasion : List Nat
  unit : List Nat
  deriving DecidableEq, Inhabited

/-- A unit of work together with where it was recorded. -/
structure Body where
  id : BodyId
  work : Work

end SpecForest

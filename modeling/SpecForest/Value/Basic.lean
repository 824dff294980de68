import SpecForest.Decimal.Shortest

/-!
# Values

The literal arguments of table entries. What could not be read as a literal is kept as the text of an
expression. Values have a text, used in descriptions and messages, and an equality that follows the
arithmetic of numbers.
-/

namespace SpecForest

/-- A literal argument. -/
inductive Value
  | int (n : Int64)
  | float (x : Binary64)
  | str (s : String)
  | bool (b : Bool)
  | nil
  | expr (source : String)
  deriving DecidableEq, Inhabited

/-- The arguments of an entry, in order. -/
abbrev Arguments := List Value

namespace Value

/-- Numbers in decimal, texts and expressions as they are. -/
def text : Value → String
  | int n => toString n.toInt
  | float x => x.text
  | str s => s
  | bool b => if b then "true" else "false"
  | nil => "nil"
  | expr source => source

/-- Equality in which numbers are compared as numbers: the two zeros are equal, and what is no number
differs from itself. -/
def equal : Value → Value → Bool
  | float x, float y => x.equal y
  | a, b => a == b

end Value

namespace Arguments

/-- The texts of all arguments, divided by commas. -/
def text (args : Arguments) : String :=
  ", ".intercalate (args.map Value.text)

/-- Equality argument by argument. -/
def equal : Arguments → Arguments → Bool
  | [], [] => true
  | a :: as, b :: bs => a.equal b && equal as bs
  | _, _ => false

end Arguments

end SpecForest

import SpecForest.Value.Basic

/-!
# Typed access to values

A body reads its arguments at types of its own. `Target` names these types and `Target.Carrier` is what
a value read at one is. Reading never guesses: an integer must lie in the range of its type, a text is a
string or the text of an expression, and only an optional type reads `nil`.
-/

namespace SpecForest

/-- The integer types, by width and sign. `size` counts things in memory. -/
inductive IntegerKind
  | int8 | int16 | int32 | int64
  | uint8 | uint16 | uint32 | uint64 | size
  deriving DecidableEq

namespace IntegerKind

/-- The least number of a kind. -/
def least : IntegerKind → Int
  | int8 => -0x80
  | int16 => -0x8000
  | int32 => -0x80000000
  | int64 => -0x8000000000000000
  | uint8 | uint16 | uint32 | uint64 | size => 0

/-- The greatest number of a kind. -/
def greatest : IntegerKind → Int
  | int8 => 0x7F
  | int16 => 0x7FFF
  | int32 => 0x7FFFFFFF
  | int64 => 0x7FFFFFFFFFFFFFFF
  | uint8 => 0xFF
  | uint16 => 0xFFFF
  | uint32 => 0xFFFFFFFF
  | uint64 | size => 0xFFFFFFFFFFFFFFFF

/-- The range of a kind. -/
def Contains (k : IntegerKind) (n : Int) : Prop :=
  k.least ≤ n ∧ n ≤ k.greatest

instance (k : IntegerKind) (n : Int) : Decidable (k.Contains n) :=
  inferInstanceAs (Decidable (_ ∧ _))

end IntegerKind

/-- The types at which arguments are read. -/
inductive Target
  | integer (k : IntegerKind)
  | single
  | double
  | bool
  | text
  | value
  | optional (t : Target)
  deriving DecidableEq

namespace Target

/-- What a value read at a type is. -/
def Carrier : Target → Type
  | integer k => { n : Int // k.Contains n }
  | single => Binary32
  | double => Binary64
  | bool => Bool
  | text => String
  | value => Value
  | optional t => Option t.Carrier

/-- A value as a number. Integers go to the nearest number. -/
def readDouble? : Value → Option Binary64
  | .float x => some x
  | .int n => some (.ofInt n.toInt)
  | _ => none

/-- A value read at a type, if it has that type. -/
def read? : (t : Target) → Value → Option t.Carrier
  | integer k, v =>
    match v with
    | .int n => if h : k.Contains n.toInt then some ⟨n.toInt, h⟩ else none
    | _ => none
  | single, v => (readDouble? v).map Binary64.toBinary32
  | double, v => readDouble? v
  | bool, v =>
    match v with
    | .bool b => some b
    | _ => none
  | text, v =>
    match v with
    | .str s | .expr s => some s
    | _ => none
  | value, v => some v
  | optional t, v =>
    match v with
    | .nil => some none
    | v => (t.read? v).map some

/-- The value that stands for an element of a type. Every absent option is `nil`, however deep it
lies. A number of an unsigned kind with 64 bits keeps its bits. -/
def write : (t : Target) → t.Carrier → Value
  | integer _, n => .int (Int64.ofInt n.val)
  | single, x => .float (Binary32.toBinary64 x)
  | double, x => .float x
  | bool, b => .bool b
  | text, s => .str s
  | value, v => v
  | optional _, none => .nil
  | optional t, some x => t.write x

end Target

/-- The argument at an index, read at a type. -/
def Arguments.read? (args : Arguments) (i : Nat) (t : Target) : Option t.Carrier :=
  args[i]?.bind t.read?

end SpecForest

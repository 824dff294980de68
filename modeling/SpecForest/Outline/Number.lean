import SpecForest.Outline.Error
import SpecForest.Outline.Stream
import SpecForest.Source.Quoted

/-!
# Numbers and fields

The literals that are numbers: whole ones, in four bases and perhaps with a suffix, and those with a point or
an exponent. A tuple's fields go by whole numbers without a suffix, and two of them behind each other look
like one number with a point.
-/

namespace SpecForest.Outline

/-- What a number literal is. -/
inductive Number
  /-- A whole number, and whether a suffix follows. -/
  | whole (value : Nat) (suffixed : Bool)
  /-- A number with a point or an exponent. -/
  | fractional
  deriving DecidableEq

/-- Whether an exponent follows its letter: a sign, or a digit behind underscores. `seen` tells that there
was a digit. -/
def isExponent (seen : Bool) : List Char → Bool
  | [] => seen
  | c :: rest =>
    if c == '_' then isExponent seen rest
    else if c == '+' || c == '-' then true
    else if c.isDigit then isExponent true rest
    else seen

/-- A whole number in a base: its value and what follows its digits. There is none before a point or an
exponent. `seen` tells that there was a digit. -/
def wholeNumber? (base value : Nat) (seen : Bool) : List Char → Option (Nat × List Char)
  | [] => if seen then some (value, []) else none
  | c :: rest =>
    if c == '_' then wholeNumber? base value seen rest
    else
      match Source.digitValue? base c with
      | some d => wholeNumber? base (value * base + d) true rest
      | none =>
        if c.isDigit || !seen then none
        else if base == 10 && (c == '.' || (c == 'e' || c == 'E') && isExponent false rest) then none
        else some (value, c :: rest)

/-- The whole number that a literal is, and its suffix. -/
def wholeLiteral? : List Char → Option (Nat × List Char)
  | '0' :: 'x' :: rest => wholeNumber? 16 0 false rest
  | '0' :: 'o' :: rest => wholeNumber? 8 0 false rest
  | '0' :: 'b' :: rest => wholeNumber? 2 0 false rest
  | cs => wholeNumber? 10 0 false cs

/-- What a literal is as a number, if it is one. -/
def Number.ofSource? (source : String) : Option Number :=
  match wholeLiteral? source.toList with
  | some (value, suffix) => some (.whole value !suffix.isEmpty)
  | none => if source.toList.head?.any Char.isDigit then some .fractional else none

/-- The fields of a tuple have numbers below this one. -/
def fieldLimit : Nat := 4294967296

/-- The number of a field, in decimal digits. `signed` tells that a minus sign stands before it. -/
def fieldNumber (signed : Bool) (source : String) : Except OutlineError Tree :=
  match Number.ofSource? source with
  | some (.whole value suffixed) =>
    if suffixed then .error .suffixedField
    else if signed then .error .signedField
    else if value < fieldLimit then .ok (.literal (toString value))
    else .error .largeField
  | _ => .error (.expected .integer false)

/-- The accesses to several fields, a point before each, and whether a point without a field follows. -/
structure FieldRun where
  tokens : Stream
  openEnded : Bool

/-- The numbers of fields behind each other; the sign belongs to the first. -/
def fieldNumbers (signed : Bool) : List String → Except OutlineError Stream
  | [] => .ok []
  | source :: rest =>
    match fieldNumber signed source with
    | .error e => .error e
    | .ok n => (fieldNumbers false rest).map (n :: ·)

/-- The accesses that a number with a point stands for. -/
def fieldRun (signed : Bool) (source : String) : Except OutlineError FieldRun :=
  let parts := source.splitOn "."
  let openEnded := parts.getLast? == some ""
  (fieldNumbers signed (if openEnded then parts.dropLast else parts)).map fun ns =>
    ⟨ns.flatMap fun n => [.punct '.' .alone, n], openEnded⟩

end SpecForest.Outline

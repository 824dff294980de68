import SpecForest.Decimal.Reading
import SpecForest.Outline.Meaning
import SpecForest.Outline.Plain
import SpecForest.Value.Target

/-!
# Typed data

The types that an outline's parameters can have, as they are written, and the data read at them. The value
of a row's element is read off its tokens if it is a literal, a name or a product of 64-bit numbers.
-/

namespace SpecForest

/-- The integer type of a name. -/
def IntegerKind.ofName? (name : String) : Option IntegerKind :=
  match name with
  | "i8" => some .int8
  | "i16" => some .int16
  | "i32" => some .int32
  | "i64" => some .int64
  | "u8" => some .uint8
  | "u16" => some .uint16
  | "u32" => some .uint32
  | "u64" => some .uint64
  | "usize" => some .size
  | _ => none

/-- The type of a name. -/
def Target.ofName? (name : String) : Option Target :=
  match name with
  | "f32" => some .single
  | "f64" => some .double
  | "bool" => some .bool
  | "String" => some .text
  | "Value" => some .value
  | _ => (IntegerKind.ofName? name).map .integer

end SpecForest

namespace SpecForest.Outline

/-- The type at the start of a stream, and what follows. -/
def takeTarget? : Stream → Option (Target × Stream)
  | .word "Option" :: .punct '<' _ :: rest =>
    match takeTarget? rest with
    | some (t, .punct '>' _ :: rest') => some (.optional t, rest')
    | _ => none
  | .punct '&' _ :: .word "str" :: rest => some (.text, rest)
  | .word name :: rest => (Target.ofName? name).map fun t => (t, rest)
  | _ => none

/-- The type that a stream is. -/
def target? (s : Stream) : Option Target :=
  match takeTarget? s with
  | some (t, []) => some t
  | _ => none

/-- A datum with its type. -/
structure Typed where
  target : Target
  datum : target.Carrier

namespace Typed

/-- The value that stands for a datum. -/
def value (x : Typed) : Value := x.target.write x.datum

/-- A value read at a type. -/
def read? (type : Stream) (v : Value) : Option Typed :=
  (target? type).bind fun t => (t.read? v).map fun datum => ⟨t, datum⟩

end Typed

/-! ## Elements of rows -/

/-- The value of a number: whole, or with a point or an exponent. -/
def numberValue? (source : String) : Option Value :=
  let digits := source.toList.filter (· != '_')
  if digits.isEmpty then none
  else if digits.all Char.isDigit then some (.int (Int64.ofNat (Decimal.ofDigits digits)))
  else (Binary64.read? digits).map .float

/-- The value of a literal. -/
def literalValue? (source : String) : Option Value :=
  match StringLiteral.ofSource? source with
  | some l => some (.str l.value)
  | none => numberValue? source

/-- The value of an element of a row: a literal, a name, or a product that wraps around at 64 bits. -/
def elementValue? (env : Environment Typed) : Stream → Option Value
  | [.literal source] => literalValue? source
  | [.word "true"] => some (.bool true)
  | [.word "false"] => some (.bool false)
  | [.word "None"] => some .nil
  | [.word name] => (env.get? name).map Typed.value
  | [.word name, .punct '.' _, .word "wrapping_mul", .group .paren [.literal factor]] =>
    match (env.get? name).map Typed.value, numberValue? factor with
    | some (.int n), some (.int k) => some (.int (n * k))
    | _, _ => none
  | _ => none

/-- The host whose data are typed and whose rows hold simple elements of the plain language. Any other element
is kept as the text of an expression. What bodies do is for the caller to say. -/
def typedHost (run : Environment Typed → Stream → Outcome) : Host where
  Datum := Typed
  typeText := plain.typeText
  read? := Typed.read?
  value env s := (elementValue? env s).getD (.expr s.valueTokens.text)
  run := run

end SpecForest.Outline

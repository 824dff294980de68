import SpecForest.Decimal.Reading
import SpecForest.Source.Quoted
import SpecForest.Source.TokenTree
import SpecForest.Value.Basic

/-!
# Literal values

The value of an argument in a source text. Numbers, strings, runes and the three constant names are
literals, and so are a signed number and strings joined by plus signs. Everything else is kept as the
source text of an expression.
-/

namespace SpecForest.Source

/-- The number that a list of digits stands for in a base. There must be at least one digit. -/
def numberIn? (base : Nat) (cs : List Char) : Option Nat :=
  if cs.isEmpty then none else readDigits? base cs.length 0 cs

/-- The number that an integer literal stands for. Underscores do not count, letters of both cases are
the same, and a leading zero alone means octal. -/
def integerValue? (text : List Char) : Option Nat :=
  match (text.filter (· != '_')).map Char.toLower with
  | '0' :: 'x' :: ds => numberIn? 16 ds
  | '0' :: 'o' :: ds => numberIn? 8 ds
  | '0' :: 'b' :: ds => numberIn? 2 ds
  | '0' :: d :: ds => numberIn? 8 (d :: ds)
  | ds => numberIn? 10 ds

/-- The greatest number that an integer value holds. -/
def greatestInteger : Nat := 0x7FFFFFFFFFFFFFFF

/-- The value of a literal token behind a minus sign or not. A number that does not fit is no literal.
The sign concerns digits alone: a rune behind a minus sign keeps its code. -/
def Token.literal? (t : Token) (negative : Bool) : Option Value :=
  match t.kind with
  | .integer =>
    ((integerValue? t.text.toList).filter (· ≤ greatestInteger)).map fun n =>
      .int (Int64.ofInt (if negative then -n else n))
  | .float =>
    (Binary64.read? (t.text.toList.filter (· != '_'))).map fun x =>
      .float (if negative then x.neg else x)
  | .string s => some (.str s)
  | .rune c => some (.int (Int64.ofInt c.toNat))
  | .name =>
    match t.text with
    | "true" => some (.bool true)
    | "false" => some (.bool false)
    | "nil" => some .nil
    | _ => none
  | _ => none

/-- Whether a value is a number. -/
def isNumber : Value → Bool
  | .int _ => true
  | .float _ => true
  | _ => false

/-- Strings with plus signs between them, joined. -/
def concatenation? : List TokenTree → Option String
  | [.token t] =>
    match t.kind with
    | .string s => some s
    | _ => none
  | .token t :: .token plus :: rest =>
    match t.kind with
    | .string s => if plus.isSymbol '+' then (concatenation? rest).map (s ++ ·) else none
    | _ => none
  | _ => none

/-- The literal that an argument is. -/
def literal? : List TokenTree → Option Value
  | [.token t] => t.literal? false
  | [.token sign, .token t] =>
    if sign.isSymbol '-' || sign.isSymbol '+' then
      (t.literal? (sign.isSymbol '-')).filter isNumber
    else none
  | ts => (concatenation? ts).map .str

/-- The value of an argument. -/
def readValue (arg : List TokenTree) : Value :=
  (literal? arg).getD (.expr (sourceText (TokenTree.allTokens arg)))

end SpecForest.Source

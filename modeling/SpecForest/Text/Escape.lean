import SpecForest.Text.Hidden

/-!
# Quoted text

A text between double quotes, with quotes, backslashes and hidden characters escaped. Messages and
generated code differ in one point: in code, a zero character before an octal digit is written with two
digits, so that nobody takes it for an octal number.
-/

namespace SpecForest.Text

/-- A character between double quotes. -/
def escapeChar (c : Char) : String :=
  match c with
  | '\t' => "\\t"
  | '\r' => "\\r"
  | '\n' => "\\n"
  | '"' => "\\\""
  | '\\' => "\\\\"
  | _ =>
    if c.toNat = 0 then "\\0"
    else if isHidden c then "\\u\x7b" ++ String.ofList (Nat.toDigits 16 c.toNat) ++ "\x7d"
    else c.toString

/-- A text between double quotes, as messages show it. -/
def escapeText (s : String) : String :=
  "\"" ++ String.join (s.toList.map escapeChar) ++ "\""

/-- An octal digit. -/
def isOctalDigit (c : Char) : Bool := '0' ≤ c && c ≤ '7'

/-- The characters of a string literal. -/
def literalChars : List Char → String
  | [] => ""
  | c :: rest =>
    (if c.toNat = 0 && rest.head?.any isOctalDigit then "\\x00" else escapeChar c)
      ++ literalChars rest

/-- The string literal of a text, as code shows it. -/
def literalText (s : String) : String :=
  "\"" ++ literalChars s.toList ++ "\""

end SpecForest.Text

import SpecForest.Outline.Item
import SpecForest.Outline.Lexer

/-!
# What string literals stand for

The text of a string literal, cooked or raw. Between the quotes of a cooked one, escapes stand for
characters, a backslash at the end of a line leaves out the break and the blanks behind it, and a line
break is a line feed however it was written. A raw one stands for what is between its marks.
-/

namespace SpecForest.Outline

/-- The character of an escape, behind its backslash, and its number of characters. -/
def readEscape? : List Char → Option (Char × Nat)
  | [] => none
  | c :: rest =>
    match c with
    | 'n' => some ('\n', 1)
    | 'r' => some ('\r', 1)
    | 't' => some ('\t', 1)
    | '\\' => some ('\\', 1)
    | '0' => some (Char.ofNat 0, 1)
    | '\'' => some ('\'', 1)
    | '"' => some ('"', 1)
    | 'x' => (Source.readDigits? 16 2 0 rest).map fun n => (Char.ofNat n, 3)
    | 'u' => (codePoint? rest).map fun (v, n) => (Char.ofNat v, 1 + n)
    | _ => none

/-- Whether a character is left out behind a backslash at the end of a line. -/
def isContinuationBlank (c : Char) : Bool :=
  c == ' ' || c == '\t' || c == '\n' || c == '\r'

/-- The text of a cooked string, behind its opening quote. -/
def cookedValue (cs : List Char) : List Char :=
  match cs with
  | [] => []
  | c :: rest =>
    if c = '"' then []
    else if c = '\r' then '\n' :: cookedValue (rest.drop 1)
    else if c = '\\' then
      if rest.head? = some '\n' ∨ rest.head? = some '\r' then
        cookedValue (rest.dropWhile isContinuationBlank)
      else
        match readEscape? rest with
        | some (d, n) => d :: cookedValue (rest.drop n)
        | none => cookedValue rest
    else c :: cookedValue rest
termination_by cs.length
decreasing_by
  all_goals
    have := Text.length_dropWhile_le isContinuationBlank rest
    simp <;> omega

/-- The text of a raw string, behind its letter. -/
def rawValue? (cs : List Char) : Option (List Char) :=
  let marks := (cs.takeWhile (· == '#')).length
  let body := cs.drop (marks + 1)
  (rawLength? .text marks body).map fun n => body.take (n - (1 + marks))

/-- What a literal stands for, if it is a string. -/
def StringLiteral.ofSource? (source : String) : Option StringLiteral :=
  match source.toList with
  | '"' :: rest => some ⟨source, String.ofList (cookedValue rest)⟩
  | 'r' :: rest => (rawValue? rest).map fun s => ⟨source, String.ofList s⟩
  | _ => none

end SpecForest.Outline

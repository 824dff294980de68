import SpecForest.Source.Token

/-!
# String and rune literals

What the characters between quotes stand for. Every reader here is given the characters behind the
opening quote, and returns what it decoded together with the number of characters it took, the
closing quote included.

An escape stands for one character: a letter for a control character, the quote itself, or a code
point in hexadecimal or octal digits of fixed number.
-/

namespace SpecForest.Source

/-- The character of an escape that is a single letter, a backslash or the quote in use. -/
def simpleEscape? (quote c : Char) : Option Char :=
  match c with
  | 'a' => some '\x07'
  | 'b' => some '\x08'
  | 'f' => some '\x0c'
  | 'n' => some '\n'
  | 'r' => some '\r'
  | 't' => some '\t'
  | 'v' => some '\x0b'
  | '\\' => some '\\'
  | _ => if c = quote then some c else none

/-- The value of a digit in a base up to sixteen. -/
def digitValue? (base : Nat) (c : Char) : Option Nat :=
  let value :=
    if c.isDigit then some (c.toNat - '0'.toNat)
    else if 'a' ≤ c ∧ c ≤ 'f' then some (c.toNat - 'a'.toNat + 10)
    else if 'A' ≤ c ∧ c ≤ 'F' then some (c.toNat - 'A'.toNat + 10)
    else none
  value.filter (· < base)

/-- A number of digits, added to those that were read before. -/
def readDigits? (base : Nat) : (count acc : Nat) → List Char → Option Nat
  | 0, acc, _ => some acc
  | _ + 1, _, [] => none
  | count + 1, acc, c :: rest =>
    (digitValue? base c).bind fun d => readDigits? base count (acc * base + d) rest

/-- The form of an escape by code point: how many digits follow, in which base, and what the letter
itself counts. -/
structure CodeEscape where
  count : Nat
  base : Nat
  first : Nat

/-- The form that a character behind a backslash announces. -/
def codeEscape? (c : Char) : Option CodeEscape :=
  match c with
  | 'x' => some ⟨2, 16, 0⟩
  | 'u' => some ⟨4, 16, 0⟩
  | 'U' => some ⟨8, 16, 0⟩
  | _ => (digitValue? 8 c).map fun d => ⟨2, 8, d⟩

/-- The character with a code, unless the code is a surrogate or too large. -/
def charOfCode? (n : Nat) : Option Char :=
  if n.isValidChar then some (Char.ofNat n) else none

/-- The character behind a backslash. -/
def readEscape (quote : Char) : List Char → Except Fault (Char × Nat)
  | [] => .error .unterminatedEscape
  | c :: rest =>
    match simpleEscape? quote c with
    | some d => .ok (d, 1)
    | none =>
      match codeEscape? c with
      | none => .error (.unknownEscape c)
      | some e =>
        match readDigits? e.base e.count e.first rest with
        | none => .error .malformedEscape
        | some code =>
          match charOfCode? code with
          | none => .error .invalidCodePoint
          | some d => .ok (d, 1 + e.count)

/-- An interpreted string, up to a double quote on the same line. -/
def readString (cs : List Char) : Except Fault (List Char × Nat) :=
  match cs with
  | [] => .error .unterminatedString
  | c :: rest =>
    if c = '"' then .ok ([], 1)
    else if c = '\\' then
      match readEscape '"' rest with
      | .error fault => .error fault
      | .ok (d, n) => (readString (rest.drop n)).map fun (ds, m) => (d :: ds, 1 + n + m)
    else if c = '\n' then .error .unterminatedString
    else (readString rest).map fun (ds, m) => (c :: ds, 1 + m)
termination_by cs.length
decreasing_by
  all_goals
    simp only [List.length_drop, List.length_cons]
    omega

/-- A raw string, up to a backquote. Carriage returns are left out. -/
def readRawString (cs : List Char) : Except Fault (List Char × Nat) :=
  let body := cs.takeWhile (· != '\x60')
  if body.length < cs.length then .ok (body.filter (· != '\r'), body.length + 1)
  else .error .unterminatedRawString

/-- The closing quote of a rune, behind the character that it stands for. -/
def closeRune (c : Char) (taken : Nat) : List Char → Except Fault (Char × Nat)
  | '\'' :: _ => .ok (c, taken + 1)
  | _ => .error .malformedRune

/-- A rune: one character or escape and a single quote. -/
def readRune : List Char → Except Fault (Char × Nat)
  | [] => .error .malformedRune
  | c :: rest =>
    if c = '\\' then
      match readEscape '\'' rest with
      | .error fault => .error fault
      | .ok (d, n) => closeRune d (1 + n) (rest.drop n)
    else if c = '\'' ∨ c = '\n' then .error .malformedRune
    else closeRune c 1 rest

end SpecForest.Source

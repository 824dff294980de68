import SpecForest.Source.Quoted
import SpecForest.Text.Blank
import SpecForest.Text.Numeric
import SpecForest.Text.Rest

/-!
# Reading tokens

A source text is gaps and tokens in turn. A gap is blanks and comments; a token begins at the first
character that is neither. Each reader says how many characters it takes, and `tokensFrom` cuts them off,
so no character is lost.
-/

namespace SpecForest.Source

/-! ## Gaps -/

/-- The number of characters up to the end of a block comment, behind its opening. -/
def blockCommentLength? : List Char → Option Nat
  | [] => none
  | '*' :: '/' :: _ => some 2
  | _ :: rest => (blockCommentLength? rest).map (· + 1)

/-- Adds to the number of characters, whether reading succeeded or not. -/
def shiftBy (n : Nat) : Except Nat Nat → Except Nat Nat
  | .ok m => .ok (n + m)
  | .error m => .error (n + m)

/-- The number of characters in the gap at the start of a text. If a block comment there has no end, the
number of characters before it is the error. -/
def gapLength (cs : List Char) : Except Nat Nat :=
  match cs with
  | [] => .ok 0
  | '/' :: '/' :: rest =>
    let n := (rest.takeWhile (· != '\n')).length
    shiftBy (2 + n) (gapLength (rest.drop n))
  | '/' :: '*' :: rest =>
    match blockCommentLength? rest with
    | none => .error 0
    | some n => shiftBy (2 + n) (gapLength (rest.drop n))
  | c :: rest => if Text.isBlank c then shiftBy 1 (gapLength rest) else .ok 0
termination_by cs.length
decreasing_by all_goals simp <;> omega

/-! ## Numbers -/

/-- Whether a character marks the exponent of a number. -/
def isExponentMark (hex : Bool) (c : Char) : Bool :=
  if hex then c == 'p' || c == 'P' else c == 'e' || c == 'E'

/-- Whether a number is floating and how many more characters it has, given the character before. A sign
belongs to the number only behind the mark of an exponent. -/
def numberTail (hex float : Bool) (before : Char) : List Char → Bool × Nat
  | [] => (float, 0)
  | c :: rest =>
    let inExponent := isExponentMark hex before
    if c.isAlphanum || c == '_' || c == '.' then
      let (float, n) :=
        numberTail hex (float || c == '.' || inExponent || isExponentMark hex c) c rest
      (float, n + 1)
    else if inExponent && (c == '+' || c == '-') then
      let (float, n) := numberTail hex true c rest
      (float, n + 1)
    else (float, 0)

/-- Whether a number is hexadecimal, from its first two characters. -/
def startsHex (first : Char) (rest : List Char) : Bool :=
  first == '0' && (rest.head? == some 'x' || rest.head? == some 'X')

/-- A number, behind its first character. -/
def readNumber (first : Char) (rest : List Char) : TokenKind × Nat :=
  let (float, n) := numberTail (startsHex first rest) (first == '.') first rest
  (if float then .float else .integer, n)

/-! ## Names -/

/-- Whether a character can begin a name. -/
def startsName (c : Char) : Bool :=
  c == '_' || Text.isAlphabetic c

/-- Whether a character can go on with a name. -/
def continuesName (c : Char) : Bool :=
  c == '_' || Text.isAlphanumeric c

/-! ## Tokens -/

/-- The kind of the token that begins with a character, and how many more characters it has. -/
def readToken (c : Char) (rest : List Char) : Except Fault (TokenKind × Nat) :=
  match c with
  | '(' => .ok (.opening .paren, 0)
  | '\x7b' => .ok (.opening .brace, 0)
  | '[' => .ok (.opening .bracket, 0)
  | ')' => .ok (.closing .paren, 0)
  | '\x7d' => .ok (.closing .brace, 0)
  | ']' => .ok (.closing .bracket, 0)
  | ',' => .ok (.comma, 0)
  | '"' => (readString rest).map fun (s, n) => (.string (String.ofList s), n)
  | '\x60' => (readRawString rest).map fun (s, n) => (.string (String.ofList s), n)
  | '\'' => (readRune rest).map fun (d, n) => (.rune d, n)
  | _ =>
    if c == '.' && rest.take 2 == ['.', '.'] then .ok (.ellipsis, 2)
    else if c == '.' && rest.head?.any Char.isDigit then .ok (readNumber c rest)
    else if c.isDigit then .ok (readNumber c rest)
    else if startsName c then .ok (.name, (rest.takeWhile continuesName).length)
    else .ok (.symbol c, 0)

/-- The tokens of a text that begins at a position. -/
def tokensFrom (p : Position) (cs : List Char) : Except LexError (List Token) :=
  match gapLength cs with
  | .error n => .error ⟨p.advance (cs.take n), .unterminatedComment⟩
  | .ok n =>
    let gap := cs.take n
    let start := p.advance gap
    match h : cs.drop n with
    | [] => .ok []
    | c :: rest =>
      have := Text.length_lt_of_drop_eq_cons h
      match readToken c rest with
      | .error fault => .error ⟨start, fault⟩
      | .ok (kind, more) =>
        let text := c :: rest.take more
        let token : Token := ⟨String.ofList gap, String.ofList text, kind, start⟩
        (tokensFrom (start.advance text) (rest.drop more)).map (token :: ·)
termination_by cs.length
decreasing_by
  simp only [List.length_drop]
  omega

/-- The tokens of a source text. -/
def tokens (source : String) : Except LexError (List Token) :=
  tokensFrom .start source.toList

end SpecForest.Source

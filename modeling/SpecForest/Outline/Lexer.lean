import SpecForest.Outline.Stream
import SpecForest.Source.Quoted
import SpecForest.Text.Blank
import SpecForest.Text.Escape
import SpecForest.Text.Identifier
import SpecForest.Text.Rest

/-!
# Reading a token stream

The tokens of an outline's text. Words are identifiers, perhaps raw ones behind `r#`. Literals are strings
of several kinds, characters and numbers, each perhaps with a suffix. A doc comment becomes an attribute;
other comments and blanks are dropped. Each reader tells how many characters its token has; if none takes
the next character, or brackets do not match, there is no stream.
-/

namespace SpecForest.Outline
open Text

/-! ## Comments and blanks -/

/-- The number of characters of a block comment, counted from inside some open ones. Comments nest. -/
def nestedCommentLength? (depth : Nat) : List Char → Option Nat
  | '/' :: '*' :: rest => (nestedCommentLength? (depth + 1) rest).map (· + 2)
  | '*' :: '/' :: rest =>
    if depth ≤ 1 then some 2 else (nestedCommentLength? (depth - 1) rest).map (· + 2)
  | _ :: rest => (nestedCommentLength? depth rest).map (· + 1)
  | [] => none

/-- The number of characters up to the end of the line. -/
def lineLength (cs : List Char) : Nat :=
  (cs.takeWhile (· != '\n')).length

/-- A blank, or one of the two marks of writing direction. -/
def isSpace (c : Char) : Bool :=
  isBlank c || c == '\u200e' || c == '\u200f'

/-- Whether a text begins with a comment that documents something. Four slashes or three stars do not
document. -/
def startsDoc : List Char → Bool
  | '/' :: '/' :: '!' :: _ => true
  | '/' :: '*' :: '!' :: _ => true
  | '/' :: '/' :: '/' :: rest => rest.head? != some '/'
  | '/' :: '*' :: '*' :: rest => rest.head? != some '*' && rest.head? != some '/'
  | _ => false

/-- The number of characters before the next token. A block comment without an end is left standing. -/
def gapLength (cs : List Char) : Nat :=
  match cs with
  | [] => 0
  | c :: rest =>
    if startsDoc (c :: rest) then 0
    else if c = '/' ∧ rest.head? = some '/' then
      let n := lineLength rest
      1 + n + gapLength (rest.drop n)
    else if c = '/' ∧ rest.head? = some '*' then
      match nestedCommentLength? 1 (rest.drop 1) with
      | none => 0
      | some n => 2 + n + gapLength (rest.drop (1 + n))
    else if isSpace c then 1 + gapLength rest
    else 0
termination_by cs.length
decreasing_by
  all_goals
    simp only [List.length_drop, List.length_cons]
    omega

/-- The attribute that stands for a doc comment. -/
def docAttribute (inner : Bool) (comment : List Char) : Stream :=
  let mark : Stream := if inner then [.punct '!' .alone] else []
  let text := literalText (String.ofList comment)
  .punct '#' .alone :: mark
    ++ [.group .bracket [.word "doc", .punct '=' .alone, .literal text]]

/-- Whether every carriage return is followed by a line feed. -/
def hasNoBareReturn : List Char → Bool
  | [] => true
  | '\r' :: rest => rest.head? == some '\n' && hasNoBareReturn rest
  | _ :: rest => hasNoBareReturn rest

/-- The doc comment at the start of a text, and its number of characters. -/
def readDoc? (cs : List Char) : Option (Stream × Nat) :=
  if startsDoc cs then
    let inner := cs[2]? == some '!'
    let body := cs.drop 3
    let found :=
      if cs[1]? = some '/' then
        let n := lineLength body
        -- A line that ends in carriage return and line feed ends before both.
        let line := body.take n
        let comment :=
          if line.getLast? = some '\r' ∧ n < body.length then line.dropLast else line
        some (comment, 3 + comment.length)
      else (nestedCommentLength? 1 (cs.drop 2)).map fun n => (body.take (n - 3), 2 + n)
    found.bind fun (comment, n) =>
      if hasNoBareReturn comment then some (docAttribute inner comment, n) else none
  else none

/-! ## Words -/

/-- The number of characters of the identifier at the start of a text. -/
def identifierLength? : List Char → Option Nat
  | c :: rest =>
    if isIdentifierStart c then some (1 + (rest.takeWhile isIdentifierContinue).length) else none
  | [] => none

/-- The number of characters of a literal's suffix. -/
def suffixLength (cs : List Char) : Nat := (identifierLength? cs).getD 0

/-- The words that cannot be raw. -/
def notRaw : List String := ["_", "super", "self", "Self", "crate"]

/-- The number of characters of the word at the start of a text, raw or not. -/
def anyWordLength? (cs : List Char) : Option Nat :=
  match cs with
  | 'r' :: '#' :: rest =>
    (identifierLength? rest).bind fun n =>
      if notRaw.contains (String.ofList (rest.take n)) then none else some (2 + n)
  | _ => identifierLength? cs

/-- What begins a string or a character and so is no word. -/
def literalOpenings : List (List Char) :=
  ["r\"", "r#\"", "r##", "b\"", "b'", "br\"", "br#", "c\"", "cr\"", "cr#"].map String.toList

/-- The number of characters of the word at the start of a text. -/
def wordLength? (cs : List Char) : Option Nat :=
  if literalOpenings.any (·.isPrefixOf cs) then none else anyWordLength? cs

/-! ## Strings and characters -/

/-- What is allowed between the quotes of a kind of string. -/
structure QuoteRules where
  /-- Whether a character may stand for itself. -/
  plain : Char → Bool
  /-- Whether two digits may follow `\x`. -/
  hexEscape : Nat → Nat → Bool
  /-- Whether a code point may be given in braces behind `\u`. -/
  codePoint : Option (Nat → Bool)
  /-- Whether `\0` is an escape. -/
  zero : Bool

/-- Texts hold every character, and `\x` reaches ASCII. -/
def QuoteRules.text : QuoteRules where
  plain _ := true
  hexEscape a _ := a < 8
  codePoint := some fun _ => true
  zero := true

/-- Byte strings hold ASCII, and `\x` reaches every byte. -/
def QuoteRules.bytes : QuoteRules where
  plain c := c.toNat < 0x80
  hexEscape _ _ := true
  codePoint := none
  zero := true

/-- Strings that end in a zero byte hold none before. -/
def QuoteRules.terminated : QuoteRules where
  plain c := c.toNat != 0
  hexEscape a b := a != 0 || b != 0
  codePoint := some fun n => n != 0
  zero := false

/-- The value of a hexadecimal digit. -/
def hexDigit? (c : Char) : Option Nat := Source.digitValue? 16 c

/-- A code point in up to six digits and a closing brace: its value and its number of characters. -/
def codePointDigits? (value digits : Nat) : List Char → Option (Nat × Nat)
  | [] => none
  | c :: rest =>
    match hexDigit? c with
    | some d =>
      if digits = 6 then none
      else (codePointDigits? (value * 16 + d) (digits + 1) rest).map fun (v, n) => (v, n + 1)
    | none =>
      if c = '_' ∧ 0 < digits then (codePointDigits? value digits rest).map fun (v, n) => (v, n + 1)
      else if c = '\x7d' ∧ 0 < digits ∧ value.isValidChar then some (value, 1)
      else none

/-- A code point in braces: its value and its number of characters. -/
def codePoint? : List Char → Option (Nat × Nat)
  | '\x7b' :: rest => (codePointDigits? 0 0 rest).map fun (v, n) => (v, n + 1)
  | _ => none

/-- The number of blank characters behind a backslash at the end of a line. A carriage return must be
followed by a line feed, and the text must go on. -/
def continuationLength? (afterReturn : Bool) : List Char → Option Nat
  | [] => none
  | c :: rest =>
    if afterReturn then
      if c = '\n' then (continuationLength? false rest).map (· + 1) else none
    else if c = ' ' ∨ c = '\t' ∨ c = '\n' then (continuationLength? false rest).map (· + 1)
    else if c = '\r' then (continuationLength? true rest).map (· + 1)
    else some 0

/-- The number of characters of an escape, behind its backslash, that stands for a character. -/
def charEscapeLength? (rules : QuoteRules) : List Char → Option Nat
  | [] => none
  | c :: rest =>
    match c with
    | 'n' | 'r' | 't' | '\\' | '\'' | '"' => some 1
    | '0' => if rules.zero then some 1 else none
    | 'x' =>
      match rest with
      | a :: b :: _ =>
        match hexDigit? a, hexDigit? b with
        | some a, some b => if rules.hexEscape a b then some 3 else none
        | _, _ => none
      | _ => none
    | 'u' =>
      match rules.codePoint, codePoint? rest with
      | some allowed, some (v, n) => if allowed v then some (1 + n) else none
      | _, _ => none
    | _ => none

/-- The number of characters of an escape in a string, behind its backslash. A backslash at the end of a
line takes the blanks that follow. -/
def escapeLength? (rules : QuoteRules) : List Char → Option Nat
  | '\n' :: rest => (continuationLength? false rest).map (· + 1)
  | '\r' :: rest => (continuationLength? true rest).map (· + 1)
  | cs => charEscapeLength? rules cs

/-- The number of characters of a string behind its opening quote, the closing quote included. -/
def cookedLength? (rules : QuoteRules) (cs : List Char) : Option Nat :=
  match cs with
  | [] => none
  | c :: rest =>
    if c = '"' then some 1
    else if c = '\r' then
      if rest.head? = some '\n' then (cookedLength? rules (rest.drop 1)).map (· + 2) else none
    else if c = '\\' then
      (escapeLength? rules rest).bind fun n => (cookedLength? rules (rest.drop n)).map (· + (1 + n))
    else if rules.plain c then (cookedLength? rules rest).map (· + 1)
    else none
termination_by cs.length
decreasing_by
  all_goals
    simp only [List.length_drop, List.length_cons]
    omega

/-- The number of characters of a raw string behind its opening quote, the closing quote and the marks
behind it included. -/
def rawLength? (rules : QuoteRules) (marks : Nat) : List Char → Option Nat
  | [] => none
  | c :: rest =>
    if c = '"' ∧ rest.take marks = List.replicate marks '#' then some (1 + marks)
    else if c = '\r' ∧ rest.head? ≠ some '\n' then none
    else if rules.plain c then (rawLength? rules marks rest).map (· + 1)
    else none

/-- The number of characters of a raw string behind the letter that announces it. -/
def markedLength? (rules : QuoteRules) (cs : List Char) : Option Nat :=
  let marks := (cs.takeWhile (· == '#')).length
  match cs.drop marks with
  | '"' :: rest =>
    if marks ≤ 255 then (rawLength? rules marks rest).map (· + (marks + 1)) else none
  | _ => none

/-- The number of characters of a character literal behind its opening quote, the closing quote
included. -/
def quotedCharLength? (rules : QuoteRules) : List Char → Option Nat
  | '\\' :: rest => (charEscapeLength? rules rest).bind fun n =>
    if rest[n]? = some '\'' then some (2 + n) else none
  | c :: '\'' :: _ => if rules.plain c then some 2 else none
  | _ => none

/-- The number of characters of a string or character literal at the start of a text, without its
suffix. -/
def quotedLength? (cs : List Char) : Option Nat :=
  match cs with
  | '"' :: rest => (cookedLength? .text rest).map (· + 1)
  | '\'' :: rest => (quotedCharLength? .text rest).map (· + 1)
  | 'r' :: rest => (markedLength? .text rest).map (· + 1)
  | 'b' :: '"' :: rest => (cookedLength? .bytes rest).map (· + 2)
  | 'b' :: 'r' :: rest => (markedLength? .bytes rest).map (· + 2)
  | 'b' :: '\'' :: rest => (quotedCharLength? .bytes rest).map (· + 2)
  | 'c' :: '"' :: rest => (cookedLength? .terminated rest).map (· + 2)
  | 'c' :: 'r' :: rest => (markedLength? .terminated rest).map (· + 2)
  | _ => none

/-! ## Numbers -/

/-- The digits of a number up to its exponent: how many characters, whether there is a point, and whether
an exponent follows, whose mark is counted. A point before a name or another point is no decimal point. -/
def mantissaLength? (point : Bool) : List Char → Option (Nat × Bool × Bool)
  | [] => some (0, point, false)
  | c :: rest =>
    if c.isDigit || c == '_' then
      (mantissaLength? point rest).map fun (n, r) => (n + 1, r)
    else if c == '.' then
      if point then some (0, point, false)
      else if rest.head?.any fun d => d == '.' || isIdentifierStart d then none
      else (mantissaLength? true rest).map fun (n, r) => (n + 1, r)
    else if c == 'e' || c == 'E' then some (1, point, true)
    else some (0, point, false)

/-- The number of characters of an exponent behind its mark: a sign, then digits. -/
def exponentLength? (sign digits : Bool) : List Char → Option Nat
  | [] => if digits then some 0 else none
  | c :: rest =>
    if (c == '+' || c == '-') && !digits then
      if sign then none else (exponentLength? true digits rest).map (· + 1)
    else if c.isDigit then (exponentLength? sign true rest).map (· + 1)
    else if c == '_' then (exponentLength? sign digits rest).map (· + 1)
    else if digits then some 0
    else none

/-- The number of characters of a number with a point or an exponent, without its suffix. An exponent
without digits is no exponent; it may be a suffix behind a point. -/
def floatLength? : List Char → Option Nat
  | [] => none
  | c :: rest =>
    if c.isDigit then
      (mantissaLength? false rest).bind fun (n, point, exponent) =>
        if exponent then
          match exponentLength? false false (rest.drop n) with
          | some m => some (1 + n + m)
          | none => if point then some n else none
        else if point then some (1 + n)
        else none
    else none

/-- The number of digits of a whole number in a base, with underscores. `empty` tells that no digit has
been seen yet. -/
def wholeLength? (base : Nat) (empty : Bool) : List Char → Option Nat
  | [] => if empty then none else some 0
  | c :: rest =>
    match Source.digitValue? 16 c with
    | some d =>
      if d < base then (wholeLength? base false rest).map (· + 1)
      else if c.isDigit || empty then none
      else some 0
    | none =>
      if c == '_' then
        if empty && base == 10 then none else (wholeLength? base empty rest).map (· + 1)
      else if empty then none
      else some 0

/-- The number of characters of a whole number, without its suffix. -/
def integerLength? : List Char → Option Nat
  | '0' :: 'x' :: rest => (wholeLength? 16 true rest).map (· + 2)
  | '0' :: 'o' :: rest => (wholeLength? 8 true rest).map (· + 2)
  | '0' :: 'b' :: rest => (wholeLength? 2 true rest).map (· + 2)
  | cs => wholeLength? 10 true cs

/-- A number with its suffix, which must end where a word would end. -/
def suffixed? (cs : List Char) (n : Nat) : Option Nat :=
  let total := n + suffixLength (cs.drop n)
  if (cs.drop total).head?.any isIdentifierContinue then none else some total

/-- The literal that stands for a token which could not be written. It begins with a bracket, but is none. -/
def placeholder : List Char := "(/*ERROR*/)".toList

/-- The number of characters of the literal at the start of a text. -/
def literalLength? (cs : List Char) : Option Nat :=
  match quotedLength? cs with
  | some n => some (n + suffixLength (cs.drop n))
  | none =>
    match (floatLength? cs).bind (suffixed? cs) with
    | some n => some n
    | none =>
      match (integerLength? cs).bind (suffixed? cs) with
      | some n => some n
      | none => if placeholder.isPrefixOf cs then some placeholder.length else none

/-! ## Punctuation -/

/-- The punctuation characters. -/
def punctuation : List Char := "~!@#$%^&*-=+|;:,<.>/?'".toList

/-- Whether a text begins with a punctuation character, and not with a comment. -/
def startsPunct : List Char → Bool
  | '/' :: c :: _ => c != '/' && c != '*'
  | c :: _ => punctuation.contains c
  | [] => false

/-- The punctuation character at the start of a text. It is joint if another follows. A single quote must
be the mark of a lifetime. -/
def readPunct? : List Char → Option Tree
  | [] => none
  | c :: rest =>
    if !startsPunct (c :: rest) then none
    else if c = '\'' then
      (anyWordLength? rest).bind fun n =>
        let next := rest[n]?
        let raw := ['r', '#'].isPrefixOf rest
        if next = some '\'' ∨ (next = some '#' ∧ !raw) then none else some (.punct c .joint)
    else some (.punct c (if startsPunct rest then .joint else .alone))

/-! ## Streams -/

/-- A token or a bracket. -/
inductive Lexeme
  | opening (d : Delimiter)
  | closing (d : Delimiter)
  | tree (t : Tree)

/-- The bracket that a character is. -/
def bracketOf? (c : Char) : Option Lexeme :=
  match c with
  | '(' => some (.opening .paren)
  | '[' => some (.opening .bracket)
  | '\x7b' => some (.opening .brace)
  | ')' => some (.closing .paren)
  | ']' => some (.closing .bracket)
  | '\x7d' => some (.closing .brace)
  | _ => none

/-- The token at the start of a text, and its number of characters. -/
def readToken? (cs : List Char) : Option (Tree × Nat) :=
  match literalLength? cs with
  | some n => some (.literal (String.ofList (cs.take n)), n)
  | none =>
    match readPunct? cs with
    | some t => some (t, 1)
    | none => (wordLength? cs).map fun n => (.word (String.ofList (cs.take n)), n)

/-- What stands at the start of a text: a doc comment, a token or a bracket, and the number of
characters. -/
def readLexemes? (cs : List Char) : Option (List Lexeme × Nat) :=
  match readDoc? cs with
  | some (trees, n) => some (trees.map .tree, n)
  | none =>
    match readToken? cs with
    | some (t, n) => some ([.tree t], n)
    | none => (cs.head?.bind bracketOf?).map fun b => ([b], 1)

/-- The tokens and brackets of a text. -/
def lexemes? (cs : List Char) : Option (List Lexeme) :=
  match h : cs.drop (gapLength cs) with
  | [] => some []
  | c :: rest =>
    have := length_lt_of_drop_eq_cons h
    (readLexemes? (c :: rest)).bind fun (ls, n) => (lexemes? (rest.drop (n - 1))).map (ls ++ ·)
termination_by cs.length
decreasing_by
  simp only [List.length_drop]
  omega

/-- Groups tokens, given the brackets that are open, innermost first, with the tokens before them, and
the tokens read since, the last one first. -/
def groupFrom? (frames : List (Delimiter × Stream)) (current : Stream) : List Lexeme → Option Stream
  | [] => if frames.isEmpty then some current.reverse else none
  | .opening d :: rest => groupFrom? ((d, current) :: frames) [] rest
  | .closing d :: rest =>
    match frames with
    | [] => none
    | (opened, before) :: outer =>
      if opened = d then groupFrom? outer (.group d current.reverse :: before) rest else none
  | .tree t :: rest => groupFrom? frames (t :: current) rest

/-- The stream of a text, behind a byte order mark if there is one. -/
def Stream.ofText? (source : String) : Option Stream :=
  let cs := match source.toList with
    | '\ufeff' :: rest => rest
    | cs => cs
  (lexemes? cs).bind (groupFrom? [] [])

end SpecForest.Outline

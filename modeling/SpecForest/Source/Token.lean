import SpecForest.Delimiter
import SpecForest.Source.Position

/-!
# Tokens of a source text

A token keeps its text and the gap before it, blanks and comments, so that any stretch of the source can be
told from its tokens. Strings and runes also carry what they stand for.
-/

namespace SpecForest.Source

/-- What a token is. -/
inductive TokenKind
  | name
  | integer
  | float
  /-- An interpreted or raw string, decoded. -/
  | string (value : String)
  | rune (c : Char)
  | opening (d : Delimiter)
  | closing (d : Delimiter)
  | comma
  | ellipsis
  /-- Any other character. -/
  | symbol (c : Char)
  deriving DecidableEq

/-- A token and where it stands. -/
structure Token where
  /-- The blanks and comments between the token before and this one. -/
  gap : String
  text : String
  kind : TokenKind
  start : Position
  deriving DecidableEq

/-- The number of bytes before the end of a token. -/
def Token.stop (t : Token) : Nat :=
  t.start.offset + t.text.utf8ByteSize

/-- Whether a token is this name. -/
def Token.isName (t : Token) (name : String) : Bool :=
  t.kind == .name && t.text == name

/-- Whether a token is this symbol. -/
def Token.isSymbol (t : Token) (c : Char) : Bool :=
  t.kind == .symbol c

/-- Why a source text cannot be read as tokens in balanced brackets. -/
inductive Fault
  | unterminatedComment
  | unterminatedString
  | unterminatedRawString
  | malformedRune
  | unterminatedEscape
  | unknownEscape (c : Char)
  | malformedEscape
  | invalidCodePoint
  | mismatched (opened : Delimiter) (position : Position)
  | unbalanced
  | unclosed (opened : Delimiter)
  deriving DecidableEq

/-- The text of a fault. -/
def Fault.message : Fault → String
  | unterminatedComment => "unterminated block comment"
  | unterminatedString => "unterminated string literal"
  | unterminatedRawString => "unterminated raw string literal"
  | malformedRune => "malformed rune literal"
  | unterminatedEscape => "unterminated escape sequence"
  | unknownEscape c => "unknown escape sequence '\\" ++ c.toString ++ "'"
  | malformedEscape => "malformed escape sequence"
  | invalidCodePoint => "escape is not a valid code point"
  | mismatched opened position =>
    "mismatched delimiter: '" ++ opened.opener.toString ++ "' opened at " ++ toString position.line
      ++ ":" ++ toString position.column ++ " is closed here"
  | unbalanced => "unbalanced closing delimiter"
  | unclosed opened => "unclosed '" ++ opened.opener.toString ++ "'"

/-- A fault and where it was found. -/
structure LexError where
  position : Position
  fault : Fault
  deriving DecidableEq

end SpecForest.Source

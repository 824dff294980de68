/-!
# Brackets

The three pairs of characters that enclose a stretch of text.
-/

namespace SpecForest

/-- The three kinds of brackets. -/
inductive Delimiter
  | paren
  | brace
  | bracket
  deriving DecidableEq

/-- The character that opens a bracket. -/
def Delimiter.opener : Delimiter → Char
  | paren => '('
  | brace => '\x7b'
  | bracket => '['

/-- The character that closes a bracket. -/
def Delimiter.closer : Delimiter → Char
  | paren => ')'
  | brace => '\x7d'
  | bracket => ']'

end SpecForest

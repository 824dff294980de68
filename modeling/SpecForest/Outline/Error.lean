import SpecForest.Delimiter

/-!
# Errors of an outline

Why a text is no outline. An error says what was expected; most say as well when the text, or the group in
which it was expected, ended there.
-/

namespace SpecForest.Outline

/-- What can be missing. -/
inductive Expected
  | identifier
  | string
  | group (d : Delimiter)
  | expression
  | type
  /-- A type behind its lifetime parameters. -/
  | quantified
  /-- A parameter in angle brackets. -/
  | parameter
  /-- A field or a method. -/
  | member
  /-- The number of a field. -/
  | integer
  /-- Brackets of any kind. -/
  | brackets
  /-- How a pointer points. -/
  | pointee
  | keyword (word : String)
  /-- What goes on behind the first element of an array. -/
  | arraySeparator
  /-- The kind of a range. -/
  | limits
  /-- What a label can stand before. -/
  | labelled
  /-- A name behind two colons. -/
  | segment
  deriving DecidableEq

/-- Why a text is no outline. -/
inductive OutlineError
  /-- The text is no stream of tokens. -/
  | noStream
  /-- Something was expected; `atEnd` tells that nothing was there. -/
  | expected (what : Expected) (atEnd : Bool)
  /-- An operator or another mark was expected. -/
  | expectedMark (mark : String)
  /-- A name was expected, and a word stands there that is reserved. -/
  | reserved (word : String)
  /-- No item begins with this word. -/
  | unknownKeyword (word : String)
  /-- Brackets hold more than was read. -/
  | leftover (d : Delimiter)
  /-- Two statements with nothing between them. -/
  | unendedStatement
  /-- A comparison is compared. -/
  | chainedComparison
  /-- A cast is followed by what binds tighter. -/
  | castFollowedBy (what : String)
  /-- The number of a field has a suffix. -/
  | suffixedField
  /-- The number of a field has more than 32 bits. -/
  | largeField
  /-- The number of a field has a sign. -/
  | signedField
  /-- An object type names lifetimes only. -/
  | objectWithoutTrait
  /-- A hidden type names lifetimes only. -/
  | hiddenWithoutTrait
  deriving DecidableEq

/-- How an expected thing is named. -/
def Expected.name : Expected → String
  | identifier => "identifier"
  | string => "string literal"
  | group .paren => "parentheses"
  | group .bracket => "square brackets"
  | group .brace => "curly braces"
  | expression => "an expression"
  | type => "one of: `for`, parentheses, `fn`, `unsafe`, `extern`, identifier, `::`, `<`, `dyn`, "
      ++ "square brackets, `*`, `&`, `!`, `impl`, `_`, lifetime"
  | quantified => "one of: identifier, `fn`, `unsafe`, `extern`, `super`, `self`, `Self`, `crate`"
  | parameter => "one of: identifier, lifetime, `const`"
  | member => "identifier or integer"
  | integer => "integer literal"
  | brackets => "delimiter"
  | pointee => "`const` or `mut`"
  | keyword word => "`" ++ word ++ "`"
  | arraySeparator => "`,` or `;`"
  | limits => "`..` or `..=`"
  | labelled => "loop or block expression"
  | segment => "path segment after `::`"

/-- The text of an error. -/
def OutlineError.message : OutlineError → String
  | noStream => "cannot parse string into token stream"
  | expected what atEnd =>
    (if atEnd then "unexpected end of input, expected " else "expected ") ++ what.name
  | expectedMark mark => "expected `" ++ mark ++ "`"
  | reserved word => "expected identifier, found keyword `" ++ word ++ "`"
  | unknownKeyword word =>
    "unknown DSL keyword `" ++ word ++ "`. Expected one of: describe, context, when, it, specify, "
      ++ "describe_table, describe_table_subtree"
  | leftover d => "unexpected token, expected `" ++ d.closer.toString ++ "`"
  | unendedStatement => "unexpected token, expected `;`"
  | chainedComparison => "comparison operators cannot be chained"
  | castFollowedBy what => "casts cannot be followed by " ++ what
  | suffixedField => "expected unsuffixed integer"
  | largeField => "number too large to fit in target type"
  | signedField => "invalid digit found in string"
  | objectWithoutTrait => "at least one trait is required for an object type"
  | hiddenWithoutTrait => "at least one trait must be specified"

end SpecForest.Outline

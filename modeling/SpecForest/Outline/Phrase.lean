import SpecForest.Outline.Reader

/-!
# Phrases

A phrase is a type or a value of the host language, or a part of one. Reading a phrase needs to read others
inside it, of five sorts. Each module of the grammar gets a reader for all of them and says how a phrase is
put together; the readers meet in `Phrase.read`.
-/

namespace SpecForest.Outline

/-- What the grammar has to know about a phrase that was read. -/
inductive Form
  /-- A type that is one name, perhaps with arguments in angle brackets. -/
  | name
  /-- A type that is any other path. -/
  | path
  /-- A bound by a trait, or a type that is one. -/
  | bound
  /-- A bound by a lifetime. -/
  | lifetime
  /-- A value that compares two others. -/
  | comparison
  /-- A value that is a range. -/
  | range
  | other
  deriving DecidableEq

/-- A type or a value as it is to be written. -/
structure Phrase where
  tokens : Stream
  form : Form := .other

/-- A phrase that is to be read. -/
inductive Goal
  /-- A type; `plus` tells whether bounds may follow it. -/
  | type (plus : Bool)
  /-- A bound on a type: a trait or a lifetime. -/
  | bound
  | value
  /-- A value without binary operators. -/
  | operand
  /-- What the operators that bind at least so tightly make of a value before them. -/
  | operation (base : Precedence) (left : Phrase)

/-- A reader for the phrases inside a phrase. -/
abbrev PhraseReader := Goal → Reader Phrase

/-- The tokens of a phrase. -/
def PhraseReader.tokens (inner : PhraseReader) (goal : Goal) : Reader Stream :=
  return (← inner goal).tokens

end SpecForest.Outline

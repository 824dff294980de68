/-!
# Positions in a source text

A position counts the bytes before it, and gives its line and its column, both from one. Columns count
characters.
-/

namespace SpecForest.Source

/-- A place between two characters of a text. -/
structure Position where
  offset : Nat
  line : Nat
  column : Nat
  deriving DecidableEq

namespace Position

/-- The beginning of a text. -/
def start : Position := ⟨0, 1, 1⟩

/-- The position behind a character. -/
def step (p : Position) (c : Char) : Position :=
  if c = '\n' then ⟨p.offset + c.utf8Size, p.line + 1, 1⟩
  else ⟨p.offset + c.utf8Size, p.line, p.column + 1⟩

/-- The position behind some characters. -/
def advance (p : Position) (cs : List Char) : Position :=
  cs.foldl step p

end Position

end SpecForest.Source

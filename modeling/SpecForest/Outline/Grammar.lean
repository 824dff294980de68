import SpecForest.Outline.Grammar.Value

/-!
# Plain phrases

Types, and values without control flow and closures: literals, paths, calls, fields, operators, brackets, blocks of
values and the like. They are written with the characters of each operator joined, lifetimes before other arguments,
and the fields of tuples by plain numbers. A language may know more phrases than these.
-/

namespace SpecForest.Outline

/-- Reads a phrase, when phrases are nested at most so deep. -/
def Phrase.read : Nat → PhraseReader
  | 0, _ => Reader.missing .expression
  | depth + 1, goal =>
    match goal with
    | .type plus => Grammar.type (Phrase.read depth) plus
    | .bound => Grammar.bound (Phrase.read depth)
    | .value => Grammar.value (Phrase.read depth)
    | .operand => Grammar.operand (Phrase.read depth)
    | .operation base left => Grammar.operation (Phrase.read depth) base left

/-- How deep the phrases of a stream can be nested: one takes a token before it comes to the same goal
again. -/
def Stream.phraseDepth (s : Stream) : Nat := 5 * (s.weight + 1)

/-- Reads the phrase at the start of a stream. -/
def Phrase.start (goal : Goal) (s : Stream) : Except OutlineError (Phrase × Remainder) :=
  Phrase.read s.phraseDepth goal { stream := s }

/-- What is missing where a phrase is empty. -/
def Goal.expected : Goal → Expected
  | .type _ | .bound => .type
  | .value | .operand | .operation _ _ => .expression

/-- Cuts the phrase at the start of a stream off it. A phrase has at least one token. -/
def takePhrase (goal : Goal) (s : Stream) : Except OutlineError (Stream × Stream) :=
  match Phrase.start goal s with
  | .error e => .error e
  | .ok (_, r) =>
    let n := s.length - r.stream.length
    if n = 0 then .error (.expected goal.expected s.isEmpty) else .ok (s.take n, s.drop n)

/-- A phrase as it is written. -/
def writePhrase (goal : Goal) (s : Stream) : Stream :=
  match Phrase.start goal s with
  | .error _ => s
  | .ok (p, _) => p.tokens

/-- The brackets in a phrase that hold more than the phrase. -/
def phraseLeftover? (goal : Goal) (s : Stream) : Option Delimiter :=
  match Phrase.start goal s with
  | .error _ => none
  | .ok (_, r) => r.leftover

end SpecForest.Outline

import SpecForest.Delimiter

/-!
# Token streams

The text of an outline, and of the code generated from it, is a stream of words, literals, punctuation
characters and bracketed groups. A punctuation character is *joint* if the next one belongs to it, so that
`::` is two characters, the first of them joint.

`Stream.text` writes a stream: one blank between tokens, none behind a joint character.
-/

namespace SpecForest.Outline

/-- Whether the next character belongs to a punctuation character. -/
inductive Spacing
  | alone
  | joint
  deriving DecidableEq

/-- A token, or a pair of brackets with what stands between. -/
inductive Tree
  | word (text : String)
  | punct (c : Char) (spacing : Spacing)
  | literal (text : String)
  | group (d : Delimiter) (inner : List Tree)

/-- Tokens in order. -/
abbrev Stream := List Tree

namespace Tree

/-- Whether the next token follows without a blank. -/
def isJoint : Tree → Bool
  | punct _ .joint => true
  | _ => false

/-- Whether a token is this punctuation character. -/
def isPunct (c : Char) : Tree → Bool
  | punct d _ => c == d
  | _ => false

mutual

/-- A token as text. Braces have blanks inside, other brackets have none. -/
def text : Tree → String
  | word s => s
  | punct c _ => c.toString
  | literal s => s
  | group d inner =>
    match d with
    | .brace => "\x7b " ++ streamText inner ++ (if inner.isEmpty then "\x7d" else " \x7d")
    | _ => d.opener.toString ++ streamText inner ++ d.closer.toString

/-- Tokens as text. -/
def streamText : List Tree → String
  | [] => ""
  | [t] => t.text
  | t :: u :: rest => t.text ++ (if t.isJoint then "" else " ") ++ streamText (u :: rest)

end

mutual

/-- The number of tokens, a pair of brackets counted once. -/
def weight : Tree → Nat
  | word _ => 1
  | punct _ _ => 1
  | literal _ => 1
  | group _ inner => 1 + allWeight inner

/-- The number of tokens in a stream, a pair of brackets counted once. -/
def allWeight : List Tree → Nat
  | [] => 0
  | t :: rest => t.weight + allWeight rest

end

end Tree

/-- A stream as text. -/
def Stream.text (s : Stream) : String := Tree.streamText s

/-- The number of tokens in a stream, a pair of brackets counted once. -/
def Stream.weight (s : Stream) : Nat := Tree.allWeight s

theorem weight_pos (t : Tree) : 0 < t.weight := by
  cases t <;> simp only [Tree.weight] <;> omega

theorem weight_append (s t : Stream) : Stream.weight (s ++ t) = s.weight + t.weight := by
  induction s with
  | nil => simp [Stream.weight, Tree.allWeight]
  | cons x s ih =>
    simp only [Stream.weight, List.cons_append, Tree.allWeight] at ih ⊢
    omega

end SpecForest.Outline

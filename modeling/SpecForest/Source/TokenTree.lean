import SpecForest.Source.Token

/-!
# Bracketed tokens

Tokens with balanced brackets form trees: a group is everything from an opening bracket to the closing
bracket that belongs to it. Every further reading of a source works on these trees, and a closing bracket
is never looked for again.
-/

namespace SpecForest.Source

/-- A token that is no bracket, or a pair of brackets with what stands between. -/
inductive TokenTree
  | token (t : Token)
  | group (opening closing : Token) (d : Delimiter) (inner : List TokenTree)

namespace TokenTree

mutual

/-- The tokens of a tree, in source order. -/
def tokens : TokenTree → List Token
  | token t => [t]
  | group opening closing _ inner => opening :: allTokens inner ++ [closing]

/-- The tokens of some trees, in source order. -/
def allTokens : List TokenTree → List Token
  | [] => []
  | t :: rest => t.tokens ++ allTokens rest

end

mutual

/-- The number of tokens that are no closing brackets. -/
def weight : TokenTree → Nat
  | token _ => 1
  | group _ _ _ inner => 1 + allWeight inner

/-- The number of tokens that are no closing brackets in some trees. -/
def allWeight : List TokenTree → Nat
  | [] => 0
  | t :: rest => t.weight + allWeight rest

end

/-- Whether a tree is a comma. -/
def isComma : TokenTree → Bool
  | token t => t.kind == .comma
  | group _ _ _ _ => false

end TokenTree

/-- An opening bracket that is not closed yet, with the trees before it, the last one first. -/
structure Frame where
  opening : Token
  delimiter : Delimiter
  before : List TokenTree

/-- Groups tokens, given the brackets that are open, innermost first, and the trees read since the
innermost was opened, the last one first. -/
def groupFrom (frames : List Frame) (current : List TokenTree) :
    List Token → Except LexError (List TokenTree)
  | [] =>
    match frames with
    | [] => .ok current.reverse
    | f :: _ => .error ⟨f.opening.start, .unclosed f.delimiter⟩
  | t :: rest =>
    match t.kind with
    | .opening d => groupFrom (⟨t, d, current⟩ :: frames) [] rest
    | .closing d =>
      match frames with
      | [] => .error ⟨t.start, .unbalanced⟩
      | f :: outer =>
        if f.delimiter = d then groupFrom outer (.group f.opening t d current.reverse :: f.before) rest
        else .error ⟨t.start, .mismatched f.delimiter f.opening.start⟩
    | _ => groupFrom frames (.token t :: current) rest

/-- The trees of a list of tokens, if its brackets are balanced. The first closing bracket that does not
fit is the fault, or else the innermost bracket that is never closed. -/
def group (ts : List Token) : Except LexError (List TokenTree) :=
  groupFrom [] [] ts

/-- The pieces between the commas outside of groups. A comma at the end adds no piece. -/
def splitArguments : List TokenTree → List (List TokenTree)
  | [] => []
  | t :: rest =>
    if t.isComma then [] :: splitArguments rest
    else
      match splitArguments rest with
      | [] => [[t]]
      | piece :: pieces => (t :: piece) :: pieces

/-- The source text from the first of some tokens to the last. -/
def sourceText : List Token → String
  | [] => ""
  | t :: rest => t.text ++ String.join (rest.map fun u => u.gap ++ u.text)

end SpecForest.Source

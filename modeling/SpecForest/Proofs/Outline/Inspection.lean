import Mathlib.Algebra.BigOperators.Ring.List
import Mathlib.Data.List.Basic
import Mathlib.Data.List.TakeWhile
import Mathlib.Data.Nat.Cast.Basic
import SpecForest.Outline.Emit

/-!
# Looking into generated code

What can be seen in a stream of tokens without knowing how it was made: which functions are called and with what,
which blocks and lists stand there, and what `let` defines. A call is a path with parentheses behind it, a list is what
stands in brackets behind `vec!`, and what is read off the arguments is found in `from_value(&__spectree_args[..])`.

All of this looks at one level of brackets only, so that what stands inside has to be looked at in turn. The number of
times that a word occurs is counted at all levels.
-/

namespace SpecForest.Outline

/-! ## Tokens -/

namespace Tree

/-- Whether a token is this word. -/
def isWord (w : String) : Tree → Bool
  | word v => v == w
  | _ => false

/-- What stands in parentheses. -/
def parens? : Tree → Option Stream
  | group .paren inner => some inner
  | _ => none

/-- Whether a token is the first of two colons. -/
def isColons (t : Tree) : Bool := t.isPunct ':' && t.isJoint

end Tree

/-- The calls in a stream, behind the beginning of a path: what is called, and what stands in the parentheses. -/
def callsFrom (path : List String) : Stream → List (List String × Stream)
  | [] => []
  | .word w :: rest =>
    match rest.head?.bind Tree.parens? with
    | some inner => (path ++ [w], inner) :: callsFrom [] rest
    | none => callsFrom (if rest.head?.any Tree.isColons then path ++ [w] else []) rest
  | .punct c _ :: rest => callsFrom (if c = ':' then path else []) rest
  | _ :: rest => callsFrom [] rest

/-- The calls in a stream. -/
def calls (s : Stream) : List (List String × Stream) := callsFrom [] s

/-- What stands in the parentheses of calls inside each other, each the first in its stream. -/
def within : List (List String) → Stream → Option Stream
  | [], s => some s
  | f :: fs, s =>
    match calls s with
    | [] => none
    | (g, inner) :: _ => if f = g then within fs inner else none

/-- What stands in the braces of a stream. -/
def blocks : Stream → List Stream
  | [] => []
  | .group .brace inner :: rest => inner :: blocks rest
  | _ :: rest => blocks rest

/-- What stands in the brackets of the lists in a stream. -/
def lists : Stream → List Stream
  | [] => []
  | .word "vec" :: .punct '!' _ :: .group .bracket inner :: rest => inner :: lists rest
  | _ :: rest => lists rest

/-- The parts of a stream between its commas. -/
def elements (s : Stream) : List Stream := if s.isEmpty then [] else s.splitOnP (Tree.isPunct ',')

/-- The name that a stream begins to define with `let`, and what stands behind it up to the next `let`. -/
def letAt? : Stream → Option (String × Stream)
  | .word "let" :: .word name :: rest => some (name, rest.takeWhile fun t => !t.isWord "let")
  | _ => none

/-- All names that are defined with `let` in a stream. -/
def lets : Stream → List (String × Stream)
  | [] => []
  | t :: rest => (letAt? (t :: rest)).toList ++ lets rest

/-- The index of the argument that is read last in a stream, as it is written. -/
def argumentRead? (s : Stream) : Option String :=
  (calls s).reverse.findSome? fun
    | (["from_value"], [.punct '&' _, .word "__spectree_args", .group .bracket [.literal index]]) => some index
    | _ => none

/-- The names that are defined in a stream, each with the argument that is read for it. -/
def bindings (s : Stream) : List (String × Option String) :=
  (lets s).map fun d => (d.1, argumentRead? d.2)

/-- The elements of the list that is defined last in a stream. -/
def listDefined (s : Stream) : List Stream :=
  match (lets s).getLast? with
  | none => []
  | some (_, value) => (lists value).flatMap elements

mutual

/-- How often a word occurs in a token. -/
@[simp] def Tree.occurrences (w : String) : Tree → Nat
  | .word v => if v = w then 1 else 0
  | .punct _ _ => 0
  | .literal _ => 0
  | .group _ inner => occurrences w inner

/-- How often a word occurs in a stream, at all levels. -/
@[simp] def occurrences (w : String) : Stream → Nat
  | [] => 0
  | t :: rest => t.occurrences w + occurrences w rest

end

section

variable (w : String)

@[simp] theorem occurrences_append (a b : Stream) : occurrences w (a ++ b) = occurrences w a + occurrences w b := by
  induction a with
  | nil => simp
  | cons t a ih => rw [List.cons_append, occurrences, occurrences, ih, Nat.add_assoc]

@[simp] theorem occurrences_commaSeparated (ss : List Stream) :
    occurrences w (commaSeparated ss) = (ss.map (occurrences w)).sum := by
  fun_induction commaSeparated ss with
  | case1 => rfl
  | case2 s => simp
  | case3 s t rest ih => simp [mark, ih]

@[simp] theorem occurrences_path (names : List String) : occurrences w (path names) = names.count w := by
  induction names with
  | nil => rfl
  | cons name names ih =>
    rw [path, List.flatMap_cons, ← path, occurrences_append, ih, List.count_cons]
    simp [twice, Nat.add_comm]

@[simp] theorem occurrences_call (f : Stream) (arguments : List Stream) :
    occurrences w (call f arguments) = occurrences w f + (arguments.map (occurrences w)).sum := by
  simp [call]

@[simp] theorem occurrences_callWithComma (f : Stream) (arguments : List Stream) :
    occurrences w (callWithComma f arguments) = occurrences w f + (arguments.map (occurrences w)).sum := by
  simp [callWithComma, mark]

@[simp] theorem occurrences_listOf (maker : Stream) (es : List Stream) :
    occurrences w (listOf maker es) = occurrences w maker + (es.map (occurrences w)).sum := by
  simp [listOf, mark]

@[simp] theorem occurrences_function (params : List Stream) (body : Stream) :
    occurrences w (function params body) = (params.map (occurrences w)).sum + occurrences w body := by
  simp [function, block, mark]

end

@[simp] theorem occurrences_definition {name : String} (hname : name ≠ "let") (type value : Stream) :
    occurrences "let" (definition name type value) = 1 + occurrences "let" type + occurrences "let" value := by
  simp [definition, mark, hname, Nat.add_assoc]

end SpecForest.Outline

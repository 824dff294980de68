import SpecForest.Outline.Error
import SpecForest.Outline.Stream

/-!
# Operators in a stream

An operator is written without blanks: each of its characters but the last is joint. The last may be joint
too, so that a stream which begins with `>>` begins with `>` as well, and it is for the grammar to say how
many characters it takes.
-/

namespace SpecForest.Outline

/-- Whether a stream begins with the characters of an operator. The mark of a lifetime is none. -/
def startsWithOperator : List Char → Stream → Bool
  | [], _ => true
  | [c], .punct d _ :: _ => c == d
  | c :: rest, .punct d .joint :: s => c == d && startsWithOperator rest s
  | _, _ => false

/-- An operator as tokens, with nothing joined behind it. -/
def operatorTokens : List Char → Stream
  | [] => []
  | [c] => [.punct c .alone]
  | c :: rest => .punct c .joint :: operatorTokens rest

namespace Stream

/-- What follows the first tokens of a stream. -/
def behind (s : Stream) (n : Nat) : Stream := s.drop n

/-- Whether a stream begins with an operator. -/
def startsWith (s : Stream) (op : String) : Bool := startsWithOperator op.toList s

/-- Takes an operator. -/
def takeOperator (op : String) (s : Stream) : Except OutlineError (Stream × Stream) :=
  if s.startsWith op then .ok (operatorTokens op.toList, s.drop op.length)
  else .error (.expectedMark op)

/-- Whether a stream begins with a word. -/
def startsWithWord (s : Stream) (word : String) : Bool :=
  match s with
  | .word w :: _ => w == word
  | _ => false

/-- Whether a stream begins with brackets of a kind. -/
def startsWithGroup (s : Stream) (d : Delimiter) : Bool :=
  match s with
  | .group e _ :: _ => e = d
  | _ => false

/-- Whether a stream begins with a lifetime: a single quote and a word. -/
def startsWithLifetime (s : Stream) : Bool :=
  match s with
  | .punct '\'' .joint :: .word _ :: _ => true
  | _ => false

end Stream

/-! ## Binary operators -/

/-- How tightly an operator binds. -/
inductive Precedence
  | lowest
  | assign
  | range
  | or
  | and
  | compare
  | bitOr
  | bitXor
  | bitAnd
  | shift
  | sum
  | product
  | cast
  deriving DecidableEq

/-- Tighter operators have a higher rank. -/
def Precedence.rank : Precedence → Nat
  | lowest => 0
  | assign => 1
  | range => 2
  | or => 3
  | and => 4
  | compare => 5
  | bitOr => 6
  | bitXor => 7
  | bitAnd => 8
  | shift => 9
  | sum => 10
  | product => 11
  | cast => 12

/-- The operators between two operands, in an order in which none hides a longer one. -/
def binaryOperators : List (String × Precedence) :=
  [("+=", .assign), ("-=", .assign), ("*=", .assign), ("/=", .assign), ("%=", .assign), ("^=", .assign),
    ("&=", .assign), ("|=", .assign), ("<<=", .assign), (">>=", .assign), ("&&", .and), ("||", .or),
    ("<<", .shift), (">>", .shift), ("==", .compare), ("<=", .compare), ("!=", .compare),
    (">=", .compare), ("+", .sum), ("-", .sum), ("*", .product), ("/", .product), ("%", .product),
    ("^", .bitXor), ("&", .bitAnd), ("|", .bitOr), ("<", .compare), (">", .compare)]

/-- The binary operator at the start of a stream. -/
def Stream.binaryOperator? (s : Stream) : Option (String × Precedence) :=
  binaryOperators.find? fun op => s.startsWith op.1

/-- Whether a stream begins with an assignment, and not with an arrow. -/
def Stream.startsWithAssignment (s : Stream) : Bool :=
  s.startsWith "=" && !s.startsWith "=>"

/-- The precedence of what stands at the start of a stream; the lowest, if that is no operator. -/
def Stream.precedence (s : Stream) : Precedence :=
  match s.binaryOperator? with
  | some (_, p) => p
  | none =>
    if s.startsWithAssignment then .assign
    else if s.startsWith ".." then .range
    else if s.startsWithWord "as" then .cast
    else .lowest

end SpecForest.Outline

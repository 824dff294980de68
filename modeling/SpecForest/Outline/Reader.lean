import SpecForest.Outline.Operator
import SpecForest.Outline.Word

/-!
# Readers

A reader takes tokens off the front of a stream, or fails. It gives back the tokens as they are to be written,
with exactly the characters of each operator joined. What is left in brackets behind everything that was read
there is no error at once: the kind of the first such brackets is kept, and counts only if nothing else is
wrong.
-/

namespace SpecForest.Outline

/-- What is left to read, and the kind of the first brackets that held more than was read. -/
structure Remainder where
  stream : Stream
  leftover : Option Delimiter := none

/-- Takes tokens off a stream, or fails. -/
abbrev Reader := StateT Remainder (Except OutlineError)

namespace Reader

/-- What is left to read. -/
def rest : Reader Stream := fun r => .ok (r.stream, r)

/-- Fails. -/
def fail {α : Type} (e : OutlineError) : Reader α := fun _ => .error e

/-- Fails because something else was expected here. -/
def missing {α : Type} (what : Expected) : Reader α := fun r =>
  .error (.expected what r.stream.isEmpty)

/-- Takes what a function on streams takes. -/
def take {α : Type} (f : Stream → Except OutlineError (α × Stream)) : Reader α := fun r =>
  match f r.stream with
  | .error e => .error e
  | .ok (a, s) => .ok (a, { r with stream := s })

/-- Takes a number of tokens, whatever they are. -/
def skip (n : Nat) : Reader Unit := fun r => .ok ((), { r with stream := r.stream.drop n })

/-- Reads between brackets of a kind, and goes on behind what was to be read before. -/
def between {α : Type} (d : Delimiter) (inner : Stream) (read : Reader α) : Reader α := fun r =>
  match read { r with stream := inner } with
  | .error e => .error e
  | .ok (a, found) =>
    .ok (a, { r with
      leftover := found.leftover.or (if found.stream.isEmpty then none else some d) })

/-- Repeats a step as long as it asks for another round, at most a number of times. -/
def repeated {α : Type} (step : α → Reader (α × Bool)) : Nat → α → Reader α
  | 0, a => pure a
  | n + 1, a => do
    let (b, again) ← step a
    if again then repeated step n b else pure b

/-- Repeats a step as long as it asks for another round. A step that does has taken a token, so there is
one round more than there are tokens. -/
def rounds {α : Type} (step : α → Reader (α × Bool)) (a : α) : Reader α := do
  repeated step ((← rest).length + 1) a

/-! ## Tokens -/

/-- Whether an operator comes next. -/
def atOperator (op : String) : Reader Bool := return (← rest).startsWith op

/-- Whether a word comes next. -/
def atWord (word : String) : Reader Bool := return (← rest).startsWithWord word

/-- Whether brackets of a kind come next. -/
def atGroup (d : Delimiter) : Reader Bool := return (← rest).startsWithGroup d

/-- Whether a lifetime comes next. -/
def atLifetime : Reader Bool := return (← rest).startsWithLifetime

/-- Whether everything has been read. -/
def atEnd : Reader Bool := return (← rest).isEmpty

/-- Takes an operator. -/
def operator (op : String) : Reader Stream := take (Stream.takeOperator op)

/-- Takes an operator if it comes next. -/
def operator? (op : String) : Reader Stream := do
  if ← atOperator op then operator op else pure []

/-- Takes a word that has to be this one. -/
def keyword (word : String) : Reader Stream := do
  match ← rest with
  | .word w :: _ => if w = word then skip 1; return [.word w] else missing (.keyword word)
  | _ => missing (.keyword word)

/-- Takes a word if it comes next. -/
def keyword? (word : String) : Reader Stream := do
  if ← atWord word then keyword word else pure []

/-- Takes a word, reserved or not. -/
def anyWord : Reader Stream := do
  match ← rest with
  | .word w :: _ => skip 1; return [.word w]
  | _ => missing .identifier

/-- Takes a name. -/
def name : Reader Stream := do
  match ← rest with
  | .word w :: _ => if isName w then skip 1; return [.word w] else fail (.reserved w)
  | _ => missing .identifier

/-- Takes a lifetime. -/
def lifetime : Reader Stream := do
  match ← rest with
  | .punct '\'' .joint :: .word w :: _ => skip 2; return [.punct '\'' .joint, .word w]
  | _ => missing .parameter

/-- Takes brackets of a kind, and reads what is between them. -/
def group (d : Delimiter) (read : Reader Stream) : Reader Stream := do
  match ← rest with
  | .group e inner :: _ =>
    if e = d then
      skip 1
      return [.group d (← between d inner read)]
    else missing (.group d)
  | _ => missing (.group d)

/-- Takes brackets of any kind with all that is between them. -/
def brackets : Reader Stream := do
  match ← rest with
  | .group d inner :: _ => skip 1; return [.group d inner]
  | _ => missing .brackets

/-- Reads elements with commas between them, and perhaps one behind the last, up to the end. -/
def list (element : Reader Stream) : Reader Stream :=
  rounds (fun before => do
    if ← atEnd then return (before, false)
    let one ← element
    if ← atEnd then return (before ++ one, false)
    return (before ++ one ++ (← operator ","), true)) []

end Reader

end SpecForest.Outline

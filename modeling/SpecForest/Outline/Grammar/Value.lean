import SpecForest.Outline.Grammar.Type

/-!
# Values

Literals, paths, calls, fields, tuples, arrays and structures, with operators before, behind and between them.
Operators between operands bind by precedence; comparisons do not chain, and a range is no operand of another
operator.
-/

namespace SpecForest.Outline.Grammar
open Reader

/-! ## Attributes -/

/-- Takes a path without arguments, as the name of an attribute. -/
def attributeName : Reader Stream := do
  let root ← operator? "::"
  let segments ← rounds (fun (before : Stream) => do
    match ← rest with
    | .word w :: _ =>
      if isName w || pathWords.contains w then
        let one ← anyWord
        if ← atOperator "::" then return (before ++ one ++ (← operator "::"), true)
        return (before ++ one, false)
      else if before.isEmpty then fail (.reserved w)
      else missing .segment
    | _ => if before.isEmpty then missing .identifier else missing .segment) []
  return root ++ segments

/-- Reads what is in the brackets of an attribute: a name, perhaps with brackets or a value. -/
def attributeContent (inner : PhraseReader) : Reader Stream := do
  let path ← attributeName
  match ← rest with
  | .group _ _ :: _ => return path ++ (← brackets)
  | s =>
    if s.startsWithAssignment && !s.startsWith "==" then
      return path ++ (← operator "=") ++ (← inner.tokens .value)
    return path

/-- Takes the attributes before an operand. -/
def attributes (inner : PhraseReader) : Reader Stream :=
  rounds (fun before => do
    if ← atOperator "#" then
      let mark ← operator "#"
      return (before ++ mark ++ (← group .bracket (attributeContent inner)), true)
    return (before, false)) []

/-! ## Fields and methods -/

/-- Takes a name or the number of a field, and tells whether it is a name. -/
def member : Reader (Stream × Bool) := do
  match ← rest with
  | .word w :: _ => if isName w then skip 1; return ([.word w], true) else missing .member
  | .literal source :: _ =>
    match Number.ofSource? source with
    | some (.whole _ _) => return ([← take fun s => (fieldNumber false source).map (·, s.drop 1)], false)
    | _ => missing .member
  | .punct '-' _ :: .literal source :: _ =>
    match Number.ofSource? source with
    | some (.whole _ _) => return ([← take fun s => (fieldNumber true source).map (·, s.drop 2)], false)
    | _ => missing .member
  | _ => missing .member

/-- Takes the fields that look like a number with a point, if they come next. -/
def fieldRun? : Reader (Option FieldRun) := do
  match ← rest with
  | .literal source :: _ =>
    match Number.ofSource? source with
    | some .fractional => return some (← take fun s => (fieldRun false source).map (·, s.drop 1))
    | _ => return none
  | .punct '-' _ :: .literal source :: _ =>
    match Number.ofSource? source with
    | some .fractional => return some (← take fun s => (fieldRun true source).map (·, s.drop 2))
    | _ => return none
  | _ => return none

/-- Takes what follows the point behind an operand: a field, a method with its arguments, or the word that
waits. -/
def selection (inner : PhraseReader) (point : Stream) : Reader Stream := do
  if ← atWord "await" then return point ++ (← anyWord)
  let (found, named) ← member
  let args ← if named && (← atOperator "::") then
      pure ((← operator "::") ++ (← angleArguments inner))
    else pure []
  if !args.isEmpty || (named && (← atGroup .paren)) then
    return point ++ found ++ args ++ (← group .paren (list (inner.tokens .value)))
  return point ++ found

/-- Takes a point and what follows it. -/
def access (inner : PhraseReader) : Reader Stream := do
  let point ← operator "."
  match ← fieldRun? with
  | some run =>
    if run.openEnded then selection inner (run.tokens ++ point) else return run.tokens
  | none => selection inner point

/-- Takes what follows an operand and belongs to it: arguments, fields, indexes and question marks. -/
def trailers (inner : PhraseReader) (first : Phrase) : Reader Phrase :=
  rounds (fun (before : Phrase) => do
    let s ← rest
    let next ←
      if s.startsWithGroup .paren then some <$> group .paren (list (inner.tokens .value))
      else if s.startsWithGroup .bracket then some <$> group .bracket (inner.tokens .value)
      else if before.form = .range then pure none
      else if s.startsWith "." && !s.startsWith ".." then some <$> access inner
      else if s.startsWith "?" then some <$> operator "?"
      else pure none
    match next with
    | some tokens => return ({ tokens := before.tokens ++ tokens }, true)
    | none => return (before, false)) first

/-! ## Ranges -/

/-- The operators behind which a range without an end cannot go on as an operand. -/
def rangeStops : List String :=
  [",", ";", "?", "=>", "=", "+", "/", "%", "^", ">", "<=", "!=", "-=", "*=", "&=", "|=", "<<="]

/-- Whether a range ends here. -/
def endsRange (s : Stream) : Bool :=
  s.isEmpty || rangeStops.any s.startsWith || (s.startsWith "." && !s.startsWith "..")
    || s.startsWithWord "as"

/-- Takes an operand and the operators behind it that bind more tightly than the one before it. Assignments
bind from the right. -/
def rightOperand (inner : PhraseReader) (before : Precedence) : Reader Phrase := do
  rounds (fun (right : Phrase) => do
    let s ← rest
    let next := s.precedence
    if before.rank < next.rank || (next = before && before = .assign) then
      let found ← inner (.operation next right)
      return (found, decide ((← rest).length < s.length))
    return (right, false)) (← inner .operand)

/-- Takes the points of a range and its end, if it has one. -/
def rangeEnd (inner : PhraseReader) : Reader Stream := do
  let s ← rest
  if s.startsWith "..=" then
    return (← operator "..=") ++ (← rightOperand inner .range).tokens
  if s.startsWith "..." then missing .limits
  let points ← operator ".."
  if endsRange (← rest) then return points
  return points ++ (← rightOperand inner .range).tokens

/-! ## Operands -/

/-- Reads what is in parentheses: nothing, a value, or the values of a tuple. -/
def enclosedValues (inner : PhraseReader) : Reader Stream := list (inner.tokens .value)

/-- Reads what is in square brackets: the elements of an array, or one element and how often it is there. -/
def arrayValues (inner : PhraseReader) : Reader Stream := do
  if ← atEnd then return []
  let first ← inner.tokens .value
  if ← atEnd then return first
  if ← atOperator "," then
    let comma ← operator ","
    return first ++ comma ++ (← list (inner.tokens .value))
  if ← atOperator ";" then
    let semicolon ← operator ";"
    return first ++ semicolon ++ (← inner.tokens .value)
  missing .arraySeparator

/-- Takes a field of a structure with its value. A name can stand for the value of the same name. -/
def fieldValue (inner : PhraseReader) : Reader Stream := do
  let attrs ← attributes inner
  let (field, named) ← member
  if !named || (← atOperator ":") then
    let colon ← operator ":"
    return attrs ++ field ++ colon ++ (← inner.tokens .value)
  return attrs ++ field

/-- Reads the fields of a structure, and perhaps where the others come from. -/
def structureFields (inner : PhraseReader) : Reader Stream :=
  rounds (fun before => do
    if ← atEnd then return (before, false)
    if ← atOperator ".." then
      let points ← operator ".."
      if ← atEnd then return (before ++ points, false)
      return (before ++ points ++ (← inner.tokens .value), false)
    let one ← fieldValue inner
    if ← atEnd then return (before ++ one, false)
    return (before ++ one ++ (← operator ","), true)) []

/-- Takes a value that begins with a path: the path, a call with an exclamation mark, or a structure. -/
def pathValue (inner : PhraseReader) : Reader Stream := do
  let p ← anyPath inner .value
  if p.isCalledLoudly (← rest) then
    return p.tokens ++ (← operator "!") ++ (← brackets)
  if ← atGroup .brace then return p.tokens ++ (← group .brace (structureFields inner))
  return p.tokens

/-- Takes a labelled block. -/
def labelledBlock (inner : PhraseReader) : Reader Stream := do
  let label ← lifetime
  let colon ← operator ":"
  if ← atGroup .brace then return label ++ colon ++ (← block inner)
  missing .labelled

/-! ## Blocks and jumps -/

/-- The words before a block that make it a value of another kind. -/
def blockWords (s : Stream) : Nat :=
  match s with
  | .word "unsafe" :: _ | .word "loop" :: _ => 1
  | .word "const" :: .group .brace _ :: _ | .word "try" :: .group .brace _ :: _
  | .word "async" :: .group .brace _ :: _ => 1
  | .word "async" :: .word "move" :: .group .brace _ :: _ => 2
  | _ => 0

/-- Whether a value comes next. -/
def startsValue (s : Stream) : Bool :=
  match s with
  | .word w :: _ => w != "as"
  | .literal _ :: _ | .group _ _ :: _ => true
  | _ =>
    (s.startsWith "!" && !s.startsWith "!=")
      || (s.startsWith "-" && !s.startsWith "-=" && !s.startsWith "->")
      || (s.startsWith "*" && !s.startsWith "*=") || (s.startsWith "|" && !s.startsWith "|=")
      || (s.startsWith "&" && !s.startsWith "&=") || s.startsWith ".."
      || (s.startsWith "<" && !s.startsWith "<=" && !s.startsWith "<<=")
      || s.startsWith "::" || s.startsWithLifetime || s.startsWith "#"

/-- Takes a word that leaves a block, perhaps with the label of the block, perhaps with a value. -/
def jump (inner : PhraseReader) (label value : Bool) : Reader Stream := do
  let word ← anyWord
  let target ← if label && (← atLifetime) then lifetime else pure []
  if value && startsValue (← rest) then return word ++ target ++ (← inner.tokens .value)
  return word ++ target

/-! ## Operands of all kinds -/

/-- Whether a path begins here that is a value. -/
def startsPathValue (s : Stream) : Bool :=
  startsPath s
    || (s.startsWithWord "try" && ((s.behind 1).startsWith "!" || (s.behind 1).startsWith "::"))

/-- Takes an operand without what stands before and behind it. -/
def atom (inner : PhraseReader) : Reader Phrase := do
  match ← rest with
  | .literal source :: _ => skip 1; return { tokens := [.literal source] }
  | .group .paren _ :: _ => return { tokens := ← group .paren (enclosedValues inner) }
  | .group .bracket _ :: _ => return { tokens := ← group .bracket (arrayValues inner) }
  | .group .brace _ :: _ => return { tokens := ← block inner }
  | s =>
    if s.startsWithWord "true" || s.startsWithWord "false" || s.startsWithWord "_" then
      return { tokens := ← anyWord }
    else if 0 < blockWords s then
      skip (blockWords s)
      return { tokens := s.take (blockWords s) ++ (← block inner) }
    else if s.startsWithWord "return" then return { tokens := ← jump inner false true }
    else if s.startsWithWord "break" then return { tokens := ← jump inner true true }
    else if s.startsWithWord "continue" then return { tokens := ← jump inner true false }
    else if startsPathValue s then return { tokens := ← pathValue inner }
    else if s.startsWith ".." then return { tokens := ← rangeEnd inner, form := .range }
    else if s.startsWithLifetime then return { tokens := ← labelledBlock inner }
    else missing .expression

/-- Takes the reference before an operand, with the words that say what kind of reference it is. -/
def reference : Reader Stream := do
  let mark ← operator "&"
  let s ← rest
  let bare := s.startsWithWord "raw"
    && ((s.behind 1).startsWithWord "mut" || (s.behind 1).startsWithWord "const")
  let word ← if bare then anyWord else pure []
  let kind ← if bare then anyWord else keyword? "mut"
  return mark ++ word ++ kind

/-- Takes an operand: what stands before it, the operand itself, and what stands behind it. -/
def operand (inner : PhraseReader) : Reader Phrase := do
  let attrs ← attributes inner
  let s ← rest
  if s.startsWith "&" then
    let mark ← reference
    return { tokens := attrs ++ mark ++ (← inner.tokens .operand) }
  if s.startsWith "*" then
    return { tokens := attrs ++ (← operator "*") ++ (← inner.tokens .operand) }
  if s.startsWith "!" then
    return { tokens := attrs ++ (← operator "!") ++ (← inner.tokens .operand) }
  if s.startsWith "-" then
    return { tokens := attrs ++ (← operator "-") ++ (← inner.tokens .operand) }
  let found ← trailers inner (← atom inner)
  return { found with tokens := attrs ++ found.tokens }

/-! ## Operations -/

/-- What follows a cast and cannot. -/
def castFollower? (s : Stream) : Option String :=
  match s with
  | .group .bracket _ :: _ => some "indexing"
  | .group .paren _ :: _ => some "a function call"
  | _ =>
    if s.startsWith "." && !s.startsWith ".." then
      match s.behind 1 with
      | .word w :: _ =>
        if w == "await" then some "`.await`"
        else if isName w && ((s.behind 2).startsWithGroup .paren || (s.behind 2).startsWith "::") then
          some "a method call"
        else some "a field access"
      | _ => some "a field access"
    else if s.startsWith "?" then some "`?`"
    else none

/-- Takes a cast behind a value. -/
def cast (inner : PhraseReader) (left : Phrase) : Reader Phrase := do
  let word ← keyword "as"
  let type ← inner.tokens (.type false)
  match castFollower? (← rest) with
  | some what => fail (.castFollowedBy what)
  | none => return { tokens := left.tokens ++ word ++ type }

/-- Takes the operators behind a value that bind at least as tightly as `base`, with their operands. -/
def operation (inner : PhraseReader) (base : Precedence) (first : Phrase) : Reader Phrase :=
  rounds (fun (left : Phrase) => do
    let s ← rest
    if left.form = .range then return (left, false)
    match s.binaryOperator? with
    | some (op, p) =>
      if p.rank < base.rank then return (left, false)
      if p = .compare && left.form = .comparison then fail .chainedComparison
      let mark ← operator op
      let right ← rightOperand inner p
      return ({
        tokens := left.tokens ++ mark ++ right.tokens
        form := if p = .compare then .comparison else .other }, true)
    | none =>
      if base.rank ≤ Precedence.assign.rank && s.startsWithAssignment then
        let mark ← operator "="
        let right ← rightOperand inner .assign
        return ({ tokens := left.tokens ++ mark ++ right.tokens }, true)
      if base.rank ≤ Precedence.range.rank && s.startsWith ".." then
        return ({ tokens := left.tokens ++ (← rangeEnd inner), form := .range }, true)
      if base.rank ≤ Precedence.cast.rank && s.startsWithWord "as" then
        return (← cast inner left, true)
      return (left, false)) first

/-- Takes a value. -/
def value (inner : PhraseReader) : Reader Phrase := do
  inner (.operation .lowest (← inner .operand))

end SpecForest.Outline.Grammar

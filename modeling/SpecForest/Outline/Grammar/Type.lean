import SpecForest.Outline.Grammar.Path

/-!
# Types

Paths, references, pointers, tuples, slices and arrays, function types, and bounds. A reference binds more
tightly than the plus sign between bounds, so what is referred to has no further bounds.
-/

namespace SpecForest.Outline.Grammar
open Reader

/-! ## Functions -/

/-- Takes parameters in parentheses and the result type behind them, if there is one. -/
def signature (inner : PhraseReader) (param : Reader Stream) : Reader Stream := do
  let params ← group .paren (list param)
  if ← atOperator "->" then
    let arrow ← operator "->"
    return params ++ arrow ++ (← inner.tokens (.type false))
  return params

/-- Takes the lifetimes that a type is for: `for` and lifetimes in angle brackets. -/
def quantifier (inner : PhraseReader) : Reader Stream := do
  let word ← keyword "for"
  let opening ← operator "<"
  let params ← rounds (fun before => do
    if ← atOperator ">" then return (before, false)
    let one ← lifetime
    let bounds ← if ← atOperator ":" then
        pure ((← operator ":") ++ (← argumentBounds inner))
      else pure []
    if ← atOperator ">" then return (before ++ one ++ bounds, false)
    return (before ++ one ++ bounds ++ (← operator ","), true)) []
  return word ++ opening ++ params ++ (← operator ">")

/-- Takes the lifetimes that a type is for, if there are any. -/
def quantifier? (inner : PhraseReader) : Reader Stream := do
  if ← atWord "for" then quantifier inner else pure []

/-- Takes a parameter of a function type: a type, perhaps behind a name and a colon. -/
def functionParam (inner : PhraseReader) : Reader Stream := do
  let label ← match ← rest with
    | .word w :: s =>
      if (isName w || w == "_") && Stream.startsWith s ":" && !Stream.startsWith s "::" then
        skip 1
        pure (.word w :: (← operator ":"))
      else pure []
    | _ => pure []
  return label ++ (← inner.tokens (.type true))

/-- Takes a function type. -/
def functionType (inner : PhraseReader) : Reader Stream := do
  let safety ← keyword? "unsafe"
  let convention ← if ← atWord "extern" then
      let word ← keyword "extern"
      match ← rest with
      | .literal source :: _ => skip 1; pure (word ++ [.literal source])
      | _ => pure word
    else pure []
  let word ← keyword "fn"
  return safety ++ convention ++ word ++ (← signature inner (functionParam inner))

/-! ## Bounds -/

/-- Takes the arguments in parentheses of a trait that is a function. Two colons before them are left
out. Only a bound can have such arguments. -/
def traitArguments (inner : PhraseReader) : Reader Stream := do
  let s ← rest
  if s.startsWith "::" && (s.behind 2).startsWithGroup .paren then
    let _ ← operator "::"
  if ← atGroup .paren then signature inner (inner.tokens (.type true)) else pure []

/-- Takes a bound by a trait, without parentheses around it. -/
def traitBound (inner : PhraseReader) : Reader Stream := do
  let before ← quantifier? inner
  let relaxed ← operator? "?"
  let after ← if before.isEmpty && !relaxed.isEmpty then quantifier? inner else pure []
  let p ← plainPath inner .type
  let args ← if p.endsInArguments then pure [] else traitArguments inner
  return before ++ relaxed ++ after ++ p.tokens ++ args

/-- Takes a bound: a lifetime, or a trait, perhaps in parentheses. -/
def bound (inner : PhraseReader) : Reader Phrase := do
  if ← atLifetime then return { tokens := ← lifetime, form := .lifetime }
  if ← atGroup .paren then return { tokens := ← group .paren (traitBound inner), form := .bound }
  return { tokens := ← traitBound inner, form := .bound }

/-- Whether another bound comes next. -/
def startsBound : Stream → Bool
  | .word _ :: _ => true
  | .group .paren _ :: _ => true
  | s => s.startsWith "::" || s.startsWith "?" || s.startsWithLifetime

/-- Bounds that were read. -/
structure Bounds where
  tokens : Stream := []
  /-- How many there are. -/
  count : Nat := 0
  /-- Whether one of them is a trait. -/
  hasTrait : Bool := false
  /-- Whether a plus sign stands behind the last. -/
  trailing : Bool := false

/-- Adds a bound. -/
def Bounds.add (bs : Bounds) (b : Phrase) : Bounds where
  tokens := bs.tokens ++ b.tokens
  count := bs.count + 1
  hasTrait := bs.hasTrait || b.form == .bound

/-- Takes the plus signs and bounds that follow a bound. A plus sign may stand behind the last. -/
def furtherBounds (inner : PhraseReader) (first : Bounds) : Reader Bounds :=
  rounds (fun (bs : Bounds) => do
    if ← atOperator "+" then
      let plus ← operator "+"
      let bs := { bs with tokens := bs.tokens ++ plus, trailing := true }
      if startsBound (← rest) then return (bs.add (← inner .bound), true)
      return (bs, false)
    return (bs, false)) first

/-- Takes bounds with plus signs between them; one bound, if no plus sign is allowed. -/
def bounds (inner : PhraseReader) (plus : Bool) : Reader Bounds := do
  let first := Bounds.add {} (← inner .bound)
  if plus then furtherBounds inner first else pure first

/-- Takes the bounds behind a bound and a plus sign, each with a plus sign before it. -/
def addedBounds (inner : PhraseReader) : Reader Stream :=
  rounds (fun before => do
    if ← atOperator "+" then return (before ++ (← operator "+") ++ (← inner.tokens .bound), true)
    return (before, false)) []

/-! ## Types by their first token -/

/-- The type that bounds are. -/
def Bounds.type (bs : Bounds) : Phrase where
  tokens := bs.tokens
  form := if bs.count == 1 && !bs.trailing then .bound else .other

/-- Takes a type that is named by a path. -/
def pathType (inner : PhraseReader) (plus : Bool) (quantified : Stream) : Reader Phrase := do
  let p ← anyPath inner .type
  if p.isQualified then return { tokens := quantified ++ p.tokens }
  if p.isCalledLoudly (← rest) then
    return { tokens := quantified ++ p.tokens ++ (← operator "!") ++ (← brackets) }
  if !quantified.isEmpty || (plus && (← atOperator "+")) then
    let first : Bounds := { tokens := quantified ++ p.tokens, count := 1, hasTrait := true }
    return (← if plus then furtherBounds inner first else pure first).type
  return { tokens := p.tokens, form := if p.isSingle then .name else .path }

/-- Whether a type is one bound, to which others can be added. -/
def isBound : Form → Bool
  | .name | .path | .bound => true
  | _ => false

/-- Reads what is in parentheses: a type, or the types of a tuple. -/
def enclosedTypes (inner : PhraseReader) : Reader Phrase := do
  if ← atEnd then return { tokens := [] }
  if ← atLifetime then
    let bs ← bounds inner true
    if !bs.hasTrait then fail .objectWithoutTrait
    return { tokens := bs.tokens }
  let first ← inner (.type true)
  if ← atOperator "," then
    let comma ← operator ","
    return { tokens := first.tokens ++ comma ++ (← list (inner.tokens (.type true))) }
  return first

/-- Takes a type in parentheses. If it is one bound, others may follow it. -/
def enclosedType (inner : PhraseReader) (plus : Bool) : Reader Phrase := do
  match ← rest with
  | .group .paren content :: _ =>
    if Stream.startsWith content "?" then
      let first ← group .paren (traitBound inner)
      return { tokens := first ++ (← addedBounds inner) }
    skip 1
    let found ← between .paren content (enclosedTypes inner)
    let tokens : Stream := [.group .paren found.tokens]
    if plus && isBound found.form then return { tokens := tokens ++ (← addedBounds inner) }
    return { tokens }
  | _ => missing (.group .paren)

/-- Reads what is in square brackets: the type of the elements, and perhaps their number. -/
def elementType (inner : PhraseReader) : Reader Stream := do
  let element ← inner.tokens (.type true)
  if ← atOperator ";" then
    let semicolon ← operator ";"
    return element ++ semicolon ++ (← inner.tokens .value)
  return element

/-- Takes a pointer. -/
def pointerType (inner : PhraseReader) : Reader Stream := do
  let star ← operator "*"
  let kind ← if (← atWord "const") || (← atWord "mut") then anyWord else missing .pointee
  return star ++ kind ++ (← inner.tokens (.type false))

/-- Takes a reference: perhaps a lifetime, perhaps the word that it is mutable, and a type. -/
def referenceType (inner : PhraseReader) : Reader Stream := do
  let mark ← operator "&"
  let life ← if ← atLifetime then lifetime else pure []
  let mutability ← keyword? "mut"
  return mark ++ life ++ mutability ++ (← inner.tokens (.type false))

/-- Takes an object type behind its word. -/
def objectType (inner : PhraseReader) (plus : Bool) : Reader Phrase := do
  let word ← keyword "dyn"
  let star ← operator? "*"
  let bs ← bounds inner plus
  if !bs.hasTrait then fail .objectWithoutTrait
  return { tokens := word ++ star ++ bs.tokens }

/-- Takes a hidden type behind its word. -/
def hiddenType (inner : PhraseReader) (plus : Bool) : Reader Phrase := do
  let word ← keyword "impl"
  let bs ← bounds inner plus
  if !bs.hasTrait then fail .hiddenWithoutTrait
  return { tokens := word ++ bs.tokens }

/-- Whether a path comes next. -/
def startsPath (s : Stream) : Bool :=
  match s with
  | .word w :: _ => isName w || pathWords.contains w
  | _ => s.startsWith "::" || s.startsWith "<"

/-- Whether a function type comes next. -/
def startsFunction (s : Stream) : Bool :=
  s.startsWithWord "fn" || s.startsWithWord "unsafe" || s.startsWithWord "extern"

/-- Takes a type behind the lifetimes that it is for. -/
def quantifiedType (inner : PhraseReader) (plus : Bool) : Reader Phrase := do
  let quantified ← quantifier inner
  match ← rest with
  | .word w :: s =>
    if startsFunction (.word w :: s) then
      return { tokens := quantified ++ (← functionType inner) }
    if isName w || pathWords.contains w then pathType inner plus quantified
    else missing .quantified
  | _ => missing .quantified

/-- Takes a type. -/
def type (inner : PhraseReader) (plus : Bool) : Reader Phrase := do
  let s ← rest
  if s.startsWithWord "for" then quantifiedType inner plus
  else if s.startsWithGroup .paren then enclosedType inner plus
  else if startsFunction s then return { tokens := ← functionType inner }
  else if startsPath s then pathType inner plus []
  else if s.startsWithWord "dyn" then objectType inner plus
  else if s.startsWithGroup .bracket then return { tokens := ← group .bracket (elementType inner) }
  else if s.startsWith "*" then return { tokens := ← pointerType inner }
  else if s.startsWith "&" then return { tokens := ← referenceType inner }
  else if s.startsWith "!" then return { tokens := ← operator "!" }
  else if s.startsWithWord "impl" then hiddenType inner plus
  else if s.startsWithWord "_" then return { tokens := ← anyWord }
  else if s.startsWithLifetime then
    let bs ← bounds inner true
    if !bs.hasTrait then fail .objectWithoutTrait
    return bs.type
  else missing .type

end SpecForest.Outline.Grammar

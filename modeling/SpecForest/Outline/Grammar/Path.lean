import SpecForest.Outline.Number
import SpecForest.Outline.Phrase

/-!
# Paths

A path is a row of names with two colons between them. A name can have arguments in angle brackets: in a type
directly, in a value behind two colons. A qualified path begins with a type in angle brackets. Arguments are
written with the lifetimes first, whatever their order was.
-/

namespace SpecForest.Outline.Grammar
open Reader

/-! ## Constants -/

/-- The literal at the start of a stream, with the sign of a negative number and the two truth values
among them: its tokens. -/
def constant? : Stream → Option Stream
  | .literal source :: _ => some [.literal source]
  | .word "true" :: _ => some [.word "true"]
  | .word "false" :: _ => some [.word "false"]
  | .punct '-' _ :: .literal source :: _ =>
    if (Number.ofSource? source).isSome then some [.punct '-' .alone, .literal source] else none
  | _ => none

/-- Reads statements, each a value, up to the end. -/
def statements (inner : PhraseReader) : Reader Stream :=
  rounds (fun before => do
    if ← atEnd then return (before, false)
    if ← atOperator ";" then return (before ++ (← operator ";"), true)
    let one ← inner.tokens .value
    if ← atEnd then return (before ++ one, false)
    if ← atOperator ";" then return (before ++ one ++ (← operator ";"), true)
    fail .unendedStatement) []

/-- Takes a block. -/
def block (inner : PhraseReader) : Reader Stream := group .brace (statements inner)

/-- Takes a constant, if one comes next: a literal or a block. -/
def constantArgument? (inner : PhraseReader) : Reader (Option Stream) := do
  match constant? (← rest) with
  | some tokens => skip tokens.length; return some tokens
  | none => if ← atGroup .brace then return some (← block inner) else return none

/-! ## Arguments in angle brackets -/

/-- An argument in angle brackets. -/
structure Argument where
  tokens : Stream
  isLifetime : Bool := false
  /-- Whether a comma follows. -/
  comma : Bool := false

/-- Arguments with the commas that follow them. -/
def writeInOrder (args : List Argument) : Stream :=
  args.flatMap fun a => a.tokens ++ if a.comma then [.punct ',' .alone] else []

/-- Arguments as they are written: the lifetimes first. Only the last argument can be without a comma, so a
comma is added where a lifetime was the last and others are written behind it. -/
def writeArguments (args : List Argument) : Stream :=
  let lifetimes := args.filter (·.isLifetime)
  let others := args.filter (!·.isLifetime)
  let gap : Stream := if others.isEmpty || lifetimes.all (·.comma) then [] else [.punct ',' .alone]
  writeInOrder lifetimes ++ gap ++ writeInOrder others

/-- Takes the bounds of an argument, up to the next comma or angle bracket. There may be none. -/
def argumentBounds (inner : PhraseReader) : Reader Stream :=
  rounds (fun before => do
    if (← atOperator ",") || (← atOperator ">") then return (before, false)
    let one ← inner.tokens .bound
    if ← atOperator "+" then return (before ++ one ++ (← operator "+"), true)
    return (before ++ one, false)) []

/-- Takes an argument in angle brackets: a lifetime, a constant, a type, or a name that is given a constant,
a type or bounds. -/
def argument (inner : PhraseReader) : Reader Argument := do
  let s ← rest
  if s.startsWithLifetime && !(s.behind 2).startsWith "+" then
    return { tokens := ← lifetime, isLifetime := true }
  if let some constant ← constantArgument? inner then return { tokens := constant }
  let type ← inner (.type true)
  if type.form = .name then
    if ← atOperator "=" then
      let equals ← operator "="
      if let some constant ← constantArgument? inner then
        return { tokens := type.tokens ++ equals ++ constant }
      return { tokens := type.tokens ++ equals ++ (← inner.tokens (.type true)) }
    if ← atOperator ":" then
      let colon ← operator ":"
      return { tokens := type.tokens ++ colon ++ (← argumentBounds inner) }
  return { tokens := type.tokens }

/-- Takes arguments in angle brackets. -/
def angleArguments (inner : PhraseReader) : Reader Stream := do
  let opening ← operator "<"
  let args ← rounds (fun (before : List Argument) => do
    if ← atOperator ">" then return (before, false)
    let one ← argument inner
    if ← atOperator ">" then return (before ++ [one], false)
    let _ ← operator ","
    return (before ++ [{ one with comma := true }], true)) []
  return opening ++ writeArguments args ++ (← operator ">")

/-! ## Paths -/

/-- Where a path stands. In a value, two colons stand before arguments. -/
inductive PathPlace
  | type
  | value
  deriving DecidableEq

/-- A path that was read. -/
structure Path where
  tokens : Stream
  /-- Whether it is a single name, with arguments or without. -/
  isSingle : Bool
  /-- Whether it begins with a type in angle brackets. -/
  isQualified : Bool
  /-- Whether some name has arguments. -/
  hasArguments : Bool
  /-- Whether the last name has arguments. -/
  endsInArguments : Bool

/-- Whether arguments in angle brackets come next. -/
def startsArguments (place : PathPlace) (s : Stream) : Bool :=
  (place = .type && s.startsWith "<" && !s.startsWith "<=")
    || (s.startsWith "::" && (s.behind 2).startsWith "<" && !(s.behind 2).startsWith "<=")

/-- Takes a name of a path with its arguments; tells whether there are arguments. -/
def segment (inner : PhraseReader) (place : PathPlace) : Reader (Stream × Bool) := do
  match ← rest with
  | .word "super" :: _ | .word "self" :: _ | .word "crate" :: _ | .word "try" :: _ =>
    return (← anyWord, false)
  | s =>
    let first ← if s.startsWithWord "Self" then anyWord else name
    if startsArguments place (← rest) then
      let colons ← operator? "::"
      return (first ++ colons ++ (← angleArguments inner), true)
    return (first, false)

/-- Takes the further names of a path. Two colons before parentheses do not belong to it. -/
def furtherSegments (inner : PhraseReader) (place : PathPlace) (p : Path) : Reader Path :=
  rounds (fun (p : Path) => do
    let s ← rest
    if s.startsWith "::" && !(s.behind 2).startsWithGroup .paren then
      let colons ← operator "::"
      let (tokens, args) ← segment inner place
      return ({ p with
        tokens := p.tokens ++ colons ++ tokens, isSingle := false
        hasArguments := p.hasArguments || args, endsInArguments := args }, true)
    return (p, false)) p

/-- Takes a path that is not qualified. -/
def plainPath (inner : PhraseReader) (place : PathPlace) : Reader Path := do
  let root ← operator? "::"
  let (tokens, args) ← segment inner place
  furtherSegments inner place {
    tokens := root ++ tokens, isSingle := root.isEmpty, isQualified := false
    hasArguments := args, endsInArguments := args }

/-- Takes a path that begins with a type in angle brackets. -/
def qualifiedPath (inner : PhraseReader) (place : PathPlace) : Reader Path := do
  let opening ← operator "<"
  let self ← inner.tokens (.type true)
  let via ← if ← atWord "as" then
      pure ((← keyword "as") ++ (← plainPath inner .type).tokens)
    else pure []
  let closing ← operator ">"
  let colons ← operator "::"
  let (first, args) ← segment inner place
  rounds (fun (p : Path) => do
    if ← atOperator "::" then
      let colons ← operator "::"
      let (tokens, args) ← segment inner place
      return ({ p with
        tokens := p.tokens ++ colons ++ tokens
        hasArguments := p.hasArguments || args, endsInArguments := args }, true)
    return (p, false)) {
      tokens := opening ++ self ++ via ++ closing ++ colons ++ first, isSingle := false
      isQualified := true, hasArguments := args, endsInArguments := args }

/-- Takes a path. -/
def anyPath (inner : PhraseReader) (place : PathPlace) : Reader Path := do
  if ← atOperator "<" then qualifiedPath inner place else plainPath inner place

/-- Whether brackets follow a path and an exclamation mark. -/
def Path.isCalledLoudly (p : Path) (s : Stream) : Bool :=
  !p.isQualified && !p.hasArguments && s.startsWith "!" && !s.startsWith "!="

end SpecForest.Outline.Grammar

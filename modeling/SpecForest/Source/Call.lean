import SpecForest.Declaration
import SpecForest.Source.Literal

/-!
# Calls that declare

The calls of a source text that declare something, and their arguments: a label first, then bodies that
are function literals, table entries, and decorators, which are neither. A name may carry one of the
letters F, P and X, for focused and pending declarations, which changes nothing here.
-/

namespace SpecForest.Source

/-- What a call declares. -/
inductive CallKind
  | container
  | leaf
  | table
  | subtreeTable
  | entry
  deriving DecidableEq

/-- What a name declares, without a marker before it. -/
def plainKind? (name : String) : Option CallKind :=
  match name with
  | "Describe" | "Context" | "When" => some .container
  | "It" | "Specify" => some .leaf
  | "DescribeTable" => some .table
  | "DescribeTableSubtree" => some .subtreeTable
  | "Entry" => some .entry
  | _ => none

/-- A name without its marker. The marker is followed by a capital letter. -/
def baseName (name : String) : String :=
  match name.toList with
  | m :: c :: rest =>
    if (m == 'F' || m == 'P' || m == 'X') && c.isUpper then String.ofList (c :: rest) else name
  | _ => name

/-- What a token declares if it is called. -/
def Token.callKind? (t : Token) : Option CallKind :=
  if t.kind = .name then plainKind? (baseName t.text) else none

/-- The names of decorators. -/
def decorators : List String :=
  ["Label", "Offset", "FlakeAttempts", "MustPassRepeatedly", "NodeTimeout", "SpecTimeout",
    "GracePeriod", "Serial", "Ordered", "ContinueOnFailure", "OncePerOrdered", "Focus", "Pending",
    "SuppressProgressReporting", "PollProgressAfter", "PollProgressInterval", "EntryDescription"]

/-- Whether a token is the name of a decorator. -/
def Token.isDecorator (t : Token) : Bool :=
  t.kind == .name && decorators.contains t.text

/-- Whether an argument is a decorator: its name alone, or a call of it. -/
def isDecorator : List TokenTree → Bool
  | [.token t] => t.isDecorator
  | [.token t, .group _ _ .paren _] => t.isDecorator
  | _ => false

/-! ## Function literals -/

/-- What stands between the brackets of a function literal. -/
structure FunctionLiteral where
  params : List TokenTree
  body : List TokenTree

/-- The function literal that an argument is: the word, parameters, perhaps results, and a body. -/
def functionLiteral? : List TokenTree → Option FunctionLiteral
  | .token t :: .group _ _ .paren params :: rest =>
    if t.isName "func" then
      match rest.getLast? with
      | some (.group _ _ .brace body) => some ⟨params, body⟩
      | _ => none
    else none
  | _ => none

/-- Whether a parameter is the context that the runner supplies: a name and one of two types. -/
def isContextParam (param : List TokenTree) : Bool :=
  match TokenTree.allTokens param with
  | [] | [_] => false
  | _ :: type =>
    let text := String.join (type.map Token.text)
    text == "SpecContext" || text.endsWith ".SpecContext" || text == "context.Context"

/-- The number of arguments that a function literal takes from an entry. It is unknown if there is an
ellipsis anywhere among the parameters. -/
def FunctionLiteral.arity (f : FunctionLiteral) : Option Nat :=
  let pieces := splitArguments f.params
  if (TokenTree.allTokens f.params).any (·.kind == .ellipsis) then none
  else
    match pieces with
    | [] => some 0
    | first :: rest => some (if isContextParam first then rest.length else rest.length + 1)

/-! ## The arguments of a call -/

/-- The text of a value used as a label. -/
def labelText : Value → String
  | .str s => s
  | .expr s => s
  | v => v.text

/-- The label of a call: its first argument, or nothing. -/
def labelOf (args : List (List TokenTree)) : String :=
  match args with
  | [] => ""
  | first :: _ => labelText (readValue first)

/-- The function literal of a call: the first among the arguments behind the label. -/
def bodyOf? (args : List (List TokenTree)) : Option FunctionLiteral :=
  (args.drop 1).findSome? functionLiteral?

/-- The entry with a description and arguments, decorators left out. A description that is `nil` is
none. -/
def entryOf (description : List TokenTree) (params : List (List TokenTree)) : Entry :=
  let arguments := (params.filter fun p => !isDecorator p).map readValue
  match readValue description with
  | .nil => .unnamed arguments
  | v => { description := labelText v, arguments }

/-- The entry that an argument is: a call of the name alone, with at least a description. -/
def entry? : List TokenTree → Option Entry
  | [.token t, .group _ _ .paren inner] =>
    if t.callKind? = some .entry then
      match splitArguments inner with
      | [] => none
      | description :: params => some (entryOf description params)
    else none
  | _ => none

/-- The entries of a table: those among the arguments behind the label. -/
def entriesOf (args : List (List TokenTree)) : List Entry :=
  (args.drop 1).filterMap entry?

end SpecForest.Source

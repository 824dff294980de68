import SpecForest.Outline.Code
import SpecForest.Text.Escape

/-!
# Writing generated code

The tokens of generated code. Names and labels are written as they stand in the outline; numbers that the
generator adds carry the type of an index. Types and values are written as the language around the outline
writes them, and bodies keep the spacing of their source.
-/

namespace SpecForest.Outline
open Text

/-! ## Pieces -/

/-- A punctuation character that stands alone. -/
def mark (c : Char) : Tree := .punct c .alone

/-- The same character twice, as one operator. -/
def twice (c : Char) : Stream := [.punct c .joint, .punct c .alone]

/-- A path from the root of all paths. -/
def path (names : List String) : Stream :=
  names.flatMap fun name => twice ':' ++ [.word name]

/-- A path into the library that the code calls. -/
def libraryPath (names : List String) : Stream := path ("spectree" :: names)

/-- Streams with commas between them. -/
def commaSeparated : List Stream → Stream
  | [] => []
  | [s] => s
  | s :: t :: rest => s ++ mark ',' :: commaSeparated (t :: rest)

/-- A call with arguments. -/
def call (function : Stream) (arguments : List Stream) : Stream :=
  function ++ [.group .paren (commaSeparated arguments)]

/-- A call with arguments, with a comma behind the last. -/
def callWithComma (function : Stream) (arguments : List Stream) : Stream :=
  function ++ [.group .paren (commaSeparated arguments ++ [mark ','])]

/-- A method call that goes on behind an expression. -/
def method (name : String) (arguments : List Stream) : Stream :=
  call [mark '.', .word name] arguments

/-- A list of elements, made by a maker that is called with an exclamation mark. -/
def listOf (maker : Stream) (elements : List Stream) : Stream :=
  maker ++ [mark '!', .group .bracket (commaSeparated elements)]

/-- The type of lists over a type. -/
def listType (element : Stream) : Stream :=
  path ["std", "vec", "Vec"] ++ mark '<' :: element ++ [mark '>']

/-- A block. -/
def block (inner : Stream) : Stream := [.group .brace inner]

/-- A typed local definition. -/
def definition (name : String) (type value : Stream) : Stream :=
  [.word "let", .word name, mark ':'] ++ type ++ mark '=' :: value ++ [mark ';']

/-- A number that counts or indexes. -/
def sizeLiteral (n : Nat) : Stream := [.literal (toString n ++ "usize")]

/-- A string literal that the generator adds. -/
def textLiteral (s : String) : Stream := [.literal (literalText s)]

/-- A string literal of the outline. -/
def StringLiteral.emit (l : StringLiteral) : Stream := [.literal l.source]

/-! ## Parts of declarations -/

/-- The arguments that a body gets. -/
def argumentsName : String := "__spectree_args"

/-- The record that the body of a table of subtrees fills. -/
def contextName : String := "__spectree_ctx"

/-- The type of declarations. -/
def declarationType : Stream := libraryPath ["Declaration"]

/-- The type of values. -/
def valueType : Stream := libraryPath ["Value"]

/-- The arguments as a typed parameter. -/
def argumentsParam : Stream := [.word argumentsName, mark ':', mark '&', .group .bracket valueType]

/-- The record as a typed parameter. -/
def contextParam : Stream :=
  [.word contextName, mark ':', mark '&', .word "mut"] ++ libraryPath ["Context"]

/-- The argument at an index. -/
def argumentAt (i : Nat) : Stream := [.word argumentsName, .group .bracket (sizeLiteral i)]

/-- A function without parameters. -/
def thunk (body : Stream) : Stream := twice '|' ++ body

/-- A function with parameters. -/
def function (params : List Stream) (body : Stream) : Stream :=
  mark '|' :: commaSeparated params ++ mark '|' :: block body

/-- How the message of a failed binding is made up. -/
def bindingFormat : String :=
  "\"table \x7b:?\x7d: argument \x7b\x7d (`\x7b\x7d`) is not a `\x7b\x7d`: \x7b\x7d\""

/-- A binding, as a definition that may go unused. -/
def Binding.emit (lang : Language) (b : Binding) : Stream :=
  let type := lang.types.write b.param.type
  let failure : Stream := [.word "panic", mark '!', .group .paren (commaSeparated
    [[.literal bindingFormat], b.table.emit, sizeLiteral b.index, textLiteral b.param.name,
      textLiteral (lang.typeText b.param.type), argumentAt b.index])]
  let read := mark '<' :: type ++ .word "as" :: libraryPath ["FromValue"] ++ mark '>' :: twice ':'
    ++ call [.word "from_value"] [mark '&' :: argumentAt b.index]
  [mark '#', .group .bracket [.word "allow", .group .paren [.word "unused_variables"]]]
    ++ definition b.param.name type (read ++ method "unwrap_or_else" [thunk failure])

/-- Bindings one after the other. -/
def emitBindings (lang : Language) (bs : List Binding) : Stream := bs.flatMap (Binding.emit lang)

/-- The unit of work of a leaf. -/
def UnitCode.emit (lang : Language) : UnitCode → Stream
  | plain body => call (libraryPath ["UnitOfWork", "new"]) [thunk (block body)]
  | bound bindings body => call (libraryPath ["UnitOfWork", "with_args"])
    [function [argumentsParam] (emitBindings lang bindings ++ body)]

/-- The arguments of a row. -/
def emitArguments (lang : Language) (values : List Stream) : Stream :=
  block (definition "values" (listType valueType)
      (listOf (path ["std", "vec"]) (values.map fun v => call (valueType ++ path ["from"])
        [lang.values.write v]))
    ++ call (libraryPath ["Arguments", "from"]) [[.word "values"]])

/-- A row, as an addition to a table. -/
def Row.emit (lang : Language) (r : Row) : Stream :=
  let entry := match r.label with
    | some label => call (libraryPath ["Entry", "new"]) [label.emit, emitArguments lang r.values]
    | none => call (libraryPath ["Entry", "unnamed"]) [emitArguments lang r.values]
  method "with_entry" [entry]

/-- A table with its number of parameters and its rows. -/
def emitTable (lang : Language) (name : StringLiteral) (arity : Nat) (rows : List Row) (kind : String)
    (body : Stream) : Stream :=
  call (declarationType ++ path ["Table"])
    [callWithComma (libraryPath ["TableSpec", "new"])
        [name.emit, call (libraryPath ["TableBody", kind]) [body]]
      ++ method "with_arity" [sizeLiteral arity] ++ rows.flatMap (Row.emit lang)]

/-- A list of declarations. -/
def declarationList (cs : List Stream) : Stream := listOf [.word "vec"] cs

/-! ## Declarations -/

mutual

/-- The tokens of a declaration's code. -/
def Code.emit (lang : Language) : Code → Stream
  | .container name children =>
    call (declarationType ++ path ["container"]) [name.emit, declarationList (emitAll lang children)]
  | .leaf name unit => call (declarationType ++ path ["leaf"]) [name.emit, unit.emit lang]
  | .table name arity rows bindings body =>
    emitTable lang name arity rows "Leaves"
      (callWithComma (libraryPath ["UnitOfWork", "with_args"])
        [function [argumentsParam] (emitBindings lang bindings ++ body)])
  | .subtree name arity rows bindings children =>
    emitTable lang name arity rows "Subtree"
      (callWithComma (libraryPath ["SubtreeBody", "new"])
        [function [argumentsParam, contextParam]
          (emitBindings lang bindings
            ++ definition "children" (listType declarationType) (declarationList (emitAll lang children))
            ++ .word contextName :: method "extend" [[.word "children"]] ++ [mark ';'])])

/-- The tokens of each declaration's code. -/
def emitAll (lang : Language) : List Code → List Stream
  | [] => []
  | c :: rest => c.emit lang :: emitAll lang rest

end

/-- An expression for the declarations of an outline. -/
def Language.emitDeclarations (lang : Language) (cs : List Code) : Stream :=
  block (definition "declarations" (listType declarationType) (declarationList (emitAll lang cs))
    ++ [.word "declarations"])

/-- An expression for the resolved tree of an outline. -/
def Language.emitResolved (lang : Language) (cs : List Code) : Stream :=
  call (libraryPath ["build_resolved"]) [lang.emitDeclarations cs]

end SpecForest.Outline

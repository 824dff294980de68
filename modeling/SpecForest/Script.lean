import SpecForest.Declaration

/-!
# Recording scripts

A script is a list of steps that record declarations one after the other. Steps in the body of a
subtree table can depend on the arguments of the entry for which they run, and a step can fail: then
nothing after it is recorded, and a container whose body fails is not recorded either.
-/

namespace SpecForest

/-- What has been recorded, and the message if recording ended early. -/
structure Recording where
  declarations : List Declaration := []
  failure : Option String := none

/-- How a leaf of a script logs that it ran. -/
inductive LeafStyle
  /-- The log line is a word and the label. -/
  | named (word : String)
  /-- The log line also shows the arguments. -/
  | withArguments (word : String)
  /-- Nothing is logged. -/
  | silent
  deriving DecidableEq

/-- How the declarations of a subtree table come about. -/
inductive SubtreeStyle
  /-- The steps run for each entry, with its arguments. -/
  | recorded
  /-- The steps run once, without arguments, and what they record is replayed. -/
  | replayed
  deriving DecidableEq

/-- A table of a script: its label, its number of arguments, its rows, and whether it is recorded or
given up before it is complete. -/
structure ScriptTable where
  label : String
  arity : Option Nat
  entries : List Entry
  complete : Bool

/-- One step of a script. -/
inductive Step
  | container (label : String) (body : List Step)
  | leaf (style : LeafStyle) (label : String) (failure : Option String)
  | table (table : ScriptTable) (failure : Option String)
  | subtree (table : ScriptTable) (style : SubtreeStyle) (body : List Step)
  /-- A leaf whose label shows the current arguments. -/
  | echo (label : String)
  /-- As many numbered leaves as the argument at an index says. -/
  | repeated (index : Nat) (label : String)
  /-- Fails, if the first argument equals the condition or there is no condition. The message is
  missing if what was thrown is no text. -/
  | fail (message : Option String) (condition : Option Value)

namespace LeafStyle

/-- The unit of work of a leaf. -/
def work (style : LeafStyle) (label : String) (failure : Option String) : Work := fun args =>
  match style with
  | named word => { log := [word ++ " " ++ label], failure }
  | withArguments word => { log := [word ++ " " ++ label ++ ": " ++ Arguments.text args], failure }
  | silent => {}

end LeafStyle

/-- The most leaves that one step records. -/
def repeatLimit : Nat := 1000

/-- The count that a value stands for. -/
def countOf? (v : Value) : Option Nat :=
  match v with
  | .int n => if 0 ≤ n.toInt ∧ n.toInt ≤ repeatLimit then some n.toInt.toNat else none
  | _ => none

/-- The numbered leaves of a repeating step. -/
def numberedLeaves (label : String) (n : Nat) : List Declaration :=
  (List.range n).map fun i => .leaf (label ++ " " ++ toString i) fun _ => { log := ["repeat"] }

/-- Whether a failing step fails for some arguments. -/
def meetsCondition (condition : Option Value) (args : Arguments) : Bool :=
  match condition with
  | none => true
  | some v =>
    match args with
    | [] => false
    | a :: _ => a.equal v

mutual

/-- What one step records when it runs with some arguments. -/
def Step.record (args : Arguments) : Step → Recording
  | .container label body =>
    let inner := recordAll args body
    match inner.failure with
    | some message => { failure := some message }
    | none => { declarations := [.container label inner.declarations] }
  | .leaf style label failure => { declarations := [.leaf label (style.work label failure)] }
  | .table t failure =>
    if t.complete then
      let work := (LeafStyle.withArguments "row").work t.label failure
      { declarations := [.table t.label t.arity t.entries (.leaves work)] }
    else {}
  | .subtree t style body =>
    match style with
    | .replayed =>
      let inner := recordAll [] body
      match inner.failure with
      | some message => { failure := some message }
      | none => { declarations := [.table t.label t.arity t.entries (.replay inner.declarations)] }
    | .recorded =>
      if t.complete then
        { declarations := [.table t.label t.arity t.entries
            (.record (fun args => (recordAll args body).declarations)
              (fun args => (recordAll args body).failure))] }
      else {}
  | .echo label =>
    { declarations := [.leaf (label ++ ": " ++ Arguments.text args) fun _ => { log := ["echo"] }] }
  | .repeated index label =>
    match args[index]?.bind countOf? with
    | some n => { declarations := numberedLeaves label n }
    | none => { failure := some ("argument " ++ toString index ++ " is not a count") }
  | .fail message condition =>
    if meetsCondition condition args then { failure := some (message.getD "unknown panic") } else {}

/-- What the steps record, up to the first that fails. -/
def recordAll (args : Arguments) : List Step → Recording
  | [] => {}
  | step :: rest =>
    let first := step.record args
    match first.failure with
    | some _ => first
    | none =>
      let after := recordAll args rest
      { declarations := first.declarations ++ after.declarations, failure := after.failure }

end

/-- The table that a step describes, if it is a step for a table. -/
def Step.table? : Step → Option ScriptTable
  | .table t _ => some t
  | .subtree t _ _ => some t
  | _ => none

/-- The message with which describing a table fails before anything looks at its rows: the template of a
replayed table is recorded at once, and without arguments. -/
def Step.templateFailure : Step → Option String
  | .subtree _ .replayed body => (recordAll [] body).failure
  | _ => none

/-- How many declarations have been recorded before the first step and after each step, as long as
none fails. -/
def recordedSizes (args : Arguments) (size : Nat) : List Step → List Nat
  | [] => [size]
  | step :: rest =>
    size :: recordedSizes args (size + (step.record args).declarations.length) rest

end SpecForest

import SpecForest.Declaration
import SpecForest.Outline.Code
import SpecForest.Text.Escape

/-!
# What generated code does

An outline is written inside a host language, which knows what its types, values and bodies mean. Given a
host, generated code is a list of declarations. A body runs with the data that its bindings define; if one
of them fails, the body does not run, and a table of subtrees declares nothing for that entry. Rows are
evaluated where their table stands, with the data of the table of subtrees around it.
-/

namespace SpecForest.Outline
open Text

/-- Data by name, in the order of their definitions. -/
abbrev Environment (α : Type) := List (String × α)

/-- The datum of a name. The last definition counts. -/
def Environment.get? {α : Type} (env : Environment α) (name : String) : Option α :=
  env.reverse.lookup name

/-- What an outline leaves to the language around it. -/
structure Host where
  /-- What names stand for. -/
  Datum : Type
  /-- A type as text. -/
  typeText : Stream → String
  /-- A value read at a type, if it has that type. -/
  read? : Stream → Value → Option Datum
  /-- The value of an element of a row. -/
  value : Environment Datum → Stream → Value
  /-- What a body does. -/
  run : Environment Datum → Stream → Outcome

/-- Why a binding fails. -/
inductive BindingError
  /-- There is no argument at the index. -/
  | missing (index count : Nat)
  /-- The argument has another type. -/
  | mismatch (binding : Binding) (found : Value)

/-- The text of a failed binding. -/
def BindingError.message (host : Host) : BindingError → String
  | missing index count =>
    "index out of bounds: the len is " ++ toString count ++ " but the index is " ++ toString index
  | mismatch b found =>
    "table " ++ escapeText b.table.value ++ ": argument " ++ toString b.index ++ " (`" ++ b.param.name
      ++ "`) is not a `" ++ host.typeText b.param.type ++ "`: " ++ found.text

/-- The definition that a binding makes. -/
def Binding.define (host : Host) (args : Arguments) (b : Binding) :
    Except BindingError (String × host.Datum) :=
  match args[b.index]? with
  | none => .error (.missing b.index args.length)
  | some v =>
    match host.read? b.param.type v with
    | some datum => .ok (b.param.name, datum)
    | none => .error (.mismatch b v)

/-- The definitions that bindings make, or the error of the first that fails. -/
def defineAll (host : Host) (args : Arguments) :
    List Binding → Except BindingError (Environment host.Datum)
  | [] => .ok []
  | b :: rest =>
    match b.define host args with
    | .error e => .error e
    | .ok found => (defineAll host args rest).map (found :: ·)

/-- The unit of work of a body behind bindings. -/
def boundWork (host : Host) (bindings : List Binding) (body : Stream) : Work := fun args =>
  match defineAll host args bindings with
  | .error e => { failure := some (e.message host) }
  | .ok env => host.run env body

/-- The unit of work of a leaf. -/
def UnitCode.work (host : Host) : UnitCode → Work
  | plain body => fun _ => host.run [] body
  | bound bindings body => boundWork host bindings body

/-- The entry that a row makes. -/
def Row.entry (host : Host) (env : Environment host.Datum) (r : Row) : Entry :=
  let arguments := r.values.map (host.value env)
  match r.label with
  | some label => { description := label.value, arguments }
  | none => .unnamed arguments

mutual

/-- The declaration that code makes. -/
def Code.declare (host : Host) (env : Environment host.Datum) : Code → Declaration
  | .container name children => .container name.value (declareAll host env children)
  | .leaf name unit => .leaf name.value (unit.work host)
  | .table name arity rows bindings body =>
    .table name.value (some arity) (rows.map (Row.entry host env))
      (.leaves (boundWork host bindings body))
  | .subtree name arity rows bindings children =>
    .table name.value (some arity) (rows.map (Row.entry host env))
      (.record
        (fun args =>
          match defineAll host args bindings with
          | .error _ => []
          | .ok inner => declareAll host inner children)
        (fun args =>
          match defineAll host args bindings with
          | .error e => some (e.message host)
          | .ok _ => none))

/-- The declarations that code makes. -/
def declareAll (host : Host) (env : Environment host.Datum) : List Code → List Declaration
  | [] => []
  | c :: rest => c.declare host env :: declareAll host env rest

end

/-- The declarations of an outline, whose outermost rows see some data. -/
def declarations (host : Host) (env : Environment host.Datum) (items : List Item) :
    List Declaration :=
  declareAll host env (generateAll none items)

end SpecForest.Outline

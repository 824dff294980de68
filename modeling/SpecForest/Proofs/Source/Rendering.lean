import SpecForest.Proofs.Source.Spelling
import SpecForest.Source.Scan

/-!
# Written suites

A suite can be written as source text in many ways: with any of the names that declare a thing, marked and
qualified or not, with any spelling of its strings, with decorators and with commas at the end of lists. A
*page* is a suite together with all these choices. It has a text and it has declarations; what
the choices leave open is not in the declarations.

The suites that have a page are told apart on their own: they are those without work, without recorded
bodies, and with arguments that are literals.
-/

namespace SpecForest.Source

/-! ## Names -/

/-- Whether characters can be read as one name. -/
def isNameText : List Char → Bool
  | [] => false
  | c :: cs => startsName c && cs.all continuesName

/-- A name. -/
structure Identifier where
  text : List Char
  isName : isNameText text = true

/-- The letters in front of the name of a focused or pending declaration. -/
inductive Marker
  | focused
  | pending
  | excluded

def Marker.letter : Marker → Char
  | focused => 'F'
  | pending => 'P'
  | excluded => 'X'

/-- The names that declare a thing. -/
def declaringNames : CallKind → List String
  | .container => ["Describe", "Context", "When"]
  | .leaf => ["It", "Specify"]
  | .table => ["DescribeTable"]
  | .subtreeTable => ["DescribeTableSubtree"]
  | .entry => ["Entry"]

/-- The name of a call that declares a thing, perhaps with a marker. -/
structure CallName (k : CallKind) where
  marker : Option Marker
  word : String
  mem : word ∈ declaringNames k

def CallName.text {k : CallKind} (name : CallName k) : List Char :=
  (name.marker.map Marker.letter).toList ++ name.word.toList

/-- A package name and a dot, or nothing. -/
def qualifierText : Option Identifier → List Char
  | none => []
  | some package => package.text ++ ['.']

/-! ## Strings and literal arguments -/

/-- The ways to write a string: between double quotes with every character spelled, or between backquotes if
it can stand there. -/
inductive Writes : String → List Char → Prop
  | interpreted {s : String} {body : List Char} (spells : SpellsAll '"' s.toList body) :
      Writes s ('"' :: (body ++ ['"']))
  | raw {s : String} (no_quote : '\x60' ∉ s.toList) (no_return : '\r' ∉ s.toList) :
      Writes s ('\x60' :: (s.toList ++ ['\x60']))

/-- A string and one way to write it. -/
structure StringText where
  value : String
  text : List Char
  writes : Writes value text

/-- A literal argument. The least integer has no literal. -/
inductive Argument
  | int (n : Int64) (above : Int64.minValue < n)
  | str (s : StringText)
  | bool (b : Bool)
  | nil

namespace Argument

def value : Argument → Value
  | int n _ => .int n
  | str s => .str s.value
  | bool b => .bool b
  | nil => .nil

def text : Argument → List Char
  | int n _ => (toString n.toInt).toList
  | str s => s.text
  | bool true => "true".toList
  | bool false => "false".toList
  | nil => "nil".toList

end Argument

/-! ## Lists of arguments -/

/-- Texts with a comma and a space between them, and perhaps a comma behind the last. -/
def commaSeparated (trailing : Bool) : List (List Char) → List Char
  | [] => []
  | [last] => last ++ if trailing then [','] else []
  | first :: rest => first ++ ',' :: ' ' :: commaSeparated trailing rest

/-- A call of a name. -/
def callText (name : List Char) (args : List (List Char)) (trailing : Bool) : List Char :=
  name ++ '(' :: (commaSeparated trailing args ++ [')'])

/-! ## Decorators -/

mutual

/-- An expression in the arguments of a decorator: a literal, a name with selectors, or a call of one. -/
inductive Operand
  | literal (a : Argument)
  | name (first : Identifier) (selectors : List Identifier)
  | call (first : Identifier) (selectors : List Identifier) (args : OperandList) (trailing : Bool)

/-- A list of expressions. -/
inductive OperandList
  | nil
  | cons (first : Operand) (rest : OperandList)

end

/-- A name with selectors. -/
def selectedText (first : Identifier) (selectors : List Identifier) : List Char :=
  first.text ++ selectors.flatMap fun x => '.' :: x.text

mutual

def Operand.text : Operand → List Char
  | .literal a => a.text
  | .name first selectors => selectedText first selectors
  | .call first selectors args trailing => callText (selectedText first selectors) args.texts trailing

def OperandList.texts : OperandList → List (List Char)
  | .nil => []
  | .cons first rest => first.text :: rest.texts

end

/-- A decorator: its name alone, or a call of it. -/
structure Decorator where
  name : String
  mem : name ∈ decorators
  args : Option OperandList
  trailing : Bool

def Decorator.text (d : Decorator) : List Char :=
  match d.args with
  | none => d.name.toList
  | some args => callText d.name.toList args.texts d.trailing

/-! ## Entries -/

/-- What stands behind the description of an entry. -/
inductive RowItem
  | argument (a : Argument)
  | decorator (d : Decorator)

namespace RowItem

def text : RowItem → List Char
  | argument a => a.text
  | decorator d => d.text

def value? : RowItem → Option Value
  | argument a => some a.value
  | decorator _ => none

end RowItem

/-- An entry. Without a description it is described by its arguments. -/
structure Row where
  name : CallName .entry
  description : Option StringText
  items : List RowItem
  trailing : Bool

namespace Row

def descriptionText (r : Row) : List Char :=
  match r.description with
  | some s => s.text
  | none => "nil".toList

def text (r : Row) : List Char :=
  callText r.name.text (r.descriptionText :: r.items.map RowItem.text) r.trailing

def entry (r : Row) : Entry :=
  match r.description with
  | some s => { description := s.value, arguments := r.items.filterMap RowItem.value? }
  | none => .unnamed (r.items.filterMap RowItem.value?)

end Row

/-- What stands behind the body of a table. -/
inductive TableItem
  | row (r : Row)
  | decorator (d : Decorator)

namespace TableItem

def text : TableItem → List Char
  | row r => r.text
  | decorator d => d.text

def entry? : TableItem → Option Entry
  | row r => some r.entry
  | decorator _ => none

end TableItem

/-! ## Statements -/

/-- The call that declares a table. -/
def tableKind (subtree : Bool) : CallKind :=
  if subtree then .subtreeTable else .table

mutual

/-- A statement of a page, with all choices that its text leaves open. -/
inductive Statement
  | container (qualifier : Option Identifier) (name : CallName .container) (label : StringText)
      (before : List Decorator) (children : List Statement) (after : List Decorator) (trailing : Bool)
  | leaf (qualifier : Option Identifier) (name : CallName .leaf) (label : StringText) (trailing : Bool)
  | table (qualifier : Option Identifier) (subtree : Bool) (name : CallName (tableKind subtree))
      (label : StringText) (before : List Decorator) (body : WrittenBody) (items : List TableItem)
      (trailing : Bool)

/-- The body of a table: a name, or a function literal with some parameters. What stands in it counts for a
subtree table only. -/
inductive WrittenBody
  | named (f : Identifier)
  | function (params : List Identifier) (children : List Statement)

end

/-- The parameters of a function literal. The type behind the last is that of all. -/
def paramTexts : List Identifier → List (List Char)
  | [] => []
  | [last] => [last.text ++ " int".toList]
  | first :: rest => first.text :: paramTexts rest

/-- A function literal with the text of its body. -/
def functionText (params : List Identifier) (body : List Char) : List Char :=
  callText "func".toList (paramTexts params) false ++ ' ' :: '\x7b' :: (body ++ ['\x7d'])

mutual

def Statement.text : Statement → List Char
  | .container qualifier name label before children after trailing =>
    callText (qualifierText qualifier ++ name.text)
      (label.text :: before.map Decorator.text ++
        functionText [] (linesText children ++ ['\n']) :: after.map Decorator.text)
      trailing
  | .leaf qualifier name label trailing =>
    callText (qualifierText qualifier ++ name.text) [label.text, functionText [] []] trailing
  | .table qualifier _ name label before body items trailing =>
    callText (qualifierText qualifier ++ name.text)
      (label.text :: before.map Decorator.text ++ body.text :: items.map TableItem.text) trailing

def WrittenBody.text : WrittenBody → List Char
  | .named f => f.text
  | .function params children => functionText params (linesText children ++ ['\n'])

/-- Statements, each behind a line break. -/
def linesText : List Statement → List Char
  | [] => []
  | s :: rest => '\n' :: (s.text ++ linesText rest)

end

/-- The text of a page: its statements, divided by line breaks. -/
def pageText : List Statement → List Char
  | [] => []
  | s :: rest => s.text ++ linesText rest

example : pageText
    [.container (some ⟨"g".toList, by decide⟩) ⟨some .pending, "When", by decide⟩
      ⟨"a", _, .raw (by decide) (by decide)⟩ []
      [.leaf none ⟨none, "It", by decide⟩ ⟨"b", _, .raw (by decide) (by decide)⟩ false]
      [⟨"Serial", by decide, none, false⟩] true] =
    "g.PWhen(`a`, func() \x7b\nIt(`b`, func() \x7b\x7d)\n\x7d, Serial,)".toList := by
  decide

/-! ## What a page declares -/

/-- The arity that the body of a table shows. -/
def WrittenBody.arity : WrittenBody → Option Nat
  | .named _ => none
  | .function params _ => some params.length

mutual

def Statement.declaration : Statement → Declaration
  | .container _ _ label _ children _ _ => .container label.value (pageDeclarations children)
  | .leaf _ _ label _ => .leaf label.value .noop
  | .table _ subtree _ label _ body items _ =>
    .table label.value body.arity (items.filterMap TableItem.entry?)
      (if subtree then .replay body.template else .leaves .noop)

def WrittenBody.template : WrittenBody → List Declaration
  | .named _ => []
  | .function _ children => pageDeclarations children

def pageDeclarations : List Statement → List Declaration
  | [] => []
  | s :: rest => s.declaration :: pageDeclarations rest

end

/-! ## What can be written -/

/-- The values that a literal argument can have. -/
def HasLiteral : Value → Prop
  | .int n => Int64.minValue < n
  | .str _ => True
  | .bool _ => True
  | .nil => True
  | .float _ => False
  | .expr _ => False

/-- Every argument of every entry can be written. -/
def HaveLiterals (entries : List Entry) : Prop :=
  ∀ e ∈ entries, ∀ v ∈ e.arguments, HasLiteral v

/-- The declarations that can be written: without work of their own, without recorded bodies, and with
literal arguments. A template can be written only between the braces of a function literal, which shows an
arity. -/
inductive Writable : Declaration → Prop
  | container {label : String} {body : List Declaration} (body_writable : ∀ d ∈ body, Writable d) :
      Writable (.container label body)
  | leaf {label : String} : Writable (.leaf label .noop)
  | leaves {label : String} {arity : Option Nat} {entries : List Entry} (literals : HaveLiterals entries) :
      Writable (.table label arity entries (.leaves .noop))
  | replay {label : String} {n : Nat} {entries : List Entry} {template : List Declaration}
      (literals : HaveLiterals entries) (template_writable : ∀ d ∈ template, Writable d) :
      Writable (.table label (some n) entries (.replay template))
  | replay_nothing {label : String} {entries : List Entry} (literals : HaveLiterals entries) :
      Writable (.table label none entries (.replay []))

theorem exists_stringText (s : String) : ∃ t : StringText, t.value = s := by
  obtain ⟨body, hbody⟩ := exists_spellsAll '"' s.toList
  exact ⟨⟨s, _, .interpreted hbody⟩, rfl⟩

theorem exists_argument {v : Value} (h : HasLiteral v) : ∃ a : Argument, a.value = v := by
  cases v with
  | int n => exact ⟨.int n h, rfl⟩
  | float x => exact h.elim
  | str s =>
    obtain ⟨t, rfl⟩ := exists_stringText s
    exact ⟨.str t, rfl⟩
  | bool b => exact ⟨.bool b, rfl⟩
  | nil => exact ⟨.nil, rfl⟩
  | expr source => exact h.elim

theorem exists_rowItems {vs : List Value} (h : ∀ v ∈ vs, HasLiteral v) :
    ∃ items : List RowItem, items.filterMap RowItem.value? = vs := by
  induction vs with
  | nil => exact ⟨[], rfl⟩
  | cons v vs ih =>
    obtain ⟨items, hitems⟩ := ih fun w hw => h w (List.mem_cons_of_mem v hw)
    obtain ⟨a, rfl⟩ := exists_argument (h v List.mem_cons_self)
    exact ⟨.argument a :: items, congrArg (a.value :: ·) hitems⟩

theorem exists_row {e : Entry} (h : ∀ v ∈ e.arguments, HasLiteral v) : ∃ r : Row, r.entry = e := by
  obtain ⟨description, arguments⟩ := e
  obtain ⟨items, rfl⟩ := exists_rowItems h
  obtain ⟨t, rfl⟩ := exists_stringText description
  exact ⟨⟨⟨none, "Entry", by decide⟩, some t, items, false⟩, rfl⟩

theorem exists_tableItems {entries : List Entry} (h : HaveLiterals entries) :
    ∃ items : List TableItem, items.filterMap TableItem.entry? = entries := by
  induction entries with
  | nil => exact ⟨[], rfl⟩
  | cons e entries ih =>
    obtain ⟨items, hitems⟩ := ih fun f hf => h f (List.mem_cons_of_mem e hf)
    obtain ⟨r, rfl⟩ := exists_row (h e List.mem_cons_self)
    exact ⟨.row r :: items, congrArg (r.entry :: ·) hitems⟩

theorem exists_page_of_mem {ds : List Declaration} (h : ∀ d ∈ ds, ∃ s : Statement, s.declaration = d) :
    ∃ page, pageDeclarations page = ds := by
  induction ds with
  | nil => exact ⟨[], by rw [pageDeclarations]⟩
  | cons d ds ih =>
    obtain ⟨page, hpage⟩ := ih fun e he => h e (List.mem_cons_of_mem d he)
    obtain ⟨s, hs⟩ := h d List.mem_cons_self
    exact ⟨s :: page, by rw [pageDeclarations, hpage, hs]⟩

/-- A body with any template and any arity that can be written together. -/
theorem exists_writtenBody (arity : Option Nat) {template : List Declaration}
    (h : ∃ page, pageDeclarations page = template) (hnone : arity = none → template = []) :
    ∃ body : WrittenBody, body.arity = arity ∧ body.template = template := by
  cases arity with
  | none => exact ⟨.named ⟨['f'], by decide⟩, rfl, by rw [WrittenBody.template, hnone rfl]⟩
  | some n =>
    obtain ⟨page, hpage⟩ := h
    refine ⟨.function (List.replicate n ⟨['p'], by decide⟩) page, ?_, ?_⟩
    · rw [WrittenBody.arity, List.length_replicate]
    · rw [WrittenBody.template, hpage]

theorem exists_table (subtree : Bool) (label : String) {entries : List Entry} (h : HaveLiterals entries)
    (body : WrittenBody) :
    ∃ s : Statement, s.declaration = .table label body.arity entries
      (if subtree then .replay body.template else .leaves .noop) := by
  obtain ⟨t, rfl⟩ := exists_stringText label
  obtain ⟨items, rfl⟩ := exists_tableItems h
  have hname : Nonempty (CallName (tableKind subtree)) := by
    cases subtree with
    | false => exact ⟨⟨none, "DescribeTable", by decide⟩⟩
    | true => exact ⟨⟨none, "DescribeTableSubtree", by decide⟩⟩
  obtain ⟨name⟩ := hname
  exact ⟨.table none subtree name t [] body items false, by rw [Statement.declaration]⟩

/-- Every declaration that can be written has a statement. -/
theorem Writable.exists_statement {d : Declaration} (h : Writable d) :
    ∃ s : Statement, s.declaration = d := by
  induction h with
  | @container label body _ ih =>
    obtain ⟨page, rfl⟩ := exists_page_of_mem ih
    obtain ⟨t, rfl⟩ := exists_stringText label
    refine ⟨.container none ⟨none, "Describe", by decide⟩ t [] page [] false, ?_⟩
    rw [Statement.declaration]
  | @leaf label =>
    obtain ⟨t, rfl⟩ := exists_stringText label
    exact ⟨.leaf none ⟨none, "It", by decide⟩ t false, by rw [Statement.declaration]⟩
  | @leaves label arity entries literals =>
    have hempty : ∃ page, pageDeclarations page = [] := ⟨[], by rw [pageDeclarations]⟩
    obtain ⟨body, rfl, _⟩ := exists_writtenBody arity hempty fun _ => rfl
    exact exists_table false label literals body
  | @replay label n entries template literals _ ih =>
    obtain ⟨body, hbody, rfl⟩ := exists_writtenBody (some n) (exists_page_of_mem ih) (by simp)
    rw [← hbody]
    exact exists_table true label literals body
  | @replay_nothing label entries literals =>
    have hempty : ∃ page, pageDeclarations page = [] := ⟨[], by rw [pageDeclarations]⟩
    obtain ⟨body, hbody, htemplate⟩ := exists_writtenBody none hempty fun _ => rfl
    rw [← hbody, ← htemplate]
    exact exists_table true label literals body

theorem Argument.hasLiteral (a : Argument) : HasLiteral a.value := by
  cases a with
  | int n above => exact above
  | str s => trivial
  | bool b => trivial
  | nil => trivial

theorem Row.hasLiteral (r : Row) : ∀ v ∈ r.entry.arguments, HasLiteral v := by
  have hitems : ∀ v ∈ r.items.filterMap RowItem.value?, HasLiteral v := by
    intro v hv
    obtain ⟨i, _, hi⟩ := List.mem_filterMap.mp hv
    cases i with
    | argument a =>
      cases hi
      exact a.hasLiteral
    | decorator d => cases hi
  unfold Row.entry
  cases r.description with
  | none => exact hitems
  | some s => exact hitems

theorem haveLiterals_items (items : List TableItem) : HaveLiterals (items.filterMap TableItem.entry?) := by
  intro e he
  obtain ⟨i, _, hi⟩ := List.mem_filterMap.mp he
  cases i with
  | row r =>
    cases hi
    exact r.hasLiteral
  | decorator d => cases hi

mutual

/-- A statement declares nothing that cannot be written. -/
theorem Statement.writable (s : Statement) : Writable s.declaration := by
  cases s with
  | container qualifier name label before children after trailing =>
    exact .container (pageDeclarations_writable children)
  | leaf qualifier name label trailing => exact .leaf
  | table qualifier subtree name label before body items trailing =>
    rw [Statement.declaration]
    cases subtree with
    | false => exact .leaves (haveLiterals_items items)
    | true =>
      cases body with
      | named f => exact .replay_nothing (haveLiterals_items items)
      | function params children =>
        exact .replay (haveLiterals_items items) (pageDeclarations_writable children)

theorem pageDeclarations_writable (page : List Statement) : ∀ d ∈ pageDeclarations page, Writable d := by
  cases page with
  | nil => simp [pageDeclarations]
  | cons s rest =>
    intro d hd
    rw [pageDeclarations] at hd
    rcases List.mem_cons.mp hd with rfl | hd
    · exact s.writable
    · exact pageDeclarations_writable rest d hd

end

end SpecForest.Source

import SpecForest.Source.Scan

/-!
# The scan over a table of tokens

A second account of the scan, without trees. The tokens stand in one table; a bracket knows the index of
its partner, and the text of a token is cut out of the source by its first and its last byte. Every stretch
of the source is a pair of indices. Nothing here is total by its form: an index can be out of range, a
difference can be negative, a cut can fall between the bytes of a character, a number can leave its range,
and a loop can go on for ever. Each operation that can fail says so, and every loop spends fuel.
-/

namespace SpecForest.Source

/-- Why an operation cannot be done. -/
inductive Stuck
  | index
  | difference
  | slice
  | overflow
  | fuel
  deriving DecidableEq

/-- What a computation gives, unless it gets stuck. -/
abbrev Checked := Except Stuck

/-! ## Operations that can fail -/

/-- The element at an index. -/
def elementAt {α : Type} (xs : List α) (i : Nat) : Checked α :=
  match xs[i]? with
  | some x => .ok x
  | none => .error .index

/-- The elements from one index up to another. -/
def elementsIn {α : Type} (xs : List α) (start stop : Nat) : Checked (List α) :=
  if start ≤ stop ∧ stop ≤ xs.length then .ok ((xs.drop start).take (stop - start))
  else .error .index

/-- A difference of numbers that cannot be negative. -/
def difference (m n : Nat) : Checked Nat :=
  if n ≤ m then .ok (m - n) else .error .difference

/-- The characters behind a number of bytes, unless that number ends within a character. -/
def dropBytes? (n : Nat) : List Char → Option (List Char)
  | [] => if n = 0 then some [] else none
  | c :: cs =>
    if n = 0 then some (c :: cs)
    else if c.utf8Size ≤ n then dropBytes? (n - c.utf8Size) cs
    else none

/-- The characters in a number of bytes, unless that number ends within a character. -/
def takeBytes? (n : Nat) : List Char → Option (List Char)
  | [] => if n = 0 then some [] else none
  | c :: cs =>
    if n = 0 then some []
    else if c.utf8Size ≤ n then (takeBytes? (n - c.utf8Size) cs).map (c :: ·)
    else none

/-- The text between two bytes. -/
def slice (cs : List Char) (start stop : Nat) : Checked (List Char) :=
  if start ≤ stop then
    match (dropBytes? start cs).bind (takeBytes? (stop - start)) with
    | some text => .ok text
    | none => .error .slice
  else .error .slice

/-- The negative of an integer. The least one has none. -/
def negate (n : Int64) : Checked Int64 :=
  if n = Int64.minValue then .error .overflow else .ok (-n)

/-! ## Escapes -/

/-- A number in 32 bits. -/
def inWord (n : Nat) : Checked Nat :=
  if n ≤ 0xFFFFFFFF then .ok n else .error .overflow

/-- A number of digits, added to those that were read before, in 32 bits. -/
def wordDigits (base : Nat) : (count acc : Nat) → List Char → Checked (Option Nat)
  | 0, acc, _ => .ok (some acc)
  | _ + 1, _, [] => .ok none
  | count + 1, acc, c :: rest =>
    match digitValue? base c with
    | none => .ok none
    | some d => do wordDigits base count (← inWord ((← inWord (acc * base)) + d)) rest

/-- The character behind a backslash, with its code in 32 bits. -/
def wordEscape (quote : Char) : List Char → Checked (Except Fault (Char × Nat))
  | [] => .ok (.error .unterminatedEscape)
  | c :: rest =>
    match simpleEscape? quote c with
    | some d => .ok (.ok (d, 1))
    | none =>
      match codeEscape? c with
      | none => .ok (.error (.unknownEscape c))
      | some e => do
        match ← wordDigits e.base e.count e.first rest with
        | none => return .error .malformedEscape
        | some code =>
          match charOfCode? code with
          | none => return .error .invalidCodePoint
          | some d => return .ok (d, 1 + e.count)

/-! ## Numbers -/

/-- An integer with a sign or without one, if it is in range. -/
def signedIn? (base : Nat) (cs : List Char) : Option Int64 :=
  let value : Option Int :=
    match cs with
    | '+' :: ds => (numberIn? base ds).map fun n => (n : Int)
    | '-' :: ds => (numberIn? base ds).map fun n => -(n : Int)
    | ds => (numberIn? base ds).map fun n => (n : Int)
  (value.filter fun n => Int64.minValue.toInt ≤ n ∧ n ≤ Int64.maxValue.toInt).map Int64.ofInt

/-- The number that an integer literal stands for. -/
def parseInteger (text : List Char) : Checked (Option Int64) :=
  match (text.filter (· != '_')).map Char.toLower with
  | '0' :: 'x' :: ds => .ok (signedIn? 16 ds)
  | '0' :: 'o' :: ds => .ok (signedIn? 8 ds)
  | '0' :: 'b' :: ds => .ok (signedIn? 2 ds)
  | '0' :: d :: ds => do
    return signedIn? 8 (← slice ('0' :: d :: ds) 1 (String.ofList ('0' :: d :: ds)).utf8ByteSize)
  | ds => .ok (signedIn? 10 ds)

/-! ## The table -/

/-- A token in the table. -/
structure Slot where
  kind : TokenKind
  start : Position
  /-- The number of bytes before its end. -/
  stop : Nat
  /-- The index of the other bracket. -/
  partner : Option Nat

/-- A token before its brackets are paired. -/
def Token.slot (t : Token) : Slot := ⟨t.kind, t.start, t.stop, none⟩

/-- A bracket that knows its partner. -/
def Slot.pairedWith (s : Slot) (j : Nat) : Slot := { s with partner := some j }

/-- Says what the partner of a bracket is. -/
def setPartner (table : List Slot) (i j : Nat) : Checked (List Slot) := do
  let s ← elementAt table i
  return table.set i (s.pairedWith j)

/-- Pairs the brackets from an index on, given those that are open, innermost first. -/
def pairFrom (opened : List (Nat × Delimiter)) :
    (count i : Nat) → List Slot → Checked (Except LexError (List Slot))
  | 0, _, table =>
    match opened with
    | [] => .ok (.ok table)
    | (j, d) :: _ => do
      let s ← elementAt table j
      return .error ⟨s.start, .unclosed d⟩
  | count + 1, i, table => do
    let s ← elementAt table i
    match s.kind with
    | .opening d => pairFrom ((i, d) :: opened) count (i + 1) table
    | .closing d =>
      match opened with
      | [] => return .error ⟨s.start, .unbalanced⟩
      | (j, e) :: outer =>
        if e = d then do
          let table ← setPartner table i j
          let table ← setPartner table j i
          pairFrom outer count (i + 1) table
        else do
          let o ← elementAt table j
          return .error ⟨s.start, .mismatched e o.start⟩
    | _ => pairFrom opened count (i + 1) table

/-- A source and the table of its tokens. -/
structure Listing where
  source : List Char
  slots : List Slot

/-- The indices from `start` up to `stop`. -/
structure Stretch where
  start : Nat
  stop : Nat

/-- The number of indices in a stretch. -/
def Stretch.length (a : Stretch) : Nat := a.stop - a.start

namespace Listing

variable (l : Listing)

/-! ## Tokens by index -/

def slotAt (i : Nat) : Checked Slot := elementAt l.slots i

/-- The text of a token. -/
def textOf (s : Slot) : Checked String := do
  return String.ofList (← slice l.source s.start.offset s.stop)

def textAt (i : Nat) : Checked String := do
  l.textOf (← l.slotAt i)

/-- The index of the other bracket, or the same index if there is none. -/
def partnerOf (i : Nat) : Checked Nat := do
  return (← l.slotAt i).partner.getD i

/-- Whether the token before an index is the word `func`. -/
def followsFunc (i : Nat) : Checked Bool :=
  match i with
  | 0 => .ok false
  | before + 1 => do
    if (← l.slotAt before).kind = .name then return (← l.textAt before) == "func" else return false

/-- Whether a function is declared with the name at an index, behind the word `func` and perhaps a
receiver. -/
def declaresFunction (i : Nat) : Checked Bool :=
  match i with
  | 0 => .ok false
  | before + 1 => do
    match (← l.slotAt before).kind with
    | .name => return (← l.textAt before) == "func"
    | .closing .paren => l.followsFunc (← l.partnerOf before)
    | _ => return false

/-- What is declared by the call of the name at an index, within a stretch that ends at `stop`. The
parenthesis is behind the name. -/
def callAt (i stop : Nat) : Checked (Option CallKind) :=
  match l.slots[i]? with
  | none => .ok none
  | some s =>
    if s.kind = .name ∧ i + 1 < stop then do
      match plainKind? (baseName (← l.textAt i)) with
      | none => return none
      | some k =>
        if (← l.slotAt (i + 1)).kind = .opening .paren then
          if ← l.declaresFunction i then return none else return some k
        else return none
    else .ok none

/-- The stretches between the commas outside of brackets, given where the current one begins. -/
def splitFrom (stop : Nat) : (fuel start i : Nat) → Checked (List Stretch)
  | 0, _, _ => .error .fuel
  | fuel + 1, start, i =>
    if i < stop then do
      match (← l.slotAt i).kind with
      | .opening _ => splitFrom stop fuel start ((← l.partnerOf i) + 1)
      | .comma => return ⟨start, i⟩ :: (← splitFrom stop fuel (i + 1) (i + 1))
      | _ => splitFrom stop fuel start (i + 1)
    else .ok (if start < stop then [⟨start, stop⟩] else [])

/-- The arguments in a stretch. -/
def split (fuel : Nat) (a : Stretch) : Checked (List Stretch) :=
  l.splitFrom a.stop fuel a.start a.start

/-! ## Values -/

/-- The source text of a stretch. -/
def raw (a : Stretch) : Checked Value := do
  let first ← l.slotAt a.start
  let last ← l.slotAt (← difference a.stop 1)
  return .expr (String.ofList (← slice l.source first.start.offset last.stop))

/-- The value of a literal token behind a minus sign or not. -/
def literal (s : Slot) (negative : Bool) : Checked (Option Value) := do
  let text ← l.textOf s
  match s.kind with
  | .integer =>
    match ← parseInteger text.toList with
    | none => return none
    | some n => return some (.int (← if negative then negate n else .ok n))
  | .float =>
    return (Binary64.read? (text.toList.filter (· != '_'))).map fun x =>
      .float (if negative then x.neg else x)
  | .string s => return some (.str s)
  | .rune c => return some (.int (Int64.ofInt c.toNat))
  | .name =>
    return match text with
      | "true" => some (.bool true)
      | "false" => some (.bool false)
      | "nil" => some .nil
      | _ => none
  | _ => return none

/-- Strings and plus signs in turn, joined. A string comes last. -/
def joined (plus : Bool) : List Slot → Option String
  | [] => if plus then some "" else none
  | s :: rest =>
    match s.kind with
    | .string t => if plus then none else (joined true rest).map (t ++ ·)
    | .symbol '+' => if plus then joined false rest else none
    | _ => none

/-- A value, or else the source text of a stretch. -/
def orRaw (a : Stretch) (v : Option Value) : Checked Value :=
  match v with
  | some v => .ok v
  | none => l.raw a

/-- The value of an argument. -/
def value (a : Stretch) : Checked Value := do
  match ← elementsIn l.slots a.start a.stop with
  | [] => return .expr ""
  | [single] => l.orRaw a (← l.literal single false)
  | [sign, number] =>
    if sign.kind = .symbol '-' ∨ sign.kind = .symbol '+' then
      l.orRaw a ((← l.literal number (sign.kind = .symbol '-')).filter isNumber)
    else l.orRaw a ((joined false [sign, number]).map .str)
  | slots => l.orRaw a ((joined false slots).map .str)

def label (args : List Stretch) : Checked String :=
  match args with
  | [] => .ok ""
  | first :: _ => do return labelText (← l.value first)

/-- Whether an argument is a decorator. -/
def isDecorator (a : Stretch) : Checked Bool :=
  if a.start < a.stop then do
    if (← l.slotAt a.start).kind = .name then
      if decorators.contains (← l.textAt a.start) then
        if a.length = 1 then return true
        else if (← l.slotAt (a.start + 1)).kind = .opening .paren then
          return (← l.partnerOf (a.start + 1)) + 1 == a.stop
        else return false
      else return false
    else return false
  else .ok false

/-! ## Function literals -/

/-- The texts of the tokens in a stretch, joined. -/
def textIn : (count i : Nat) → Checked String
  | 0, _ => .ok ""
  | count + 1, i => do return (← l.textAt i) ++ (← textIn count (i + 1))

def isContextParam (a : Stretch) : Checked Bool :=
  if a.length < 2 then .ok false
  else do
    let text ← l.textIn (a.length - 1) (a.start + 1)
    return text == "SpecContext" || text.endsWith ".SpecContext" || text == "context.Context"

/-- Whether there is an ellipsis among some tokens. -/
def hasEllipsis : (count i : Nat) → Checked Bool
  | 0, _ => .ok false
  | count + 1, i => do
    if (← l.slotAt i).kind = .ellipsis then return true else hasEllipsis count (i + 1)

/-- The number of arguments that the parameters in a stretch take from an entry. -/
def arity (fuel : Nat) (params : Stretch) : Checked (Option Nat) := do
  let pieces ← l.split fuel params
  if ← l.hasEllipsis params.length params.start then return none
  else
    match pieces with
    | [] => return some (← difference pieces.length 0)
    | first :: _ =>
      let supplied := if ← l.isContextParam first then 1 else 0
      return some (← difference pieces.length supplied)

/-- The parameters and the body of the function literal that an argument is. -/
def function (a : Stretch) : Checked (Option (Stretch × Stretch)) :=
  if a.length < 4 then .ok none
  else do
    if (← l.textAt a.start) == "func" then
      if (← l.slotAt (a.start + 1)).kind = .opening .paren then
        let paramsClose ← l.partnerOf (a.start + 1)
        let bodyClose ← difference a.stop 1
        if (← l.slotAt bodyClose).kind = .closing .brace then
          let bodyOpen ← l.partnerOf bodyClose
          if bodyOpen ≤ paramsClose then return none
          else return some (⟨a.start + 1 + 1, paramsClose⟩, ⟨bodyOpen + 1, bodyClose⟩)
        else return none
      else return none
    else return none

/-- The first function literal among some arguments. -/
def firstFunction : List Stretch → Checked (Option (Stretch × Stretch))
  | [] => .ok none
  | a :: rest => do
    match ← l.function a with
    | some f => return some f
    | none => firstFunction rest

/-! ## Entries -/

/-- The values of the arguments that are no decorators. -/
def values : List Stretch → Checked (List Value)
  | [] => .ok []
  | a :: rest => do
    if ← l.isDecorator a then values rest
    else return (← l.value a) :: (← values rest)

/-- The entry that an argument is. -/
def entry (fuel : Nat) (a : Stretch) : Checked (Option Entry) := do
  match ← l.callAt a.start a.stop with
  | none => return none
  | some k =>
    let close ← l.partnerOf (a.start + 1)
    if k = .entry ∧ close + 1 = a.stop then
      match ← l.split fuel ⟨a.start + 1 + 1, close⟩ with
      | [] => return none
      | description :: params =>
        let arguments ← l.values params
        match ← l.value description with
        | .nil => return some (.unnamed arguments)
        | v => return some { description := labelText v, arguments }
    else return none

def entries (fuel : Nat) : List Stretch → Checked (List Entry)
  | [] => .ok []
  | a :: rest => do
    match ← l.entry fuel a with
    | some e => return e :: (← entries fuel rest)
    | none => entries fuel rest

/-! ## The scan -/

/-- The arity that a call shows. -/
def arityOf (fuel : Nat) (f : Option (Stretch × Stretch)) : Checked (Option Nat) :=
  match f with
  | none => .ok none
  | some (params, _) => l.arity fuel params

/-- What the body of a call declares, given how a stretch is scanned. -/
def below (scan : Stretch → Checked Scanned) (f : Option (Stretch × Stretch)) : Checked Scanned :=
  match f with
  | none => .ok {}
  | some (_, body) => scan body

/-- What the call of the name at an index declares, given how a stretch is scanned. -/
def declareAt (scan : Stretch → Checked Scanned) (fuel : Nat) (k : CallKind) (i : Nat)
    (args : List Stretch) : Checked Scanned :=
  match k with
  | .container => do
    let label ← l.label args
    let below ← below scan (← l.firstFunction (args.drop 1))
    return {
      declarations := [.container label below.declarations]
      events := below.events ++ [.container label below.declarations.length] }
  | .leaf => do
    let label ← l.label args
    return { declarations := [.leaf label .noop], events := [.leaf label] }
  | .table => do
    let label ← l.label args
    let arity ← l.arityOf fuel (← l.firstFunction (args.drop 1))
    let entries ← l.entries fuel (args.drop 1)
    return {
      declarations := [.table label arity entries (.leaves .noop)]
      events := [.table label entries.length false] }
  | .subtreeTable => do
    let label ← l.label args
    let f ← l.firstFunction (args.drop 1)
    let arity ← l.arityOf fuel f
    let entries ← l.entries fuel (args.drop 1)
    let below ← below scan f
    return {
      declarations := [.table label arity entries (.replay below.declarations)]
      events := below.events ++ [.table label entries.length true] }
  | .entry => do
    let s ← l.slotAt i
    return { events := [.strayEntry s.start.line s.start.column] }

/-- The declarations from an index up to the end of a stretch. -/
def scanFrom : (fuel i stop : Nat) → Checked Scanned
  | 0, _, _ => .error .fuel
  | fuel + 1, i, stop =>
    if i < stop then do
      match ← l.callAt i stop with
      | none => scanFrom fuel (i + 1) stop
      | some k =>
        let close ← l.partnerOf (i + 1)
        let args ← l.split fuel ⟨i + 1 + 1, close⟩
        let found ← l.declareAt (fun body => scanFrom fuel body.start body.stop) fuel k i args
        return found.append (← scanFrom fuel (close + 1) stop)
    else .ok {}

end Listing

/-- The declarations of a source text, by way of the table. -/
def checkedScan (fuel : Nat) (source : String) : Checked (Except SpecError Scanned) :=
  let structural (e : LexError) : SpecError :=
    .structural ("<source>:" ++ toString e.position.line ++ ":" ++ toString e.position.column) e.fault.message
  match tokens source with
  | .error e => .ok (.error (structural e))
  | .ok ts => do
    match ← pairFrom [] ts.length 0 (ts.map Token.slot) with
    | .error e => return .error (structural e)
    | .ok slots =>
      let found ← Listing.scanFrom ⟨source.toList, slots⟩ fuel 0 slots.length
      return .ok { found with
        events := found.events ++ [.scanned "<source>" slots.length found.declarations.length] }

end SpecForest.Source

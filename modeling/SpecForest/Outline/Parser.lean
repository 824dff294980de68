import SpecForest.Outline.StringLiteral
import SpecForest.Outline.Word

/-!
# Reading an outline

An item is a keyword, a name, for a table its parameters and rows, and a body in braces. Parameters, rows
and values are divided by commas, and a comma may stand behind the last. The first thing that is not as
expected is the error; if there is none, brackets inside a type or a value that hold more than they should
are.
-/

namespace SpecForest.Outline

/-- Takes a name. -/
def takeName : Stream → Except OutlineError (String × Stream)
  | .word w :: rest => if isName w then .ok (w, rest) else .error (.reserved w)
  | s => .error (.expected .identifier s.isEmpty)

/-- The string literal at the start of a stream. -/
def string? : Stream → Option (StringLiteral × Stream)
  | .literal source :: rest => (StringLiteral.ofSource? source).map fun l => (l, rest)
  | _ => none

/-- Takes a string literal. -/
def takeString (s : Stream) : Except OutlineError (StringLiteral × Stream) :=
  match string? s with
  | some found => .ok found
  | none => .error (.expected .string s.isEmpty)

/-- Takes what stands in brackets of a kind. -/
def takeGroup (d : Delimiter) : Stream → Except OutlineError (Stream × Stream)
  | .group e inner :: rest =>
    if e = d then .ok (inner, rest) else .error (.expected (.group d) false)
  | s => .error (.expected (.group d) s.isEmpty)

/-- Takes a punctuation character. -/
def takePunct (c : Char) : Stream → Except OutlineError Stream
  | .punct d _ :: rest => if c = d then .ok rest else .error (.expectedMark c.toString)
  | _ => .error (.expectedMark c.toString)

/-- Takes the comma behind an element of a list, unless the list ends there. -/
def takeSeparator : Stream → Except OutlineError Stream
  | [] => .ok []
  | s => takePunct ',' s

/-- The label at the start of a row, if there is one. -/
def takeLabel (s : Stream) : Option StringLiteral × Stream :=
  match string? s with
  | some (l, rest) => (some l, rest)
  | none => (none, s)

/-! ## Keywords -/

/-- The four kinds of items. -/
inductive Keyword
  | container
  | leaf
  | table
  | subtree
  deriving DecidableEq

/-- The kind of item that a word begins. -/
def Keyword.ofWord? (word : String) : Option Keyword :=
  match word with
  | "describe" | "context" | "when" => some .container
  | "it" | "specify" => some .leaf
  | "describe_table" => some .table
  | "describe_table_subtree" => some .subtree
  | _ => none

/-- Whether the items of a kind have parameters and rows. -/
def Keyword.isTable : Keyword → Bool
  | .table | .subtree => true
  | .container | .leaf => false

/-- Takes a keyword. -/
def takeKeyword (s : Stream) : Except OutlineError (Keyword × Stream) :=
  match takeName s with
  | .error e => .error e
  | .ok (word, rest) =>
    match Keyword.ofWord? word with
    | some k => .ok (k, rest)
    | none => .error (.unknownKeyword word)

/-! ## Sizes -/

theorem weight_takeName {s rest : Stream} {w : String} (h : takeName s = .ok (w, rest)) :
    Stream.weight rest < Stream.weight s := by
  unfold takeName at h
  split at h
  · split at h
    · cases h
      simp [Stream.weight, Tree.allWeight, Tree.weight]
    · cases h
  · cases h

theorem weight_takeString {s rest : Stream} {l : StringLiteral} (h : takeString s = .ok (l, rest)) :
    Stream.weight rest < Stream.weight s := by
  unfold takeString string? at h
  split at h
  · rename_i found hs
    cases h
    split at hs
    · obtain ⟨l', _, hl⟩ := Option.map_eq_some_iff.mp hs
      cases hl
      simp [Stream.weight, Tree.allWeight, Tree.weight]
    · cases hs
  · cases h

theorem weight_takeGroup {d : Delimiter} {s inner rest : Stream}
    (h : takeGroup d s = .ok (inner, rest)) :
    Stream.weight inner + Stream.weight rest < Stream.weight s := by
  unfold takeGroup at h
  split at h
  · split at h
    · cases h
      simp only [Stream.weight, Tree.allWeight, Tree.weight]
      omega
    · cases h
  · cases h

theorem weight_takePunct {c : Char} {s rest : Stream} (h : takePunct c s = .ok rest) :
    Stream.weight rest < Stream.weight s := by
  unfold takePunct at h
  split at h
  · split at h
    · cases h
      simp [Stream.weight, Tree.allWeight, Tree.weight]
    · cases h
  · cases h

theorem weight_takeSeparator {s rest : Stream} (h : takeSeparator s = .ok rest) :
    Stream.weight rest ≤ Stream.weight s := by
  unfold takeSeparator at h
  split at h
  · cases h
    simp
  · exact Nat.le_of_lt (weight_takePunct h)

theorem weight_takeLabel (s : Stream) : Stream.weight (takeLabel s).2 ≤ Stream.weight s := by
  unfold takeLabel
  split
  · rename_i l rest hs
    have : takeString s = .ok (l, rest) := by simp [takeString, hs]
    exact Nat.le_of_lt (weight_takeString this)
  · simp

theorem weight_takeKeyword {s rest : Stream} {k : Keyword} (h : takeKeyword s = .ok (k, rest)) :
    Stream.weight rest < Stream.weight s := by
  unfold takeKeyword at h
  split at h
  · cases h
  · rename_i h₁
    split at h
    · cases h
      exact weight_takeName h₁
    · cases h

/-! ## Parameters -/

/-- Takes a parameter: a name, a colon and a type. -/
def Language.takeParam (lang : Language) (s : Stream) : Except OutlineError (Param × Stream) :=
  match takeName s with
  | .error e => .error e
  | .ok (name, s) =>
    match takePunct ':' s with
    | .error e => .error e
    | .ok s =>
      match lang.types.take s with
      | .error e => .error e
      | .ok (type, s) => .ok (⟨name, type⟩, s)

theorem Language.weight_takeParam {lang : Language} {s rest : Stream} {p : Param} (h : lang.takeParam s = .ok (p, rest)) :
    Stream.weight rest < Stream.weight s := by
  unfold Language.takeParam at h
  split at h
  · cases h
  · rename_i h₁
    split at h
    · cases h
    · rename_i h₂
      split at h
      · cases h
      · rename_i h₃
        cases h
        have := weight_takeName h₁
        have := weight_takePunct h₂
        have := PhraseSort.weight_take h₃
        omega

/-- The parameters of a table, up to the end of their group. -/
def Language.readParams (lang : Language) (s : Stream) : Except OutlineError (List Param) :=
  if s.isEmpty then .ok []
  else
    match h : lang.takeParam s with
    | .error e => .error e
    | .ok (p, s') =>
      match h' : takeSeparator s' with
      | .error e => .error e
      | .ok s'' =>
        have : Stream.weight s'' < Stream.weight s :=
          Nat.lt_of_le_of_lt (weight_takeSeparator h') (Language.weight_takeParam h)
        (lang.readParams s'').map (p :: ·)
termination_by Stream.weight s

/-! ## Rows -/

/-- The values of a row, up to the end of their group. -/
def Language.readValues (lang : Language) (s : Stream) : Except OutlineError (List Stream) :=
  if s.isEmpty then .ok []
  else
    match h : lang.values.take s with
    | .error e => .error e
    | .ok (v, s') =>
      match h' : takeSeparator s' with
      | .error e => .error e
      | .ok s'' =>
        have : Stream.weight s'' < Stream.weight s :=
          Nat.lt_of_le_of_lt (weight_takeSeparator h') (PhraseSort.weight_take h)
        (lang.readValues s'').map (v :: ·)
termination_by Stream.weight s

/-- Takes a row: perhaps a label, and values in parentheses. -/
def Language.takeRow (lang : Language) (s : Stream) : Except OutlineError (Row × Stream) :=
  match takeGroup .paren (takeLabel s).2 with
  | .error e => .error e
  | .ok (inner, rest) =>
    match lang.readValues inner with
    | .error e => .error e
    | .ok values => .ok (⟨(takeLabel s).1, values⟩, rest)

theorem Language.weight_takeRow {lang : Language} {s rest : Stream} {r : Row} (h : lang.takeRow s = .ok (r, rest)) :
    Stream.weight rest < Stream.weight s := by
  unfold Language.takeRow at h
  split at h
  · cases h
  · rename_i h₁
    split at h
    · cases h
    · cases h
      have := weight_takeGroup h₁
      have := weight_takeLabel s
      omega

/-- The rows of a table, up to the end of their group. -/
def Language.readRows (lang : Language) (s : Stream) : Except OutlineError (List Row) :=
  if s.isEmpty then .ok []
  else
    match h : lang.takeRow s with
    | .error e => .error e
    | .ok (r, s') =>
      match h' : takeSeparator s' with
      | .error e => .error e
      | .ok s'' =>
        have : Stream.weight s'' < Stream.weight s :=
          Nat.lt_of_le_of_lt (weight_takeSeparator h') (Language.weight_takeRow h)
        (lang.readRows s'').map (r :: ·)
termination_by Stream.weight s

/-! ## Items -/

/-- An item before its body has been read. -/
structure Head where
  keyword : Keyword
  name : StringLiteral
  params : List Param
  rows : List Row
  body : Stream

/-- Takes the parameters and rows of a table. -/
def Language.takeTable (lang : Language) (s : Stream) : Except OutlineError ((List Param × List Row) × Stream) :=
  match takeGroup .paren s with
  | .error e => .error e
  | .ok (inner, s) =>
    match lang.readParams inner with
    | .error e => .error e
    | .ok params =>
      match takeGroup .bracket s with
      | .error e => .error e
      | .ok (inner, s) =>
        match lang.readRows inner with
        | .error e => .error e
        | .ok rows => .ok ((params, rows), s)

theorem Language.weight_takeTable {lang : Language} {s rest : Stream} {t : List Param × List Row}
    (h : lang.takeTable s = .ok (t, rest)) : Stream.weight rest ≤ Stream.weight s := by
  unfold Language.takeTable at h
  split at h
  · cases h
  · rename_i h₁
    split at h
    · cases h
    · split at h
      · cases h
      · rename_i h₂
        split at h
        · cases h
        · cases h
          have := weight_takeGroup h₁
          have := weight_takeGroup h₂
          omega

/-- Takes an item without reading its body. -/
def Language.takeHead (lang : Language) (s : Stream) : Except OutlineError (Head × Stream) :=
  match takeKeyword s with
  | .error e => .error e
  | .ok (keyword, s) =>
    match takeString s with
    | .error e => .error e
    | .ok (name, s) =>
      match if keyword.isTable then lang.takeTable s else .ok (([], []), s) with
      | .error e => .error e
      | .ok ((params, rows), s) =>
        match takeGroup .brace s with
        | .error e => .error e
        | .ok (body, s) => .ok (⟨keyword, name, params, rows, body⟩, s)

theorem Language.weight_takeHead {lang : Language} {s rest : Stream} {head : Head} (h : lang.takeHead s = .ok (head, rest)) :
    Stream.weight head.body < Stream.weight s ∧ Stream.weight rest < Stream.weight s := by
  unfold Language.takeHead at h
  split at h
  · cases h
  · rename_i h₁
    split at h
    · cases h
    · rename_i name s₂ h₂
      split at h
      · cases h
      · rename_i params rows s₃ h₃
        split at h
        · cases h
        · rename_i h₄
          cases h
          have := weight_takeKeyword h₁
          have := weight_takeString h₂
          have : Stream.weight s₃ ≤ Stream.weight s₂ := by
            split at h₃
            · exact Language.weight_takeTable h₃
            · cases h₃
              exact Nat.le_refl _
          have := weight_takeGroup h₄
          dsimp only
          omega

/-- The items of a stream. -/
def Language.readItems (lang : Language) (s : Stream) : Except OutlineError (List Item) :=
  if s.isEmpty then .ok []
  else
    match h : lang.takeHead s with
    | .error e => .error e
    | .ok (head, rest) =>
      have := Language.weight_takeHead h
      let item : Except OutlineError Item :=
        match head.keyword with
        | .container => (lang.readItems head.body).map (.container head.name)
        | .leaf => .ok (.leaf head.name head.body)
        | .table => .ok (.table head.name head.params head.rows head.body)
        | .subtree => (lang.readItems head.body).map (.subtree head.name head.params head.rows)
      match item with
      | .error e => .error e
      | .ok item => (lang.readItems rest).map (item :: ·)
termination_by Stream.weight s

/-- The items of an outline, if no brackets in its types and values hold more than they should. -/
def Language.outline (lang : Language) (s : Stream) : Except OutlineError (List Item) :=
  match lang.readItems s with
  | .error e => .error e
  | .ok items =>
    match itemsLeftover? lang items with
    | some d => .error (.leftover d)
    | none => .ok items

/-- The items of an outline's text. -/
def Language.parse (lang : Language) (source : String) : Except OutlineError (List Item) :=
  match Stream.ofText? source with
  | none => .error .noStream
  | some s => lang.outline s

end SpecForest.Outline

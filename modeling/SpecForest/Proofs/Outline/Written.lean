import Mathlib.Data.List.Basic
import SpecForest.Outline.Parser

/-!
# How items are written

The grammar of items: how their tokens are laid out, with any of the words for each kind of item, with commas between
parameters, rows and values, and with or without a comma behind the last of them. Whatever the types and values of the
language are, as long as they are read exactly: items that are laid out in this way are read, and what is read is laid
out in this way.
-/

namespace SpecForest.Outline

/-! ## Layout -/

/-- The words that begin an item of a kind. -/
def Keyword.words : Keyword → List String
  | .container => ["describe", "context", "when"]
  | .leaf => ["it", "specify"]
  | .table => ["describe_table"]
  | .subtree => ["describe_table_subtree"]

/-- Elements with commas between them, and perhaps one behind the last. -/
inductive CommaSeparated {α : Type} (Writes : α → Stream → Prop) : List α → Stream → Prop
  | nil : CommaSeparated Writes [] []
  | last {a : α} {s : Stream} (h : Writes a s) : CommaSeparated Writes [a] s
  | cons {a : α} {as : List α} {s rest : Stream} (h : Writes a s) (spacing : Spacing)
      (hrest : CommaSeparated Writes as rest) : CommaSeparated Writes (a :: as) (s ++ .punct ',' spacing :: rest)

/-- A name, a colon and a type. -/
def Param.Writes (p : Param) (s : Stream) : Prop := ∃ spacing, s = .word p.name :: .punct ':' spacing :: p.type

/-- A value as it stands. -/
def WritesValue (v s : Stream) : Prop := s = v

/-- A label, if there is one. -/
def labelTokens (label : Option StringLiteral) : Stream := label.toList.map fun l => .literal l.source

/-- Perhaps a label, and values in parentheses. -/
def Row.Writes (r : Row) (s : Stream) : Prop :=
  ∃ inner, CommaSeparated WritesValue r.values inner ∧ s = labelTokens r.label ++ [.group .paren inner]

mutual

/-- How an item is written. -/
inductive Item.Writes : Item → Stream → Prop
  | container {word : String} {name : StringLiteral} {items : List Item} {body : Stream}
      (hword : word ∈ Keyword.words .container) (h : WritesAll items body) :
      Item.Writes (.container name items) [.word word, .literal name.source, .group .brace body]
  | leaf {word : String} {name : StringLiteral} {body : Stream} (hword : word ∈ Keyword.words .leaf) :
      Item.Writes (.leaf name body) [.word word, .literal name.source, .group .brace body]
  | table {word : String} {name : StringLiteral} {params : List Param} {rows : List Row} {ps rs body : Stream}
      (hword : word ∈ Keyword.words .table) (hparams : CommaSeparated Param.Writes params ps)
      (hrows : CommaSeparated Row.Writes rows rs) :
      Item.Writes (.table name params rows body)
        [.word word, .literal name.source, .group .paren ps, .group .bracket rs, .group .brace body]
  | subtree {word : String} {name : StringLiteral} {params : List Param} {rows : List Row} {items : List Item}
      {ps rs body : Stream} (hword : word ∈ Keyword.words .subtree) (hparams : CommaSeparated Param.Writes params ps)
      (hrows : CommaSeparated Row.Writes rows rs) (h : WritesAll items body) :
      Item.Writes (.subtree name params rows items)
        [.word word, .literal name.source, .group .paren ps, .group .bracket rs, .group .brace body]

/-- How items are written, one behind the other. -/
inductive WritesAll : List Item → Stream → Prop
  | nil : WritesAll [] []
  | cons {item : Item} {items : List Item} {front back : Stream} (h : item.Writes front)
      (hrest : WritesAll items back) : WritesAll (item :: items) (front ++ back)

end

/-! ## Parts that are what they should be -/

/-- A literal that stands for what it should. -/
def StringLiteral.Valid (l : StringLiteral) : Prop := StringLiteral.ofSource? l.source = some l

/-- The name of a parameter is a name, and its type is a type. -/
structure Param.Valid (IsType : Stream → Prop) (p : Param) : Prop where
  name : isName p.name = true
  type : IsType p.type

structure Row.Valid (IsValue : Stream → Prop) (r : Row) : Prop where
  label : ∀ l ∈ r.label, l.Valid
  values : ∀ v ∈ r.values, IsValue v

section

variable (IsType IsValue : Stream → Prop)

mutual

/-- The names and labels in an item are string literals, its types are types, and its values are values. -/
def Item.Valid : Item → Prop
  | .container name items => name.Valid ∧ allValid items
  | .leaf name _ => name.Valid
  | .table name params rows _ =>
    name.Valid ∧ (∀ p ∈ params, p.Valid IsType) ∧ ∀ r ∈ rows, r.Valid IsValue
  | .subtree name params rows items =>
    name.Valid ∧ (∀ p ∈ params, p.Valid IsType) ∧ (∀ r ∈ rows, r.Valid IsValue) ∧ allValid items

def allValid : List Item → Prop
  | [] => True
  | item :: rest => item.Valid ∧ allValid rest

end

end

/-! ## Tokens -/

theorem Keyword.ofWord?_eq_some_iff {word : String} {k : Keyword} : Keyword.ofWord? word = some k ↔ word ∈ k.words := by
  unfold Keyword.ofWord?
  split <;> cases k <;> simp_all [Keyword.words]

theorem isName_of_mem_words {word : String} {k : Keyword} (h : word ∈ k.words) : isName word = true := by
  have hall : ∀ k : Keyword, ∀ word ∈ k.words, isName word = true := by
    intro k
    cases k <;> decide
  exact hall k word h

theorem takeName_eq_ok_iff {s rest : Stream} {word : String} :
    takeName s = .ok (word, rest) ↔ isName word = true ∧ s = .word word :: rest := by
  unfold takeName
  split
  · rename_i w rest'
    by_cases hname : isName w = true
    · rw [if_pos hname]
      constructor
      · rintro ⟨⟩
        exact ⟨hname, rfl⟩
      · rintro ⟨-, ⟨⟩⟩
        rfl
    · rw [if_neg hname]
      constructor
      · exact nofun
      · rintro ⟨hw, ⟨⟩⟩
        exact absurd hw hname
  · rename_i hword
    constructor
    · exact nofun
    · rintro ⟨-, rfl⟩
      exact absurd rfl (hword word rest)

theorem takeKeyword_eq_ok_iff {s rest : Stream} {k : Keyword} :
    takeKeyword s = .ok (k, rest) ↔ ∃ word ∈ k.words, s = .word word :: rest := by
  constructor
  · intro h
    unfold takeKeyword at h
    split at h
    · cases h
    · rename_i word rest' htake
      split at h
      · rename_i k' hk
        cases h
        exact ⟨word, Keyword.ofWord?_eq_some_iff.mp hk, (takeName_eq_ok_iff.mp htake).2⟩
      · cases h
  · rintro ⟨word, hword, rfl⟩
    have htake : takeName (.word word :: rest) = .ok (word, rest) :=
      takeName_eq_ok_iff.mpr ⟨isName_of_mem_words hword, rfl⟩
    simp only [takeKeyword, htake, Keyword.ofWord?_eq_some_iff.mpr hword]

theorem source_of_ofSource? {source : String} {l : StringLiteral} (h : StringLiteral.ofSource? source = some l) :
    l.source = source := by
  unfold StringLiteral.ofSource? at h
  split at h
  · cases h
    rfl
  · obtain ⟨text, -, rfl⟩ := Option.map_eq_some_iff.mp h
    rfl
  · cases h

theorem string?_eq_some_iff {s rest : Stream} {l : StringLiteral} :
    string? s = some (l, rest) ↔ l.Valid ∧ s = .literal l.source :: rest := by
  unfold string?
  split
  · rename_i source rest'
    rw [Option.map_eq_some_iff]
    constructor
    · rintro ⟨l', hl, ⟨⟩⟩
      rw [StringLiteral.Valid, source_of_ofSource? hl]
      exact ⟨hl, rfl⟩
    · rintro ⟨hl, ⟨⟩⟩
      exact ⟨l, hl, rfl⟩
  · rename_i hliteral
    constructor
    · exact nofun
    · rintro ⟨-, rfl⟩
      exact absurd rfl (hliteral _ _)

theorem takeString_eq_ok_iff {s rest : Stream} {l : StringLiteral} :
    takeString s = .ok (l, rest) ↔ l.Valid ∧ s = .literal l.source :: rest := by
  rw [← string?_eq_some_iff, takeString]
  cases string? s <;> simp

theorem takeGroup_eq_ok_iff {d : Delimiter} {s inner rest : Stream} :
    takeGroup d s = .ok (inner, rest) ↔ s = .group d inner :: rest := by
  unfold takeGroup
  split
  · rename_i e inner' rest'
    by_cases hd : e = d
    · subst hd
      simp
    · simp [hd]
  · rename_i hgroup
    constructor
    · exact nofun
    · rintro rfl
      exact absurd rfl (hgroup d inner rest)

theorem takePunct_eq_ok_iff {c : Char} {s rest : Stream} :
    takePunct c s = .ok rest ↔ ∃ spacing, s = .punct c spacing :: rest := by
  unfold takePunct
  split
  · rename_i d spacing rest'
    by_cases hc : c = d
    · subst hc
      simp
    · simp [hc, Ne.symm hc]
  · rename_i hpunct
    constructor
    · exact nofun
    · rintro ⟨spacing, rfl⟩
      exact absurd rfl (hpunct c spacing rest)

theorem takeSeparator_eq_ok_iff {s rest : Stream} :
    takeSeparator s = .ok rest ↔ (s = [] ∧ rest = []) ∨ ∃ spacing, s = .punct ',' spacing :: rest := by
  rw [← takePunct_eq_ok_iff]
  cases s with
  | nil => simp [takeSeparator, takePunct, eq_comm]
  | cons x s => simp [takeSeparator]

/-! ## Lists with commas -/

/-- A loop that reads elements and the commas between them up to the end of a stream. -/
structure IsLoop {α : Type} (read : Stream → Except OutlineError (List α))
    (take : Stream → Except OutlineError (α × Stream)) : Prop where
  nil : read [] = .ok []
  cons : ∀ {s : Stream}, s ≠ [] → read s =
    match take s with
    | .error e => .error e
    | .ok (a, back) =>
      match takeSeparator back with
      | .error e => .error e
      | .ok rest => (read rest).map (a :: ·)
  lighter : ∀ {s : Stream} {a : α} {back : Stream}, take s = .ok (a, back) → back.weight < s.weight

theorem isLoop_readParams (lang : Language) : IsLoop lang.readParams lang.takeParam where
  nil := by rw [Language.readParams]; rfl
  cons hs := by
    rw [Language.readParams, if_neg (by simpa using hs)]
    split <;> split <;> simp_all
  lighter := Language.weight_takeParam

theorem isLoop_readValues (lang : Language) : IsLoop lang.readValues lang.values.take where
  nil := by rw [Language.readValues]; rfl
  cons hs := by
    rw [Language.readValues, if_neg (by simpa using hs)]
    split <;> split <;> simp_all
  lighter := PhraseSort.weight_take

theorem isLoop_readRows (lang : Language) : IsLoop lang.readRows lang.takeRow where
  nil := by rw [Language.readRows]; rfl
  cons hs := by
    rw [Language.readRows, if_neg (by simpa using hs)]
    split <;> split <;> simp_all
  lighter := Language.weight_takeRow

section

variable {α : Type} {read : Stream → Except OutlineError (List α)}
  {take : Stream → Except OutlineError (α × Stream)}

/-- What a loop reads from a stream that is not empty: an element, and what stands behind the comma that follows. -/
theorem IsLoop.read_eq_ok_cons_iff (hloop : IsLoop read take) {s : Stream} (hs : s ≠ []) {as : List α} :
    read s = .ok as ↔ ∃ a back rest as', take s = .ok (a, back) ∧ takeSeparator back = .ok rest ∧
      read rest = .ok as' ∧ as = a :: as' := by
  rw [hloop.cons hs]
  cases htake : take s with
  | error e => simp
  | ok found =>
    obtain ⟨a, back⟩ := found
    cases hseparator : takeSeparator back with
    | error e => simp [hseparator]
    | ok rest =>
      cases hread : read rest with
      | error e => simp [hseparator, hread, Except.map]
      | ok as' => simp [hseparator, hread, Except.map, eq_comm]

theorem IsLoop.ne_nil (hloop : IsLoop read take) {s : Stream} {a : α} {back : Stream} (h : take s = .ok (a, back)) :
    s ≠ [] := by
  rintro rfl
  exact absurd (hloop.lighter h) (Nat.not_lt_zero _)

variable {Valid : α → Prop} {Writes : α → Stream → Prop}

/-- A loop reads elements as they are written, if each is taken as it is written. -/
theorem IsLoop.read_of_written (hloop : IsLoop read take)
    (htake : ∀ {a : α} {front back : Stream}, Valid a → Writes a front → EndsPhrase back →
      take (front ++ back) = .ok (a, back)) {as : List α} {s : Stream} (hwritten : CommaSeparated Writes as s)
    (hvalid : ∀ a ∈ as, Valid a) : read s = .ok as := by
  induction hwritten with
  | nil => exact hloop.nil
  | @last a s hfront =>
    have ha : take s = .ok (a, []) := by simpa using htake (hvalid a (by simp)) hfront (.inl rfl)
    exact (hloop.read_eq_ok_cons_iff (hloop.ne_nil ha)).mpr ⟨a, [], [], [], ha, rfl, hloop.nil, rfl⟩
  | @cons a as front rest hfront spacing _ ih =>
    obtain ⟨hfirst, hvalid⟩ := List.forall_mem_cons.mp hvalid
    have ha := htake hfirst hfront (.inr ⟨spacing, rest, rfl⟩)
    exact (hloop.read_eq_ok_cons_iff (hloop.ne_nil ha)).mpr
      ⟨a, _, rest, as, ha, takeSeparator_eq_ok_iff.mpr (.inr ⟨spacing, rfl⟩), ih hvalid, rfl⟩

/-- What a loop reads is written, if each element that is taken is written. -/
theorem IsLoop.written_of_read (hloop : IsLoop read take)
    (htake : ∀ {s : Stream} {a : α} {back : Stream}, take s = .ok (a, back) → EndsPhrase back →
      Valid a ∧ ∃ front, Writes a front ∧ s = front ++ back) {s : Stream} {as : List α} (h : read s = .ok as) :
    (∀ a ∈ as, Valid a) ∧ CommaSeparated Writes as s := by
  induction hn : s.weight using Nat.strongRecOn generalizing s as with
  | _ n ih =>
    subst hn
    by_cases hs : s = []
    · subst hs
      rw [hloop.nil] at h
      cases h
      exact ⟨List.forall_mem_nil Valid, .nil⟩
    · obtain ⟨a, back, rest, as, ha, hseparator, hrest, rfl⟩ := (hloop.read_eq_ok_cons_iff hs).mp h
      have hlighter := hloop.lighter ha
      rcases takeSeparator_eq_ok_iff.mp hseparator with ⟨rfl, rfl⟩ | ⟨spacing, rfl⟩
      · obtain ⟨hvalid, front, hfront, rfl⟩ := htake ha (.inl rfl)
        rw [hloop.nil] at hrest
        cases hrest
        exact ⟨by simpa using hvalid, by simpa using .last hfront⟩
      · obtain ⟨hvalid, front, hfront, rfl⟩ := htake ha (.inr ⟨spacing, rest, rfl⟩)
        have hbehind : Stream.weight rest < Stream.weight (.punct ',' spacing :: rest) := by
          simp [Stream.weight, Tree.allWeight, Tree.weight]
        obtain ⟨hall, hwritten⟩ := ih _ (Nat.lt_trans hbehind hlighter) hrest rfl
        exact ⟨by simpa using ⟨hvalid, hall⟩, .cons hfront spacing hwritten⟩

end

/-! ## Parameters and rows -/

/-- Tokens that are a phrase, unless brackets in them hold too much. -/
def PhraseSort.Taken (sort : PhraseSort) (IsPhrase : Stream → Prop) (s : Stream) : Prop :=
  sort.leftover? s = none → IsPhrase s

/-- A label is taken if it stands there, and none if brackets stand there. -/
theorem takeLabel_group {label : Option StringLiteral} (h : ∀ l ∈ label, l.Valid) (d : Delimiter)
    (inner rest : Stream) : takeLabel (labelTokens label ++ .group d inner :: rest) = (label, .group d inner :: rest) := by
  cases label with
  | none => rfl
  | some l =>
    have hstring : string? (.literal l.source :: .group d inner :: rest) = some (l, .group d inner :: rest) :=
      string?_eq_some_iff.mpr ⟨h l rfl, rfl⟩
    simp [takeLabel, labelTokens, hstring]

theorem eq_of_takeLabel (s : Stream) : s = labelTokens (takeLabel s).1 ++ (takeLabel s).2 ∧
    ∀ l ∈ (takeLabel s).1, l.Valid := by
  unfold takeLabel
  split
  · rename_i l rest hstring
    obtain ⟨hl, rfl⟩ := string?_eq_some_iff.mp hstring
    exact ⟨rfl, by simpa using hl⟩
  · exact ⟨rfl, nofun⟩

section

variable {lang : Language} {IsType IsValue : Stream → Prop}

theorem readParams_of_writes (htypes : lang.types.Exact IsType) {params : List Param} {s : Stream}
    (hwritten : CommaSeparated Param.Writes params s) (hvalid : ∀ p ∈ params, p.Valid IsType) :
    lang.readParams s = .ok params := by
  refine (isLoop_readParams lang).read_of_written ?_ hwritten hvalid
  rintro p front back ⟨hname, htype⟩ ⟨spacing, rfl⟩ hback
  simp [Language.takeParam, takeName, takePunct, hname, htypes.takes htype hback]

theorem writes_of_readParams (htypes : lang.types.Exact IsType) {params : List Param} {s : Stream}
    (h : lang.readParams s = .ok params) :
    (∀ p ∈ params, p.Valid (lang.types.Taken IsType)) ∧ CommaSeparated Param.Writes params s := by
  refine (isLoop_readParams lang).written_of_read ?_ h
  intro s p back htake hback
  unfold Language.takeParam at htake
  split at htake
  · cases htake
  · rename_i name s₁ hname
    split at htake
    · cases htake
    · rename_i s₂ hcolon
      split at htake
      · cases htake
      · rename_i type s₃ htype
        cases htake
        obtain ⟨hisName, rfl⟩ := takeName_eq_ok_iff.mp hname
        obtain ⟨spacing, rfl⟩ := takePunct_eq_ok_iff.mp hcolon
        obtain rfl := lang.types.take_append htype
        exact ⟨⟨hisName, htypes.taken htype hback⟩, _, ⟨spacing, rfl⟩, rfl⟩

theorem readValues_of_writes (hvalues : lang.values.Exact IsValue) {values : List Stream} {s : Stream}
    (hwritten : CommaSeparated WritesValue values s) (hvalid : ∀ v ∈ values, IsValue v) :
    lang.readValues s = .ok values := by
  refine (isLoop_readValues lang).read_of_written ?_ hwritten hvalid
  rintro v front back hv rfl hback
  exact hvalues.takes hv hback

theorem writes_of_readValues (hvalues : lang.values.Exact IsValue) {values : List Stream} {s : Stream}
    (h : lang.readValues s = .ok values) :
    (∀ v ∈ values, lang.values.Taken IsValue v) ∧ CommaSeparated WritesValue values s := by
  refine (isLoop_readValues lang).written_of_read ?_ h
  intro s v back htake hback
  exact ⟨hvalues.taken htake hback, v, rfl, lang.values.take_append htake⟩

/-- A row is taken as it is written, whatever stands behind it. -/
theorem takeRow_of_writes (hvalues : lang.values.Exact IsValue) {r : Row} {front : Stream} (hwritten : r.Writes front)
    (hvalid : r.Valid IsValue) (back : Stream) : lang.takeRow (front ++ back) = .ok (r, back) := by
  obtain ⟨inner, hinner, rfl⟩ := hwritten
  have htake := takeLabel_group hvalid.label .paren inner back
  have hread := readValues_of_writes hvalues hinner hvalid.values
  simp [Language.takeRow, htake, takeGroup, hread]

theorem writes_of_takeRow (hvalues : lang.values.Exact IsValue) {s back : Stream} {r : Row}
    (h : lang.takeRow s = .ok (r, back)) :
    r.Valid (lang.values.Taken IsValue) ∧ ∃ front, r.Writes front ∧ s = front ++ back := by
  unfold Language.takeRow at h
  split at h
  · cases h
  · rename_i inner rest hgroup
    split at h
    · cases h
    · rename_i values hread
      cases h
      obtain ⟨heq, hlabel⟩ := eq_of_takeLabel s
      obtain ⟨hvalid, hwritten⟩ := writes_of_readValues hvalues hread
      rw [takeGroup_eq_ok_iff.mp hgroup] at heq
      refine ⟨⟨hlabel, hvalid⟩, _, ⟨inner, hwritten, rfl⟩, ?_⟩
      rw [List.append_assoc]
      exact heq

theorem readRows_of_writes (hvalues : lang.values.Exact IsValue) {rows : List Row} {s : Stream}
    (hwritten : CommaSeparated Row.Writes rows s) (hvalid : ∀ r ∈ rows, r.Valid IsValue) :
    lang.readRows s = .ok rows := by
  refine (isLoop_readRows lang).read_of_written ?_ hwritten hvalid
  intro r front back hr hfront _
  exact takeRow_of_writes hvalues hfront hr back

theorem writes_of_readRows (hvalues : lang.values.Exact IsValue) {rows : List Row} {s : Stream}
    (h : lang.readRows s = .ok rows) :
    (∀ r ∈ rows, r.Valid (lang.values.Taken IsValue)) ∧ CommaSeparated Row.Writes rows s :=
  (isLoop_readRows lang).written_of_read (fun htake _ => writes_of_takeRow hvalues htake) h

end

/-! ## Items -/

/-- How an item is written up to its body. -/
inductive Head.Writes : Head → Stream → Prop
  | plain {k : Keyword} {word : String} {name : StringLiteral} {body : Stream} (hk : k.isTable = false)
      (hword : word ∈ k.words) :
      Head.Writes ⟨k, name, [], [], body⟩ [.word word, .literal name.source, .group .brace body]
  | table {k : Keyword} {word : String} {name : StringLiteral} {params : List Param} {rows : List Row}
      {ps rs body : Stream} (hk : k.isTable = true) (hword : word ∈ k.words)
      (hparams : CommaSeparated Param.Writes params ps) (hrows : CommaSeparated Row.Writes rows rs) :
      Head.Writes ⟨k, name, params, rows, body⟩
        [.word word, .literal name.source, .group .paren ps, .group .bracket rs, .group .brace body]

structure Head.Valid (IsType IsValue : Stream → Prop) (head : Head) : Prop where
  name : head.name.Valid
  params : ∀ p ∈ head.params, p.Valid IsType
  rows : ∀ r ∈ head.rows, r.Valid IsValue

/-- Whether the bodies of a kind hold items. -/
def Keyword.nests : Keyword → Bool
  | .container | .subtree => true
  | .leaf | .table => false

/-- The items in a body. -/
def Head.inside (lang : Language) (head : Head) : Except OutlineError (List Item) :=
  if head.keyword.nests then lang.readItems head.body else .ok []

/-- The item with given items in its body. -/
def Head.item (head : Head) (items : List Item) : Item :=
  match head.keyword with
  | .container => .container head.name items
  | .leaf => .leaf head.name head.body
  | .table => .table head.name head.params head.rows head.body
  | .subtree => .subtree head.name head.params head.rows items

section

variable {IsType IsValue : Stream → Prop}

theorem Head.Valid.plain {k : Keyword} {name : StringLiteral} {body : Stream} (h : name.Valid) :
    Head.Valid IsType IsValue ⟨k, name, [], [], body⟩ := ⟨h, nofun, nofun⟩

/-- What is written for a head, with items in its body, is an item. -/
theorem Head.Writes.item {head : Head} {front : Stream} (h : head.Writes front) {items : List Item}
    (hinside : head.keyword.nests = true → WritesAll items head.body) : (head.item items).Writes front := by
  cases h with
  | @plain k word name body hk hword =>
    cases k with
    | container => exact .container hword (hinside rfl)
    | leaf => exact .leaf hword
    | table => cases hk
    | subtree => cases hk
  | @table k word name params rows ps rs body hk hword hparams hrows =>
    cases k with
    | container => cases hk
    | leaf => cases hk
    | table => exact .table hword hparams hrows
    | subtree => exact .subtree hword hparams hrows (hinside rfl)

theorem Head.Valid.item {head : Head} (h : head.Valid IsType IsValue) {items : List Item}
    (hinside : head.keyword.nests = true → allValid IsType IsValue items) :
    (head.item items).Valid IsType IsValue := by
  unfold Head.item
  cases hk : head.keyword with
  | container => exact ⟨h.name, hinside (by rw [hk]; rfl)⟩
  | leaf => exact h.name
  | table => exact ⟨h.name, h.params, h.rows⟩
  | subtree => exact ⟨h.name, h.params, h.rows, hinside (by rw [hk]; rfl)⟩

/-- An item is written as a head, with the items in its body. -/
theorem Item.Writes.exists_head {item : Item} {front : Stream} (h : item.Writes front)
    (hvalid : item.Valid IsType IsValue) :
    ∃ (head : Head) (items : List Item), head.Valid IsType IsValue ∧ head.Writes front ∧ item = head.item items ∧
      if head.keyword.nests then WritesAll items head.body ∧ allValid IsType IsValue items else items = [] := by
  cases h with
  | @container word name items body hword hbody =>
    obtain ⟨hname, hitems⟩ := hvalid
    exact ⟨⟨.container, name, [], [], body⟩, items, .plain hname, .plain rfl hword, rfl, hbody, hitems⟩
  | @leaf word name body hword =>
    exact ⟨⟨.leaf, name, [], [], body⟩, [], .plain hvalid, .plain rfl hword, rfl, rfl⟩
  | table hword hparams hrows =>
    obtain ⟨hname, hvalidParams, hvalidRows⟩ := hvalid
    exact ⟨_, [], ⟨hname, hvalidParams, hvalidRows⟩, .table rfl hword hparams hrows, rfl, rfl⟩
  | @subtree word name params rows items ps rs body hword hparams hrows hbody =>
    obtain ⟨hname, hvalidParams, hvalidRows, hitems⟩ := hvalid
    exact ⟨_, items, ⟨hname, hvalidParams, hvalidRows⟩, .table rfl hword hparams hrows, rfl, hbody, hitems⟩

end

section

variable {lang : Language} {IsType IsValue : Stream → Prop}

/-- What is taken behind the word and the name of an item. -/
theorem takeHead_cons_cons {k : Keyword} {word : String} (hword : word ∈ k.words) {name : StringLiteral}
    (hname : name.Valid) (s : Stream) : lang.takeHead (.word word :: .literal name.source :: s) =
      match if k.isTable then lang.takeTable s else .ok (([], []), s) with
      | .error e => .error e
      | .ok ((params, rows), s) =>
        match takeGroup .brace s with
        | .error e => .error e
        | .ok (body, s) => .ok (⟨k, name, params, rows, body⟩, s) := by
  have hkeyword : takeKeyword (.word word :: .literal name.source :: s) = .ok (k, .literal name.source :: s) :=
    takeKeyword_eq_ok_iff.mpr ⟨word, hword, rfl⟩
  have hstring : takeString (.literal name.source :: s) = .ok (name, s) := takeString_eq_ok_iff.mpr ⟨hname, rfl⟩
  rw [Language.takeHead, hkeyword]
  dsimp only
  generalize takeString (.literal name.source :: s) = found at hstring ⊢
  subst hstring
  rfl

theorem takeHead_of_writes (htypes : lang.types.Exact IsType) (hvalues : lang.values.Exact IsValue) {head : Head}
    {front : Stream} (hwritten : head.Writes front) (hvalid : head.Valid IsType IsValue) (back : Stream) :
    lang.takeHead (front ++ back) = .ok (head, back) := by
  obtain ⟨hname, hparams, hrows⟩ := hvalid
  cases hwritten with
  | plain hk hword => simp [takeHead_cons_cons hword hname, hk, takeGroup]
  | table hk hword hps hrs =>
    have hreadParams := readParams_of_writes htypes hps hparams
    have hreadRows := readRows_of_writes hvalues hrs hrows
    simp [takeHead_cons_cons hword hname, hk, Language.takeTable, takeGroup, hreadParams, hreadRows]

theorem eq_of_takeTable {s rest : Stream} {params : List Param} {rows : List Row}
    (h : lang.takeTable s = .ok ((params, rows), rest)) :
    ∃ ps rs, lang.readParams ps = .ok params ∧ lang.readRows rs = .ok rows ∧
      s = .group .paren ps :: .group .bracket rs :: rest := by
  unfold Language.takeTable at h
  split at h
  · cases h
  · rename_i ps s₁ hps
    split at h
    · cases h
    · rename_i params' hparams
      split at h
      · cases h
      · rename_i rs s₂ hrs
        split at h
        · cases h
        · rename_i rows' hrows
          cases h
          rw [takeGroup_eq_ok_iff] at hps hrs
          exact ⟨ps, rs, hparams, hrows, by rw [hps, hrs]⟩

theorem writes_of_takeHead (htypes : lang.types.Exact IsType) (hvalues : lang.values.Exact IsValue) {s rest : Stream}
    {head : Head} (h : lang.takeHead s = .ok (head, rest)) :
    head.Valid (lang.types.Taken IsType) (lang.values.Taken IsValue) ∧
      ∃ front, head.Writes front ∧ s = front ++ rest := by
  unfold Language.takeHead at h
  split at h
  · cases h
  · rename_i k s₁ hkeyword
    split at h
    · cases h
    · rename_i name s₂ hname
      split at h
      · cases h
      · rename_i params rows s₃ htable
        split at h
        · cases h
        · rename_i body s₄ hbody
          cases h
          obtain ⟨word, hword, rfl⟩ := takeKeyword_eq_ok_iff.mp hkeyword
          obtain ⟨hvalid, rfl⟩ := takeString_eq_ok_iff.mp hname
          obtain rfl := takeGroup_eq_ok_iff.mp hbody
          split at htable
          · rename_i hk
            obtain ⟨ps, rs, hreadParams, hreadRows, rfl⟩ := eq_of_takeTable htable
            obtain ⟨hvalidParams, hparams⟩ := writes_of_readParams htypes hreadParams
            obtain ⟨hvalidRows, hrows⟩ := writes_of_readRows hvalues hreadRows
            exact ⟨⟨hvalid, hvalidParams, hvalidRows⟩, _, .table hk hword hparams hrows, rfl⟩
          · rename_i hk
            cases htable
            exact ⟨.plain hvalid, _, .plain (by simpa using hk) hword, rfl⟩

theorem readItems_nil : lang.readItems [] = .ok [] := by
  rw [Language.readItems]
  rfl

theorem readItems_cons {s : Stream} (hs : s ≠ []) : lang.readItems s =
    match lang.takeHead s with
    | .error e => .error e
    | .ok (head, rest) =>
      match head.inside lang with
      | .error e => .error e
      | .ok items => (lang.readItems rest).map (head.item items :: ·) := by
  rw [Language.readItems, if_neg (by simpa using hs)]
  split
  · simp_all
  · rename_i head rest htake
    simp only [htake, Head.inside, Head.item]
    cases hk : head.keyword with
    | container => cases lang.readItems head.body <;> simp [Keyword.nests, Except.map]
    | leaf => simp [Keyword.nests]
    | table => simp [Keyword.nests]
    | subtree => cases lang.readItems head.body <;> simp [Keyword.nests, Except.map]

/-- What stands behind an item is read after what stands in its body. -/
theorem Head.Writes.readItems_append (htypes : lang.types.Exact IsType) (hvalues : lang.values.Exact IsValue)
    {head : Head} {front : Stream} (h : head.Writes front) (hvalid : head.Valid IsType IsValue) (back : Stream) :
    lang.readItems (front ++ back) =
      match head.inside lang with
      | .error e => .error e
      | .ok items => (lang.readItems back).map (head.item items :: ·) := by
  have htake := takeHead_of_writes htypes hvalues h hvalid back
  have hne : front ++ back ≠ [] := by
    intro hnil
    rw [hnil] at htake
    cases htake
  rw [readItems_cons hne, htake]

/-- Items are read as they are written, and then what stands behind them. -/
theorem WritesAll.readItems_append (htypes : lang.types.Exact IsType) (hvalues : lang.values.Exact IsValue)
    {items : List Item} {front : Stream} (h : WritesAll items front) (hvalid : allValid IsType IsValue items)
    (back : Stream) : lang.readItems (front ++ back) = (lang.readItems back).map (items ++ ·) := by
  -- by the weight, since the body of the first item is no part of the list of what is written
  induction hn : front.weight using Nat.strongRecOn generalizing front items back with
  | _ n ih =>
    subst hn
    cases h with
    | nil => cases hback : lang.readItems back <;> simp [hback, Except.map]
    | @cons item items front rest hitem hrest =>
      obtain ⟨head, inside, hhead, hfront, rfl, hinside⟩ := hitem.exists_head hvalid.1
      obtain ⟨hlighterBody, hlighterRest⟩ :=
        Language.weight_takeHead (takeHead_of_writes htypes hvalues hfront hhead rest)
      have hbody : head.inside lang = .ok inside := by
        unfold Head.inside
        split
        · rename_i hnests
          rw [if_pos hnests] at hinside
          simpa [readItems_nil, Except.map] using ih _ hlighterBody hinside.1 hinside.2 [] rfl
        · rename_i hnests
          rw [if_neg hnests] at hinside
          rw [hinside]
      rw [List.append_assoc, hfront.readItems_append htypes hvalues hhead, hbody]
      simp only [ih _ hlighterRest hrest hvalid.2 back rfl]
      cases lang.readItems back <;> rfl

theorem readItems_of_writes (htypes : lang.types.Exact IsType) (hvalues : lang.values.Exact IsValue)
    {items : List Item} {s : Stream} (h : WritesAll items s) (hvalid : allValid IsType IsValue items) :
    lang.readItems s = .ok items := by
  simpa [readItems_nil, Except.map] using h.readItems_append htypes hvalues hvalid []

/-- Items that are read are written in the stream, and are what they should be, up to brackets that hold too much. -/
theorem writes_of_readItems (htypes : lang.types.Exact IsType) (hvalues : lang.values.Exact IsValue) {s : Stream}
    {items : List Item} (h : lang.readItems s = .ok items) :
    allValid (lang.types.Taken IsType) (lang.values.Taken IsValue) items ∧ WritesAll items s := by
  induction hn : s.weight using Nat.strongRecOn generalizing s items with
  | _ n ih =>
    subst hn
    by_cases hs : s = []
    · subst hs
      rw [readItems_nil] at h
      cases h
      exact ⟨trivial, .nil⟩
    · rw [readItems_cons hs] at h
      split at h
      · cases h
      · rename_i head rest htake
        split at h
        · cases h
        · rename_i inside hinside
          obtain ⟨hlighterBody, hlighterRest⟩ := Language.weight_takeHead htake
          obtain ⟨hvalid, front, hfront, rfl⟩ := writes_of_takeHead htypes hvalues htake
          obtain ⟨items, hitems, rfl⟩ :
              ∃ rest', lang.readItems rest = .ok rest' ∧ head.item inside :: rest' = items := by
            cases hitems : lang.readItems rest with
            | error e => simp [hitems, Except.map] at h
            | ok items' => exact ⟨items', rfl, by simpa [hitems, Except.map] using h⟩
          obtain ⟨hvalidRest, hrest⟩ := ih _ hlighterRest hitems rfl
          have hbody : head.keyword.nests = true →
              allValid (lang.types.Taken IsType) (lang.values.Taken IsValue) inside ∧ WritesAll inside head.body := by
            intro hnests
            rw [Head.inside, if_pos hnests] at hinside
            exact ih _ hlighterBody hinside rfl
          exact ⟨⟨hvalid.item fun hnests => (hbody hnests).1, hvalidRest⟩,
            .cons (hfront.item fun hnests => (hbody hnests).2) hrest⟩

end

end SpecForest.Outline

import SpecForest.Proofs.Outline.Parallel.Phrase
import SpecForest.Proofs.Outline.Written

/-!
# Which outlines are accepted

In a language whose types and values are read exactly, an outline is accepted if it is written from items whose types
and values are those of the language, and those are the items that are read. Reading stops at the first fault: a word
that begins no item, tokens left over where an item could stand, or something other than a comma behind a parameter, a
row or a value. However deep it lies, the fault is that of the whole outline.
-/

namespace SpecForest.Outline

/-! ## Brackets that hold too much -/

theorem PhraseSort.Exact.isPhrase_iff {sort : PhraseSort} {IsPhrase : Stream → Prop} (h : sort.Exact IsPhrase)
    {s : Stream} : IsPhrase s ↔ sort.Taken IsPhrase s ∧ sort.leftover? s = none := by
  constructor
  · intro hs
    exact ⟨fun _ => hs, h.leftover hs⟩
  · rintro ⟨htaken, hleftover⟩
    exact htaken hleftover

section

variable {lang : Language} {IsType IsValue : Stream → Prop}

theorem paramsValid_iff (htypes : lang.types.Exact IsType) {params : List Param} :
    (∀ p ∈ params, p.Valid IsType) ↔
      (∀ p ∈ params, p.Valid (lang.types.Taken IsType)) ∧ paramsLeftover? lang params = none := by
  rw [paramsLeftover?, List.findSome?_eq_none_iff, ← forall₂_and]
  refine forall₂_congr fun p _ => ?_
  constructor
  · rintro ⟨hname, htype⟩
    obtain ⟨htaken, hleftover⟩ := htypes.isPhrase_iff.mp htype
    exact ⟨⟨hname, htaken⟩, hleftover⟩
  · rintro ⟨⟨hname, htaken⟩, hleftover⟩
    exact ⟨hname, htypes.isPhrase_iff.mpr ⟨htaken, hleftover⟩⟩

theorem rowsValid_iff (hvalues : lang.values.Exact IsValue) {rows : List Row} :
    (∀ r ∈ rows, r.Valid IsValue) ↔
      (∀ r ∈ rows, r.Valid (lang.values.Taken IsValue)) ∧ rowsLeftover? lang rows = none := by
  rw [rowsLeftover?, List.findSome?_eq_none_iff, ← forall₂_and]
  refine forall₂_congr fun r _ => ?_
  rw [List.findSome?_eq_none_iff]
  constructor
  · rintro ⟨hlabel, hvalid⟩
    exact ⟨⟨hlabel, fun v hv => (hvalues.isPhrase_iff.mp (hvalid v hv)).1⟩,
      fun v hv => (hvalues.isPhrase_iff.mp (hvalid v hv)).2⟩
  · rintro ⟨⟨hlabel, htaken⟩, hleftover⟩
    exact ⟨hlabel, fun v hv => hvalues.isPhrase_iff.mpr ⟨htaken v hv, hleftover v hv⟩⟩

mutual

theorem Item.valid_iff (htypes : lang.types.Exact IsType) (hvalues : lang.values.Exact IsValue) (item : Item) :
    item.Valid IsType IsValue ↔
      item.Valid (lang.types.Taken IsType) (lang.values.Taken IsValue) ∧ item.leftover? lang = none := by
  cases item with
  | container name items =>
    rw [Item.Valid, Item.Valid, Item.leftover?, allValid_iff htypes hvalues items, and_assoc]
  | leaf name body => simp [Item.Valid, Item.leftover?]
  | table name params rows body =>
    rw [Item.Valid, Item.Valid, Item.leftover?, paramsValid_iff htypes, rowsValid_iff hvalues, Option.or_eq_none_iff]
    tauto
  | subtree name params rows items =>
    rw [Item.Valid, Item.Valid, Item.leftover?, paramsValid_iff htypes, rowsValid_iff hvalues,
      allValid_iff htypes hvalues items, Option.or_eq_none_iff, Option.or_eq_none_iff]
    tauto

theorem allValid_iff (htypes : lang.types.Exact IsType) (hvalues : lang.values.Exact IsValue) (items : List Item) :
    allValid IsType IsValue items ↔
      allValid (lang.types.Taken IsType) (lang.values.Taken IsValue) items ∧ itemsLeftover? lang items = none := by
  cases items with
  | nil => simp [allValid, itemsLeftover?]
  | cons item rest =>
    rw [allValid, allValid, itemsLeftover?, Item.valid_iff htypes hvalues item, allValid_iff htypes hvalues rest,
      Option.or_eq_none_iff]
    tauto

end

/-! ## Outlines -/

theorem outline_eq_ok_iff_readItems {s : Stream} {items : List Item} :
    lang.outline s = .ok items ↔ lang.readItems s = .ok items ∧ itemsLeftover? lang items = none := by
  unfold Language.outline
  cases lang.readItems s with
  | error e => simp
  | ok found =>
    cases hleftover : itemsLeftover? lang found with
    | none =>
      simp only [hleftover]
      constructor
      · rintro ⟨⟩
        exact ⟨rfl, hleftover⟩
      · rintro ⟨⟨⟩, -⟩
        rfl
    | some d =>
      simp only [hleftover]
      constructor
      · exact nofun
      · rintro ⟨⟨⟩, hnone⟩
        rw [hleftover] at hnone
        cases hnone

/-- Items are read exactly as they are written. -/
theorem outline_eq_ok_iff (htypes : lang.types.Exact IsType) (hvalues : lang.values.Exact IsValue) {s : Stream}
    {items : List Item} : lang.outline s = .ok items ↔ allValid IsType IsValue items ∧ WritesAll items s := by
  rw [outline_eq_ok_iff_readItems]
  constructor
  · rintro ⟨hread, hleftover⟩
    obtain ⟨hvalid, hwritten⟩ := writes_of_readItems htypes hvalues hread
    exact ⟨(allValid_iff htypes hvalues items).mpr ⟨hvalid, hleftover⟩, hwritten⟩
  · rintro ⟨hvalid, hwritten⟩
    exact ⟨readItems_of_writes htypes hvalues hwritten hvalid, ((allValid_iff htypes hvalues items).mp hvalid).2⟩

end

/-! ## Everything can be written -/

theorem exists_commaSeparated {α : Type} {Writes : α → Stream → Prop} (h : ∀ a, ∃ s, Writes a s) (as : List α) :
    ∃ s, CommaSeparated Writes as s := by
  induction as with
  | nil => exact ⟨[], .nil⟩
  | cons a as ih =>
    obtain ⟨front, hfront⟩ := h a
    obtain ⟨rest, hrest⟩ := ih
    exact ⟨_, .cons hfront .alone hrest⟩

theorem exists_params (params : List Param) : ∃ s, CommaSeparated Param.Writes params s :=
  exists_commaSeparated (fun _ => ⟨_, .alone, rfl⟩) params

theorem exists_rows (rows : List Row) : ∃ s, CommaSeparated Row.Writes rows s := by
  have hvalue : ∀ v, ∃ s, WritesValue v s := fun v => ⟨v, rfl⟩
  refine exists_commaSeparated (fun row => ?_) rows
  obtain ⟨inner, hinner⟩ := exists_commaSeparated hvalue row.values
  exact ⟨_, inner, hinner, rfl⟩

mutual

theorem Item.exists_writes (item : Item) : ∃ s, item.Writes s := by
  cases item with
  | container name items =>
    obtain ⟨body, hbody⟩ := exists_writesAll items
    exact ⟨_, .container (List.mem_cons_self ..) hbody⟩
  | leaf name body => exact ⟨_, .leaf (List.mem_cons_self ..)⟩
  | table name params rows body =>
    obtain ⟨ps, hps⟩ := exists_params params
    obtain ⟨rs, hrs⟩ := exists_rows rows
    exact ⟨_, .table (List.mem_cons_self ..) hps hrs⟩
  | subtree name params rows items =>
    obtain ⟨ps, hps⟩ := exists_params params
    obtain ⟨rs, hrs⟩ := exists_rows rows
    obtain ⟨body, hbody⟩ := exists_writesAll items
    exact ⟨_, .subtree (List.mem_cons_self ..) hps hrs hbody⟩

theorem exists_writesAll (items : List Item) : ∃ s, WritesAll items s := by
  cases items with
  | nil => exact ⟨[], .nil⟩
  | cons item rest =>
    obtain ⟨front, hfront⟩ := Item.exists_writes item
    obtain ⟨back, hback⟩ := exists_writesAll rest
    exact ⟨_, .cons hfront hback⟩

end

/-! ## Faults -/

/-- A list with a fault in one of its elements, or with something other than a comma behind one. -/
inductive Breaks {α : Type} (take : Stream → Except OutlineError (α × Stream)) : Stream → OutlineError → Prop
  | element {s : Stream} {e : OutlineError} (hs : s ≠ []) (h : take s = .error e) : Breaks take s e
  | comma {s : Stream} {a : α} {x : Tree} {back : Stream} (h : take s = .ok (a, x :: back))
      (hx : ∀ spacing, x ≠ .punct ',' spacing) : Breaks take s (.expectedMark ",")
  | behind {s : Stream} {a : α} {spacing : Spacing} {rest : Stream} {e : OutlineError}
      (h : take s = .ok (a, .punct ',' spacing :: rest)) (hrest : Breaks take rest e) : Breaks take s e

/-- An outline with a fault, and what is wrong there. In front of the fault, everything is as it should be. -/
inductive Fault (lang : Language) (IsType IsValue : Stream → Prop) : Stream → OutlineError → Prop
  /-- A word that begins no item. -/
  | keyword {word : String} {rest : Stream} (hname : isName word = true) (hword : ∀ k : Keyword, word ∉ k.words) :
      Fault lang IsType IsValue (.word word :: rest) (.unknownKeyword word)
  /-- A word that is no name. -/
  | reserved {word : String} {rest : Stream} (hname : isName word = false) :
      Fault lang IsType IsValue (.word word :: rest) (.reserved word)
  /-- Something that is left over where an item could stand. -/
  | leftover {x : Tree} {rest : Stream} (hx : ∀ word, x ≠ .word word) :
      Fault lang IsType IsValue (x :: rest) (.expected .identifier false)
  | params {k : Keyword} {word : String} {name : StringLiteral} {ps rest : Stream} {e : OutlineError}
      (hk : k.isTable = true) (hword : word ∈ k.words) (hname : name.Valid) (h : Breaks lang.takeParam ps e) :
      Fault lang IsType IsValue (.word word :: .literal name.source :: .group .paren ps :: rest) e
  | rows {k : Keyword} {word : String} {name : StringLiteral} {params : List Param} {ps rs rest : Stream}
      {e : OutlineError} (hk : k.isTable = true) (hword : word ∈ k.words) (hname : name.Valid)
      (hvalid : ∀ p ∈ params, p.Valid IsType) (hparams : CommaSeparated Param.Writes params ps)
      (h : Breaks lang.takeRow rs e) :
      Fault lang IsType IsValue (.word word :: .literal name.source :: .group .paren ps :: .group .bracket rs :: rest) e
  /-- A fault in a body, whatever stands behind it. -/
  | body {head : Head} {front back : Stream} {e : OutlineError} (hvalid : head.Valid IsType IsValue) (hwritten : head.Writes front)
      (hnests : head.keyword.nests = true) (h : Fault lang IsType IsValue head.body e) :
      Fault lang IsType IsValue (front ++ back) e
  /-- A fault behind items. -/
  | behind {items : List Item} {front back : Stream} {e : OutlineError} (hvalid : allValid IsType IsValue items)
      (hwritten : WritesAll items front) (h : Fault lang IsType IsValue back e) :
      Fault lang IsType IsValue (front ++ back) e

theorem takePunct_cons {c : Char} {x : Tree} (hx : ∀ spacing, x ≠ .punct c spacing) (rest : Stream) :
    takePunct c (x :: rest) = .error (.expectedMark c.toString) := by
  cases x with
  | punct d spacing =>
    have hd : c ≠ d := by
      rintro rfl
      exact hx spacing rfl
    simp [takePunct, hd]
  | word _ => rfl
  | literal _ => rfl
  | group _ _ => rfl

theorem IsLoop.read_eq_error {α : Type} {read : Stream → Except OutlineError (List α)}
    {take : Stream → Except OutlineError (α × Stream)} (hloop : IsLoop read take) {s : Stream} {e : OutlineError}
    (h : Breaks take s e) : read s = .error e := by
  induction h with
  | element hs h => simp only [hloop.cons hs, h]
  | @comma s a x back h hx =>
    have hmark : takeSeparator (x :: back) = .error (.expectedMark ",") := takePunct_cons hx back
    simp only [hloop.cons (hloop.ne_nil h), h, hmark]
  | @behind s a spacing rest e h _ ih =>
    have hmark : takeSeparator (.punct ',' spacing :: rest) = .ok rest :=
      takeSeparator_eq_ok_iff.mpr (.inr ⟨spacing, rfl⟩)
    simp only [hloop.cons (hloop.ne_nil h), h, hmark, ih, Except.map]

section

variable {lang : Language} {IsType IsValue : Stream → Prop}

/-- A fault in the values of a row is a fault of the row. -/
theorem takeRow_eq_error {label : Option StringLiteral} (hlabel : ∀ l ∈ label, l.Valid) {inner : Stream}
    {e : OutlineError} (h : Breaks lang.values.take inner e) (rest : Stream) :
    lang.takeRow (labelTokens label ++ .group .paren inner :: rest) = .error e := by
  have htake := takeLabel_group hlabel .paren inner rest
  simp [Language.takeRow, htake, takeGroup, (isLoop_readValues lang).read_eq_error h]

/-- The items of an outline with a fault cannot be read. -/
theorem Fault.readItems_eq (htypes : lang.types.Exact IsType) (hvalues : lang.values.Exact IsValue) {s : Stream}
    {e : OutlineError} (h : Fault lang IsType IsValue s e) : lang.readItems s = .error e := by
  induction h with
  | @keyword word rest hname hword =>
    have hnone : Keyword.ofWord? word = none :=
      Option.eq_none_iff_forall_ne_some.mpr fun k hk => hword k (Keyword.ofWord?_eq_some_iff.mp hk)
    simp [readItems_cons, Language.takeHead, takeKeyword, takeName, hname, hnone]
  | reserved hname => simp [readItems_cons, Language.takeHead, takeKeyword, takeName, hname]
  | @leftover x rest hx =>
    have htake : takeName (x :: rest) = .error (.expected .identifier false) := by
      cases x with
      | word w => exact absurd rfl (hx w)
      | punct _ _ => rfl
      | literal _ => rfl
      | group _ _ => rfl
    simp [readItems_cons, Language.takeHead, takeKeyword, htake]
  | params hk hword hname h =>
    simp [readItems_cons, takeHead_cons_cons hword hname, hk, Language.takeTable, takeGroup,
      (isLoop_readParams lang).read_eq_error h]
  | rows hk hword hname hvalid hparams h =>
    have hread := readParams_of_writes htypes hparams hvalid
    simp [readItems_cons, takeHead_cons_cons hword hname, hk, Language.takeTable, takeGroup, hread,
      (isLoop_readRows lang).read_eq_error h]
  | body hvalid hwritten hnests _ ih =>
    -- the body is read before anything behind the item
    rw [hwritten.readItems_append htypes hvalues hvalid, Head.inside, if_pos hnests, ih]
  | behind hvalid hwritten _ ih =>
    -- what has been read is given up
    rw [hwritten.readItems_append htypes hvalues hvalid, ih]
    rfl

theorem Fault.outline_eq (htypes : lang.types.Exact IsType) (hvalues : lang.values.Exact IsValue) {s : Stream}
    {e : OutlineError} (h : Fault lang IsType IsValue s e) : lang.outline s = .error e := by
  simp only [Language.outline, h.readItems_eq htypes hvalues]

end

/-- In a language whose types and values are read exactly, an outline is read as given items if and only if it is
written from them and its types and values are those of the language, and all items can be written. Any fault, at any
depth, is the error of the whole outline: a word that begins no item, tokens left over behind the items or in brackets,
or something other than a comma behind a parameter, a row or a value. -/
theorem outlines_read_as_written (lang : Language) {IsType IsValue : Stream → Prop}
    (htypes : lang.types.Exact IsType) (hvalues : lang.values.Exact IsValue) :
    (∀ (s : Stream) (items : List Item),
        lang.outline s = .ok items ↔ allValid IsType IsValue items ∧ WritesAll items s) ∧
      (∀ items : List Item, ∃ s, WritesAll items s) ∧
      (∀ (s : Stream) (e : OutlineError), Fault lang IsType IsValue s e → lang.outline s = .error e) ∧
      ∀ (label : Option StringLiteral) (inner rest : Stream) (e : OutlineError), (∀ l ∈ label, l.Valid) →
        Breaks lang.values.take inner e → lang.takeRow (labelTokens label ++ .group .paren inner :: rest) = .error e :=
  ⟨fun _ _ => outline_eq_ok_iff htypes hvalues, exists_writesAll, fun _ _ h => h.outline_eq htypes hvalues,
    fun _ _ rest _ hlabel h => takeRow_eq_error hlabel h rest⟩

/-- In the plain language, a table in a container is read with a comma behind its last row, and not without the comma
between its parameters. -/
theorem outlines_read_as_written_table :
    plain.outline [.word "when", .literal "\"c\"", .group .brace [.word "describe_table", .literal "\"t\"",
        .group .paren [.word "a", .punct ':' .alone, .word "i64"],
        .group .bracket [.literal "\"one\"", .group .paren [.literal "1"], .punct ',' .alone], .group .brace []]] =
      .ok [.container ⟨"\"c\"", "c"⟩ [.table ⟨"\"t\"", "t"⟩ [⟨"a", [.word "i64"]⟩]
        [⟨some ⟨"\"one\"", "one"⟩, [[.literal "1"]]⟩] []]] ∧
    plain.outline [.word "when", .literal "\"c\"", .group .brace [.word "describe_table", .literal "\"t\"",
        .group .paren [.word "a", .punct ':' .alone, .word "i64", .word "b", .punct ':' .alone, .word "i64"],
        .group .bracket [], .group .brace []]] = .error (.expectedMark ",") := by
  have hc : StringLiteral.Valid ⟨"\"c\"", "c"⟩ := by simp [StringLiteral.Valid, StringLiteral.ofSource?, cookedValue]
  have ht : StringLiteral.Valid ⟨"\"t\"", "t"⟩ := by simp [StringLiteral.Valid, StringLiteral.ofSource?, cookedValue]
  have hone : StringLiteral.Valid ⟨"\"one\"", "one"⟩ := by
    simp [StringLiteral.Valid, StringLiteral.ofSource?, cookedValue]
  have htype : IsPlain (.type true) [.word "i64"] := ⟨⟨by simp, _, _, rfl⟩, rfl⟩
  have hvalue : IsPlain .value [.literal "1"] := ⟨⟨by simp, _, _, rfl⟩, rfl⟩
  have hwhen : "when" ∈ Keyword.container.words := by decide
  have htable : "describe_table" ∈ Keyword.table.words := by decide
  obtain ⟨hread, -, hfault, -⟩ := outlines_read_as_written plain (exact_plain (.type true)) (exact_plain .value)
  constructor
  · have hparam : Param.Writes ⟨"a", [.word "i64"]⟩ [.word "a", .punct ':' .alone, .word "i64"] := ⟨.alone, rfl⟩
    have hrow : Row.Writes ⟨some ⟨"\"one\"", "one"⟩, [[.literal "1"]]⟩
        [.literal "\"one\"", .group .paren [.literal "1"]] := ⟨_, .last rfl, rfl⟩
    have hrows := CommaSeparated.cons hrow .alone .nil
    refine (hread _ _).mpr ⟨⟨⟨hc, ⟨ht, ?_, ?_⟩, trivial⟩, trivial⟩, ?_⟩
    · simpa using Param.Valid.mk (by decide) htype
    · simpa using Row.Valid.mk (by simpa using hone) (by simpa using hvalue)
    · exact .cons (.container hwhen (.cons (.table htable (.last hparam) hrows) .nil)) .nil
  · have hparam :
        plain.takeParam [.word "a", .punct ':' .alone, .word "i64", .word "b", .punct ':' .alone, .word "i64"] =
          .ok (⟨"a", [.word "i64"]⟩, [.word "b", .punct ':' .alone, .word "i64"]) := rfl
    refine hfault _ _ (.body (.plain hc) (.plain rfl hwhen) rfl ?_)
    exact .params rfl htable ht (.comma hparam nofun)

end SpecForest.Outline

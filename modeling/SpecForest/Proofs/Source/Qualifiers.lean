import SpecForest.Proofs.Source.Calls
import SpecForest.Proofs.Source.Concatenation

/-!
# Qualified names in tables

A name can be written behind a package name and a dot. For the name of a call that a scan comes to this makes no
difference, since the scan steps over the package name and the dot. Within a table it does: an entry is known by
the first token of an argument, and so is a decorator by the first token of an argument of an entry. Behind a
qualifier an entry is not seen, and a decorator is taken for a value of its entry.
-/

namespace SpecForest.Source

/-! ## Qualifiers -/

/-- A package name and a dot. -/
structure Qualifier where
  package : Token
  dot : Token
  package_kind : package.kind = .name
  dot_kind : dot.kind = .symbol '.'

namespace Qualifier

/-- The trees of a qualifier. -/
def trees (q : Qualifier) : List TokenTree :=
  [.token q.package, .token q.dot]

theorem isComma_of_mem_trees (q : Qualifier) : ∀ t ∈ q.trees, t.isComma = false := by
  simp [trees, TokenTree.isComma, q.package_kind, q.dot_kind]

/-- A scan steps over a qualifier. -/
theorem scanTrees_eq (q : Qualifier) (t : Token) (rest : List TokenTree) :
    scanTrees .other (q.trees ++ .token t :: rest) = scanTrees .other (.token t :: rest) := by
  have hdot : Prior.afterToken q.dot = .other := Prior.afterToken_of_kind (by simp [q.dot_kind])
  rw [trees, List.cons_append, scanTrees_token rfl, List.cons_append, scanTrees_token rfl, hdot]
  rfl

/-- What stands behind a qualifier is no entry. -/
theorem entry?_eq_none (q : Qualifier) (arg : List TokenTree) : entry? (q.trees ++ arg) = none := by
  cases arg <;> rfl

theorem functionLiteral?_eq_none (q : Qualifier) (arg : List TokenTree) :
    functionLiteral? (q.trees ++ arg) = none := by
  cases arg <;> rfl

/-- What stands behind a qualifier is no decorator. -/
theorem isDecorator_eq_false (q : Qualifier) (arg : List TokenTree) : isDecorator (q.trees ++ arg) = false := by
  cases arg <;> rfl

/-- What stands behind a qualifier is an expression. -/
theorem readValue_eq (q : Qualifier) {arg : List TokenTree} (h : arg ≠ []) :
    readValue (q.trees ++ arg) = .expr (sourceText (TokenTree.allTokens (q.trees ++ arg))) := by
  have hnone : literal? (q.trees ++ arg) = none := by
    cases arg with
    | nil => exact absurd rfl h
    | cons t rest =>
      have hlong : literal? (q.trees ++ t :: rest) = (concatenation? (q.trees ++ t :: rest)).map .str := rfl
      have hjoin : concatenation? (q.trees ++ t :: rest) = none := by
        simp [trees, concatenation?, q.package_kind]
      rw [hlong, hjoin]
      rfl
  rw [readValue, hnone]
  rfl

end Qualifier

/-! ## Rows of a table -/

/-- The results of those elements of a list that have one, in order. -/
inductive Selects {α β : Type} (P : α → β → Prop) : List α → List β → Prop
  | nil : Selects P [] []
  | taken {a : α} {b : β} {as : List α} {bs : List β} (result : P a b) (rest : Selects P as bs) :
      Selects P (a :: as) (b :: bs)
  | passed {a : α} {as : List α} {bs : List β} (none : ∀ b, ¬ P a b) (rest : Selects P as bs) :
      Selects P (a :: as) bs

theorem selects_iff_filterMap {α β : Type} {P : α → β → Prop} {f : α → Option β}
    (h : ∀ a b, f a = some b ↔ P a b) {as : List α} {bs : List β} :
    Selects P as bs ↔ as.filterMap f = bs := by
  constructor
  · intro hselects
    induction hselects with
    | nil => rfl
    | @taken a b as bs result rest ih => rw [List.filterMap_cons, (h a b).mpr result, ih]
    | @passed a as bs none rest ih =>
      have hnone : f a = .none := Option.eq_none_iff_forall_ne_some.mpr fun b hb => none b ((h a b).mp hb)
      rw [List.filterMap_cons, hnone, ih]
  · rintro rfl
    induction as with
    | nil => exact .nil
    | cons a as ih =>
      rw [List.filterMap_cons]
      cases ha : f a with
      | none => exact .passed (fun b hb => by simp [(h a b).mpr hb] at ha) ih
      | some b => exact .taken ((h a b).mp ha) ih

/-- An argument that is the name of a decorator, or a call of it, and nothing else. -/
inductive IsDecoratorArgument : List TokenTree → Prop
  | name {t : Token} (decorator : t.isDecorator = true) : IsDecoratorArgument [.token t]
  | call {t opening closing : Token} {inner : List TokenTree} (decorator : t.isDecorator = true) :
      IsDecoratorArgument [.token t, .group opening closing .paren inner]

theorem isDecorator_iff (arg : List TokenTree) : isDecorator arg = true ↔ IsDecoratorArgument arg := by
  constructor
  · intro h
    unfold isDecorator at h
    split at h
    · exact .name h
    · exact .call h
    · cases h
  · intro h
    cases h with
    | name decorator => exact decorator
    | call decorator => exact decorator

/-- The row with some values and a description. If that is `nil`, the values describe the row. -/
def rowOf (description : Value) (values : Arguments) : Entry :=
  match description with
  | .nil => .unnamed values
  | v => { description := labelText v, arguments := values }

/-- An argument that is a call of an entry and nothing else, and the row that it stands for. All its arguments
behind the description are values of the row, except for decorators. -/
inductive IsRow : List TokenTree → Entry → Prop
  | call {name opening closing : Token} {inner description : List TokenTree} {params : List (List TokenTree)}
      {values : Arguments} (entry : name.callKind? = some .entry)
      (pieces : splitArguments inner = description :: params)
      (selected : Selects (fun p v => ¬ IsDecoratorArgument p ∧ readValue p = v) params values) :
      IsRow [.token name, .group opening closing .paren inner] (rowOf (readValue description) values)

/-- The values of some arguments of an entry. -/
def rowValues (params : List (List TokenTree)) : Arguments :=
  (params.filter fun p => !isDecorator p).map readValue

theorem selects_rowValues (params : List (List TokenTree)) (values : Arguments) :
    Selects (fun p v => ¬ IsDecoratorArgument p ∧ readValue p = v) params values ↔ rowValues params = values := by
  let value? (p : List TokenTree) : Option Value := if isDecorator p then none else some (readValue p)
  have hvalue : ∀ p v, value? p = some v ↔ ¬ IsDecoratorArgument p ∧ readValue p = v := by
    intro p v
    rw [← isDecorator_iff]
    by_cases hp : isDecorator p = true <;> simp [value?, hp]
  rw [selects_iff_filterMap hvalue]
  have hall : params.filterMap value? = rowValues params := by
    induction params with
    | nil => rfl
    | cons p params ih =>
      by_cases hp : isDecorator p = true
      · simpa [rowValues, value?, hp] using ih
      · simpa [rowValues, value?, hp] using ih
  rw [hall]

theorem entryOf_eq (description : List TokenTree) (params : List (List TokenTree)) :
    entryOf description params = rowOf (readValue description) (rowValues params) := by
  unfold entryOf rowOf
  cases readValue description <;> rfl

/-- An argument is read as an entry exactly if it is a row. -/
theorem entry?_eq_some_iff (arg : List TokenTree) (e : Entry) : entry? arg = some e ↔ IsRow arg e := by
  constructor
  · intro h
    unfold entry? at h
    split at h
    · split at h
      · rename_i hentry
        split at h
        · cases h
        · rename_i description params hpieces
          obtain rfl := Option.some.inj h
          rw [entryOf_eq]
          exact .call hentry hpieces ((selects_rowValues _ _).mpr rfl)
      · cases h
    · cases h
  · intro h
    cases h with
    | call entry pieces selected =>
      rw [Source.entry?, if_pos entry]
      simp only [pieces, entryOf_eq, (selects_rowValues _ _).mp selected]

/-! ## Tables -/

/-- What a table does for its entries. -/
def Call.tableBody (c : Call) : TableBody :=
  match c.kind with
  | .subtreeTable => .replay (scanTrees .other c.body).declarations
  | _ => .leaves .noop

theorem Call.tableBody_withInner {c : Call} {inner : List TokenTree}
    (h : bodyOf? (splitArguments inner) = bodyOf? (splitArguments c.inner)) :
    (c.withInner inner).tableBody = c.tableBody := by
  obtain ⟨kind, name, opening, closing, old⟩ := c
  cases kind with
  | subtreeTable =>
    have hbody : scannedPart .subtreeTable inner = scannedPart .subtreeTable old := by
      rw [scannedPart_eq inner (.inr rfl), scannedPart_eq old (.inr rfl), h]
    exact congrArg (fun part => TableBody.replay (scanTrees .other part).declarations) hbody
  | _ => rfl

theorem Call.declarations_table {c : Call} (hkind : c.kind = .table ∨ c.kind = .subtreeTable) :
    c.declarations = [.table (labelOf (splitArguments c.inner))
      ((bodyOf? (splitArguments c.inner)).bind (·.arity)) (entriesOf (splitArguments c.inner)) c.tableBody] := by
  rcases hkind with hk | hk
  · simp only [Call.declarations, Call.tableBody, hk, declareCall]
  · simp only [Call.declarations, Call.tableBody, hk, declareCall]

/-- What a call declares that a scan comes to is declared by the source. -/
theorem Finds.exists_declared {source : String} {ts : List Token} {trees : List TokenTree} {c : Call}
    {d : Declaration} (hfinds : Finds c .other trees) (htokens : tokens source = .ok ts)
    (hgroup : group ts = .ok trees) (hd : d ∈ c.declarations) :
    ∃ found, scan source = .ok found ∧ Declared d found.declarations := by
  obtain ⟨found, hfound, hdeclared⟩ := exists_scan htokens hgroup
  refine ⟨found, hfound, ?_⟩
  rw [hdeclared]
  exact (declared_scanTrees_iff .other trees).mpr ⟨c, hfinds, hd⟩

section

variable {label arg : List TokenTree} {before after : List (List TokenTree)}

theorem bodyOf?_of_plain (h : functionLiteral? arg = none) :
    bodyOf? ((label :: before) ++ arg :: after) = (before ++ after).findSome? functionLiteral? := by
  simp [bodyOf?, List.findSome?_append, h]

theorem entriesOf_append : entriesOf ((label :: before) ++ arg :: after) =
    before.filterMap entry? ++ (Source.entry? arg).toList ++ after.filterMap entry? := by
  cases hentry : entry? arg <;> simp [entriesOf, hentry]

end

/-- An argument behind the label that is no function literal can be exchanged for another such argument. Of what
the table declares, only the entry that the argument is changes. -/
theorem Call.exchange_argument {c : Call} (hkind : c.kind = .table ∨ c.kind = .subtreeTable)
    {arg : List TokenTree} {before after : List (List TokenTree)}
    (hargs : splitArguments c.inner = before ++ arg :: after) (hbefore : before ≠ [])
    (hplain : functionLiteral? arg = none) :
    ∃ front back first last, c.inner = front ++ (arg ++ back) ∧
      entriesOf (splitArguments c.inner) = first ++ (Source.entry? arg).toList ++ last ∧
      ∀ arg', arg' ≠ [] → (∀ t ∈ arg', t.isComma = false) → functionLiteral? arg' = none →
        (c.withInner (front ++ (arg' ++ back))).declarations =
          [.table (labelOf (splitArguments c.inner)) ((bodyOf? (splitArguments c.inner)).bind (·.arity))
            (first ++ (Source.entry? arg').toList ++ last) c.tableBody] := by
  obtain ⟨-, front, back, hinner, hexchange⟩ := splitArguments_exchange hargs
  obtain ⟨label, before, rfl⟩ := List.exists_cons_of_ne_nil hbefore
  refine ⟨front, back, before.filterMap entry?, after.filterMap entry?, hinner, by rw [hargs, entriesOf_append], ?_⟩
  intro arg' hne hno hplain'
  have hargs' := hexchange arg' hne hno
  have hbody : bodyOf? (splitArguments (front ++ (arg' ++ back))) = bodyOf? (splitArguments c.inner) := by
    rw [hargs', hargs, bodyOf?_of_plain hplain, bodyOf?_of_plain hplain']
  refine (Call.declarations_table (c := c.withInner (front ++ (arg' ++ back))) hkind).trans ?_
  rw [Call.tableBody_withInner hbody, Call.withInner, hbody, hargs', entriesOf_append, hargs]
  rfl

/-! ## Qualifiers in tables -/

/-- What a table call declares, and what becomes of it when a name in it gets a qualifier. -/
structure ReadsUnqualified (c : Call) (label : String) (arity : Option Nat) (entries : List Entry)
    (body : TableBody) : Prop where
  declares : c.declarations = [.table label arity entries body]
  /-- The entries are the arguments behind the label that are rows, in order. -/
  rows : Selects IsRow ((splitArguments c.inner).drop 1) entries
  /-- In front of the name of the table, a qualifier changes nothing. -/
  qualified_table : ∀ (q : Qualifier) (rest : List TokenTree),
    scanTrees .other (q.trees ++ (c.trees ++ rest)) = scanTrees .other (c.trees ++ rest)
  /-- An entry that gets a qualifier is lost. -/
  qualified_entry : ∀ (q : Qualifier) {before after : List (List TokenTree)} {arg : List TokenTree} {e : Entry},
    splitArguments c.inner = before ++ arg :: after → before ≠ [] → IsRow arg e →
    ∃ front back first last, c.inner = front ++ (arg ++ back) ∧ entries = first ++ e :: last ∧
      (c.withInner (front ++ (q.trees ++ arg ++ back))).declarations =
        [.table label arity (first ++ last) body]
  /-- A decorator that gets a qualifier becomes a value of its entry. -/
  qualified_decorator : ∀ (q : Qualifier) {before after params more : List (List TokenTree)} {entry : Call}
    {description decorator : List TokenTree},
    splitArguments c.inner = before ++ entry.trees :: after → before ≠ [] →
    entry.name.callKind? = some .entry →
    splitArguments entry.inner = description :: params ++ decorator :: more → IsDecoratorArgument decorator →
    ∃ front back left right first last values values',
      c.inner = front ++ (entry.trees ++ back) ∧ entry.inner = left ++ (decorator ++ right) ∧
      entries = first ++ rowOf (readValue description) (values ++ values') :: last ∧
      (c.withInner (front ++ ((entry.withInner (left ++ (q.trees ++ decorator ++ right))).trees ++
          back))).declarations =
        [.table label arity (first ++ rowOf (readValue description) (values ++
          .expr (sourceText (TokenTree.allTokens (q.trees ++ decorator))) :: values') :: last) body]

theorem entry?_trees {c : Call} {description : List TokenTree} {params : List (List TokenTree)}
    (hentry : c.name.callKind? = some .entry) (hpieces : splitArguments c.inner = description :: params) :
    entry? c.trees = some (rowOf (readValue description) (rowValues params)) :=
  (entry?_eq_some_iff _ _).mpr (.call hentry hpieces ((selects_rowValues _ _).mpr rfl))

/-- An entry and the same entry with a qualifier in front of a decorator. -/
theorem entry?_qualified_decorator (q : Qualifier) {entry : Call} {description decorator : List TokenTree}
    {params more : List (List TokenTree)} (hentry : entry.name.callKind? = some .entry)
    (hpieces : splitArguments entry.inner = description :: params ++ decorator :: more)
    (hdecorator : IsDecoratorArgument decorator) :
    entry? entry.trees = some (rowOf (readValue description) (rowValues params ++ rowValues more)) ∧
      ∃ left right, entry.inner = left ++ (decorator ++ right) ∧
        entry? (entry.withInner (left ++ (q.trees ++ decorator ++ right))).trees =
          some (rowOf (readValue description) (rowValues params ++
            .expr (sourceText (TokenTree.allTokens (q.trees ++ decorator))) :: rowValues more)) := by
  obtain ⟨hno, left, right, hinner, hexchange⟩ := splitArguments_exchange hpieces
  have hne : decorator ≠ [] := by
    rintro rfl
    cases hdecorator
  have hskipped : rowValues (params ++ decorator :: more) = rowValues params ++ rowValues more := by
    simp [rowValues, (isDecorator_iff decorator).mpr hdecorator]
  have hkept : rowValues (params ++ (q.trees ++ decorator) :: more) = rowValues params ++
      .expr (sourceText (TokenTree.allTokens (q.trees ++ decorator))) :: rowValues more := by
    simp [rowValues, q.isDecorator_eq_false, q.readValue_eq hne]
  have hpieces' := hexchange (q.trees ++ decorator) (by simp [Qualifier.trees])
    (List.forall_mem_append.mpr ⟨q.isComma_of_mem_trees, hno⟩)
  rw [List.cons_append] at hpieces hpieces'
  refine ⟨?_, left, right, hinner, ?_⟩
  · rw [entry?_trees hentry hpieces, hskipped]
  · rw [entry?_trees (c := entry.withInner (left ++ (q.trees ++ decorator ++ right))) hentry hpieces', hkept]

theorem IsRow.functionLiteral?_eq_none {arg : List TokenTree} {e : Entry} (h : IsRow arg e) :
    functionLiteral? arg = none := by
  cases h
  simp [functionLiteral?]

theorem Call.readsUnqualified {c : Call} (hkind : c.kind = .table ∨ c.kind = .subtreeTable) :
    ReadsUnqualified c (labelOf (splitArguments c.inner)) ((bodyOf? (splitArguments c.inner)).bind (·.arity))
      (entriesOf (splitArguments c.inner)) c.tableBody := by
  have hdeclares := Call.declarations_table hkind
  refine ⟨hdeclares, (selects_iff_filterMap entry?_eq_some_iff).mpr rfl, fun q rest => q.scanTrees_eq c.name _,
    ?_, ?_⟩
  · intro q before after arg e hargs hbefore hrow
    obtain ⟨hno, -⟩ := splitArguments_exchange hargs
    obtain ⟨front, back, first, last, hinner, hentries, hexchange⟩ :=
      Call.exchange_argument hkind hargs hbefore hrow.functionLiteral?_eq_none
    have hlost := hexchange (q.trees ++ arg) (by simp [Qualifier.trees])
      (List.forall_mem_append.mpr ⟨q.isComma_of_mem_trees, hno⟩) (q.functionLiteral?_eq_none arg)
    rw [(entry?_eq_some_iff arg e).mpr hrow] at hentries
    rw [q.entry?_eq_none] at hlost
    exact ⟨front, back, first, last, hinner, by simpa using hentries, by simpa using hlost⟩
  · intro q before after params more entry description decorator hargs hbefore hentry hpieces hdecorator
    obtain ⟨hold, left, right, hsplit, hnew⟩ := entry?_qualified_decorator q hentry hpieces hdecorator
    obtain ⟨hno, -⟩ := splitArguments_exchange hargs
    have hplain : ∀ inner, functionLiteral? (entry.withInner inner).trees = none := by
      intro inner
      simp [Call.withInner, Call.trees, functionLiteral?]
    obtain ⟨front, back, first, last, hinner, hentries, hexchange⟩ :=
      Call.exchange_argument hkind hargs hbefore (hplain entry.inner)
    have hgained := hexchange (entry.withInner (left ++ (q.trees ++ decorator ++ right))).trees
      (List.cons_ne_nil _ _) (by simpa [Call.withInner, Call.trees, TokenTree.isComma] using hno) (hplain _)
    rw [hold] at hentries
    rw [hnew] at hgained
    exact ⟨front, back, left, right, first, last, rowValues params, rowValues more, hinner, hsplit,
      by simpa using hentries, by simpa using hgained⟩

/-! ## Sources -/

/-- Every table call that a scan of a source comes to declares a table of the source. Its entries are, in order,
the arguments behind the label that are calls of an entry without a qualifier, and their values are all arguments
but the decorators without a qualifier. A qualifier in front of the name of the table changes nothing, one in
front of an entry loses the entry, and one in front of a decorator makes a value of it. -/
theorem scan_tables_read_unqualified {source : String} {found : Scanned} {ts : List Token}
    {trees : List TokenTree} (h : scan source = .ok found) (htokens : tokens source = .ok ts)
    (hgroup : group ts = .ok trees) {c : Call} (hfinds : Finds c .other trees)
    (hkind : c.kind = .table ∨ c.kind = .subtreeTable) :
    ∃ label arity entries body, Declared (.table label arity entries body) found.declarations ∧
      ReadsUnqualified c label arity entries body := by
  obtain ⟨found₀, hfound₀, hdeclared⟩ := exists_scan htokens hgroup
  rw [h] at hfound₀
  cases hfound₀
  have hreads := Call.readsUnqualified hkind
  refine ⟨_, _, _, _, ?_, hreads⟩
  rw [hdeclared]
  exact (declared_scanTrees_iff .other trees).mpr ⟨c, hfinds, by rw [hreads.declares]; exact List.mem_singleton_self _⟩

set_option maxRecDepth 2000 in
/-- A table with two entries, of which the second is lost behind any qualifier. -/
theorem scan_tables_read_unqualified_two_entries :
    ∃ found, scan "DescribeTable(\"t\", f, Entry(\"a\", 1, Label(\"x\")), Entry(\"b\", 2))" = .ok found ∧
      Declared (.table "t" none [⟨"a", [.int 1]⟩, ⟨"b", [.int 2]⟩] (.leaves .noop)) found.declarations ∧
      ∃ c : Call, ∀ q : Qualifier, ∃ arg front back first last, c.inner = front ++ (arg ++ back) ∧
        [⟨"a", [.int 1]⟩, ⟨"b", [.int 2]⟩] = first ++ (⟨"b", [.int 2]⟩ : Entry) :: last ∧
        (c.withInner (front ++ (q.trees ++ arg ++ back))).declarations =
          [.table "t" none (first ++ last) (.leaves .noop)] := by
  obtain ⟨ts, trees, c, before, arg, htokens, hgroup, hfinds, hkind, hargs, hbefore, hentry, hdeclares⟩ :
      ∃ ts trees c before arg,
        tokens "DescribeTable(\"t\", f, Entry(\"a\", 1, Label(\"x\")), Entry(\"b\", 2))" = .ok ts ∧
        group ts = .ok trees ∧ Finds c .other trees ∧ c.kind = .table ∧
        splitArguments c.inner = before ++ [arg] ∧ before ≠ [] ∧ entry? arg = some ⟨"b", [.int 2]⟩ ∧
        c.declarations = [.table "t" none [⟨"a", [.int 1]⟩, ⟨"b", [.int 2]⟩] (.leaves .noop)] :=
    ⟨_, _, _, [_, _, _], _, by cbv, by cbv, @Finds.here ⟨.table, _, _, _, _⟩ .other [] rfl, rfl, rfl, by simp, rfl,
      rfl⟩
  obtain ⟨found, hfound, -⟩ := exists_scan htokens hgroup
  obtain ⟨label, arity, entries, body, hdeclared, hreads⟩ :=
    scan_tables_read_unqualified hfound htokens hgroup hfinds (.inl hkind)
  have hsame := hdeclares.symm.trans hreads.declares
  simp only [List.cons.injEq, Declaration.table.injEq, and_true] at hsame
  obtain ⟨rfl, rfl, rfl, rfl⟩ := hsame
  refine ⟨found, hfound, hdeclared, c, fun q => ⟨arg, ?_⟩⟩
  exact hreads.qualified_entry q hargs hbefore ((entry?_eq_some_iff _ _).mp hentry)

set_option maxRecDepth 2000 in
/-- The same table with and without qualifiers: one entry is lost, and the other has one value more. -/
theorem scan_qualified_entry_lost :
    let declares (source : String) (entries : List Entry) :=
      ∃ found, scan source = .ok found ∧ found.declarations = [.table "t" none entries (.leaves .noop)]
    let plain : List Entry := [⟨"a", [.int 1]⟩, ⟨"b", [.int 2]⟩]
    let qualified : List Entry := [⟨"a", [.int 1, .expr "ginkgo.Label(\"x\")"]⟩]
    declares "DescribeTable(\"t\", f, Entry(\"a\", 1, Label(\"x\")), Entry(\"b\", 2))" plain ∧
      declares "DescribeTable(\"t\", f, Entry(\"a\", 1, ginkgo.Label(\"x\")), ginkgo.Entry(\"b\", 2))"
        qualified ∧ plain ≠ qualified := by
  intro declares plain qualified
  have hscan : ∀ {source : String} {entries : List Entry} {ts : List Token} {trees : List TokenTree},
      tokens source = .ok ts → group ts = .ok trees →
      (scanTrees .other trees).declarations = [.table "t" none entries (.leaves .noop)] →
      declares source entries := by
    intro source entries ts trees htokens hgroup htrees
    obtain ⟨found, hfound, hdeclared⟩ := exists_scan htokens hgroup
    exact ⟨found, hfound, hdeclared.trans htrees⟩
  refine ⟨hscan (by cbv) (by cbv) ?_, hscan (by cbv) (by cbv) ?_, by decide⟩
  · rw [scanTrees_call (k := .table) rfl, scanTrees_nil]
    rfl
  · rw [scanTrees_call (k := .table) rfl, scanTrees_nil]
    rfl

end SpecForest.Source

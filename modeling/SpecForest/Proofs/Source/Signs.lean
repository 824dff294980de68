import SpecForest.Proofs.Source.Qualifiers
import SpecForest.Proofs.Source.RoundTrip

/-!
# Signed numbers

A sign is a token of its own, and the number behind it is read by itself before the sign is looked at. So the digits
behind a minus sign must fit without it, and the least integer, of which the digits do not fit, stays an expression.
The sign then concerns digits only: a rune behind a minus sign is read as it is without the sign.
-/

namespace SpecForest.Source

/-! ## Literals behind a sign -/

theorem readValue_eq_int_iff (t : Token) (n : Int64) :
    readValue [.token t] = .int n ↔ t.literal? false = some (.int n) := by
  rw [readValue, literal?]
  cases t.literal? false with
  | none => simp
  | some v => simp

/-- A token that is read as an integer is a number or a rune. -/
theorem Token.kind_of_literal? {t : Token} {n : Int64} (h : t.literal? false = some (.int n)) :
    t.kind = .integer ∨ ∃ c, t.kind = .rune c := by
  cases hkind : t.kind with
  | integer => exact .inl rfl
  | rune c => exact .inr ⟨c, rfl⟩
  | name =>
    simp only [Token.literal?, hkind] at h
    split at h <;> simp at h
  | _ => simp [Token.literal?, hkind] at h

/-- A number that fits is not negative, so its opposite fits as well. -/
theorem Token.literal?_minus {t : Token} {n : Int64} (hkind : t.kind = .integer)
    (h : t.literal? false = some (.int n)) :
    t.literal? true = some (.int (-n)) ∧ (-n).toInt = -n.toInt := by
  simp only [Token.literal?, hkind] at h ⊢
  cases hvalue : (integerValue? t.text.toList).filter (· ≤ greatestInteger) with
  | none =>
    rw [hvalue] at h
    cases h
  | some m =>
    have hfits : m ≤ greatestInteger := by simpa using (Option.filter_eq_some_iff.mp hvalue).2
    simp only [greatestInteger] at hfits
    rw [hvalue] at h
    obtain rfl : Int64.ofInt m = n := by simpa using h
    refine ⟨by rw [← Int64.ofInt_neg]; rfl, ?_⟩
    rw [← Int64.ofInt_neg, Int64.toInt_ofInt_of_le (by omega) (by omega),
      Int64.toInt_ofInt_of_le (by omega) (by omega)]

theorem Token.literal?_rune {t : Token} {c : Char} (hkind : t.kind = .rune c) (negative : Bool) :
    t.literal? negative = t.literal? false := by
  simp only [Token.literal?, hkind]

/-- The integer `v` that is read for a literal behind a sign, if it is read as `n` by itself. -/
structure ReadsSigned (sign t : Token) (n v : Int64) : Prop where
  literal : t.kind = .integer ∨ ∃ c, t.kind = .rune c
  plus : sign.kind = .symbol '+' → v = n
  /-- A minus sign changes the sign of digits, in whatever base. -/
  minus : sign.kind = .symbol '-' → t.kind = .integer → v = -n ∧ v.toInt = -n.toInt
  /-- A minus sign does not change a rune. -/
  minus_rune : sign.kind = .symbol '-' → ∀ c, t.kind = .rune c → v = n

theorem readValue_signed {sign t : Token} {n : Int64}
    (hsign : sign.kind = .symbol '-' ∨ sign.kind = .symbol '+') (h : readValue [.token t] = .int n) :
    ∃ v, readValue [.token sign, .token t] = .int v ∧ ReadsSigned sign t n v := by
  rw [readValue_eq_int_iff] at h
  have hread : ∀ v, t.literal? (sign.isSymbol '-') = some (.int v) →
      readValue [.token sign, .token t] = .int v := by
    intro v hv
    have hsymbol : (sign.isSymbol '-' || sign.isSymbol '+') = true := by
      simpa [Token.isSymbol] using hsign
    rw [readValue, literal?, if_pos hsymbol, hv]
    rfl
  have hliteral := Token.kind_of_literal? h
  rcases hsign with hminus | hplus
  · have hsymbol : sign.isSymbol '-' = true := by simp [Token.isSymbol, hminus]
    rw [hsymbol] at hread
    rcases hliteral with hdigits | ⟨c, hrune⟩
    · obtain ⟨hneg, hint⟩ := Token.literal?_minus hdigits h
      exact ⟨-n, hread _ hneg, .inl hdigits, by simp [hminus], fun _ _ => ⟨rfl, hint⟩, by simp [hdigits]⟩
    · rw [Token.literal?_rune hrune] at hread
      exact ⟨n, hread _ h, .inr ⟨c, hrune⟩, fun _ => rfl, by simp [hrune], fun _ _ _ => rfl⟩
  · have hsymbol : sign.isSymbol '-' = false := by simp [Token.isSymbol, hplus]
    rw [hsymbol] at hread
    exact ⟨n, hread _ h, hliteral, fun _ => rfl, by simp [hplus], fun _ _ _ => rfl⟩

/-! ## Signs in entries -/

/-- An entry among the arguments of a table is a row of the table, between the rows that stand before and behind
it. -/
theorem entriesOf_eq_row {before params : List (List TokenTree)} (after : List (List TokenTree))
    {description : List TokenTree} {entry : Call} (hbefore : before ≠ []) (hentry : entry.name.callKind? = some .entry)
    (hpieces : splitArguments entry.inner = description :: params) :
    ∃ first last, Selects IsRow (before.drop 1) first ∧ Selects IsRow after last ∧
      entriesOf (before ++ entry.trees :: after) =
        first ++ rowOf (readValue description) (rowValues params) :: last := by
  obtain ⟨label, before, rfl⟩ := List.exists_cons_of_ne_nil hbefore
  refine ⟨before.filterMap entry?, after.filterMap entry?, (selects_iff_filterMap entry?_eq_some_iff).mpr rfl,
    (selects_iff_filterMap entry?_eq_some_iff).mpr rfl, ?_⟩
  rw [entriesOf_append, entry?_trees hentry hpieces]
  simp

theorem rowValues_append_cons {params more : List (List TokenTree)} {arg : List TokenTree}
    (h : isDecorator arg = false) :
    rowValues (params ++ arg :: more) = rowValues params ++ readValue arg :: rowValues more := by
  simp [rowValues, h]

/-- Every argument of an entry that is a sign and a literal, where the literal by itself is read as an integer, is
an integer of that row: the same behind a plus sign, the opposite if digits are behind a minus sign, and still the same
if a rune is. -/
theorem scan_signed_literals {source : String} {ts : List Token} {trees : List TokenTree}
    (htokens : tokens source = .ok ts) (hgroup : group ts = .ok trees) {c entry : Call}
    (hfinds : Finds c .other trees) (hkind : c.kind = .table ∨ c.kind = .subtreeTable)
    {before after params more : List (List TokenTree)} {description : List TokenTree} {sign t : Token} {n : Int64}
    (hargs : splitArguments c.inner = before ++ entry.trees :: after) (hbefore : before ≠ [])
    (hentry : entry.name.callKind? = some .entry)
    (hpieces : splitArguments entry.inner = description :: params ++ [.token sign, .token t] :: more)
    (hsign : sign.kind = .symbol '-' ∨ sign.kind = .symbol '+') (hown : readValue [.token t] = .int n) :
    ∃ found label arity first last body v, scan source = .ok found ∧
      Declared (.table label arity (first ++ rowOf (readValue description)
        (rowValues params ++ .int v :: rowValues more) :: last) body) found.declarations ∧
      Selects IsRow (before.drop 1) first ∧ Selects IsRow after last ∧ ReadsSigned sign t n v := by
  obtain ⟨v, hvalue, hsigned⟩ := readValue_signed hsign hown
  rw [List.cons_append] at hpieces
  obtain ⟨first, last, hfirst, hlast, hentries⟩ := entriesOf_eq_row after hbefore hentry hpieces
  have hdeclares := Call.declarations_table hkind
  rw [rowValues_append_cons rfl, hvalue, ← hargs] at hentries
  rw [hentries] at hdeclares
  obtain ⟨found, hfound, hdeclared⟩ :=
    hfinds.exists_declared htokens hgroup (hdeclares ▸ List.mem_singleton_self _)
  exact ⟨found, _, _, first, last, _, v, hfound, hdeclared, hfirst, hlast, hsigned⟩

set_option maxRecDepth 2000 in
/-- The second argument of an entry, hexadecimal digits behind a minus sign. -/
theorem scan_signed_literals_hexadecimal :
    ∃ found label arity first last body,
      scan "DescribeTable(\"t\", f, Entry(\"d\", true, -0x61))" = .ok found ∧
      Declared (.table label arity (first ++ ⟨"d", [.bool true, .int (-97)]⟩ :: last) body) found.declarations := by
  obtain ⟨ts, trees, c, entry, before, description, params, sign, t, htokens, hgroup, hfinds, hkind, hargs, hbefore,
      hentry, hpieces, hsign, hdigits, hown, hrow⟩ :
      ∃ ts trees c entry before description params sign t,
        tokens "DescribeTable(\"t\", f, Entry(\"d\", true, -0x61))" = .ok ts ∧ group ts = .ok trees ∧
        Finds c .other trees ∧ c.kind = .table ∧ splitArguments c.inner = before ++ [Call.trees entry] ∧ before ≠ [] ∧
        entry.name.callKind? = some .entry ∧
        splitArguments entry.inner = description :: params ++ [[.token sign, .token t]] ∧
        sign.kind = .symbol '-' ∧ t.kind = .integer ∧ readValue [.token t] = .int 97 ∧
        ∀ v, rowOf (readValue description) (rowValues params ++ [v]) = ⟨"d", [.bool true, v]⟩ := by
    exact ⟨_, _, _, ⟨.entry, _, _, _, _⟩, [_, _], _, [_], _, _, by cbv, by cbv,
      @Finds.here ⟨.table, _, _, _, _⟩ .other [] rfl, rfl, rfl, by simp, rfl, rfl, rfl, rfl, rfl, fun _ => rfl⟩
  obtain ⟨found, label, arity, first, last, body, v, hfound, hdeclared, -, -, hsigned⟩ :=
    scan_signed_literals htokens hgroup hfinds (.inl hkind) hargs hbefore hentry hpieces (.inl hsign) hown
  obtain ⟨rfl, -⟩ := hsigned.minus hsign hdigits
  refine ⟨found, label, arity, first, last, body, hfound, ?_⟩
  rwa [show rowValues [] = [] from rfl, hrow] at hdeclared

set_option maxRecDepth 2000 in
/-- A rune with and without a minus sign: both are read as the code of the rune. -/
theorem scan_minus_rune_unsigned :
    let declares (source : String) (arguments : Arguments) := ∃ found, scan source = .ok found ∧
      found.declarations = [.table "t" none [⟨"d", arguments⟩] (.leaves .noop)]
    declares "DescribeTable(\"t\", f, Entry(\"d\", 'a'))" [.int 97] ∧
      declares "DescribeTable(\"t\", f, Entry(\"d\", -'a'))" [.int 97] ∧ (-97 : Int64) ≠ 97 := by
  refine ⟨exists_scan_declaring (by cbv) (by cbv) ?_, exists_scan_declaring (by cbv) (by cbv) ?_, by decide⟩
  · rw [scanTrees_call (k := .table) rfl, scanTrees_nil]
    rfl
  · rw [scanTrees_call (k := .table) rfl, scanTrees_nil]
    rfl

/-! ## Integers in decimal -/

/-- The text of the least integer is read as an expression, since its digits are too great by one. -/
theorem readsArgument_leastInteger :
    ReadsArgument (Value.int Int64.minValue).text.toList
      (HasRole (.value (.expr (Value.int Int64.minValue).text))) := by
  have hdigits : Nat.toDigits 10 (greatestInteger + 1) = "9223372036854775808".toList := by decide
  have htext : (Value.int Int64.minValue).text.toList = '-' :: Nat.toDigits 10 (greatestInteger + 1) := by
    rw [hdigits]
    rfl
  intro gap next hgap hnext
  rw [htext]
  refine ⟨_, reads_minus_toDigits _ hgap hnext.endsNumber, isArgument_minus _ _, .of_value ?_ rfl rfl rfl⟩
  have hnone : (bareToken [] (Nat.toDigits 10 (greatestInteger + 1)) .integer).literal? true = none := by
    simp [Token.literal?, bareToken, integerValue?_toDigits]
  have hsign : (bareToken gap ['-'] (.symbol '-')).isSymbol '-' = true := rfl
  rw [readValue, literal?, hsign, Bool.true_or, if_pos rfl, hnone, hdigits]
  rfl

/-- The text of any other integer is read as that integer. -/
theorem readsArgument_decimal (n : Int64) :
    ReadsArgument (Value.int n).text.toList
      (HasRole (.value (if n = Int64.minValue then .expr (Value.int n).text else .int n))) := by
  by_cases hn : n = Int64.minValue
  · rw [if_pos hn, hn]
    exact readsArgument_leastInteger
  · have habove : Int64.minValue < n := by
      have hne : n.toInt ≠ Int64.minValue.toInt := fun h => hn (Int64.toInt_inj.mp h)
      have hle := Int64.le_toInt n
      rw [Int64.lt_iff_toInt_lt]
      rw [Int64.toInt_minValue] at hne ⊢
      omega
    rw [if_neg hn]
    exact readsArgument_int habove

/-- An entry with a description and one argument. -/
theorem readsArgument_entry (name : CallName .entry) (description : StringText) {arg : List Char} {v : Value}
    (h : ReadsArgument arg (HasRole (.value v))) :
    ReadsArgument (callText name.text [description.text, arg] false)
      (HasRole (.entry ⟨description.value, [v]⟩)) := by
  have hargs : ∀ a ∈ [(description.text, Value.str description.value), (arg, v)],
      ReadsArgument (Prod.fst a) (HasRole (.value a.2)) := by
    intro a ha
    rcases List.mem_cons.mp ha with rfl | ha
    · exact description.readsArgument
    · obtain rfl := List.mem_singleton.mp ha
      exact h
  refine (readsArgument_entryCall name hargs false).mono ?_
  rintro ts ⟨first, pieces, hfirst, hpieces, hrole⟩
  obtain ⟨piece, rest, hpiece, hrest, rfl⟩ := List.forall₂_cons_left_iff.mp hpieces
  obtain rfl := List.forall₂_nil_left_iff.mp hrest
  obtain ⟨hvalue, hdecorator⟩ := hpiece.value v rfl
  have hentry : entryOf first [piece] = ⟨description.value, [v]⟩ := by
    simp [entryOf, hdecorator, hvalue, (hfirst.value _ rfl).1, labelText]
  rwa [hentry] at hrole

/-- A string of one character between double quotes. -/
def StringText.single (c : Char) (h : c ≠ '"' ∧ c ≠ '\\' ∧ c ≠ '\n') : StringText where
  value := String.ofList [c]
  text := ['"', c, '"']
  writes := .interpreted (by
    rw [String.toList_ofList]
    exact .cons (.plain h.1 h.2.1 h.2.2) .nil)

/-- A table with one entry, and in it one argument. -/
theorem scan_entry_of_reads {arg : List Char} {v : Value} (h : ReadsArgument arg (HasRole (.value v))) :
    ∃ events, scan ("DescribeTable(\"t\", f, Entry(\"d\", " ++ String.ofList arg ++ "))") =
      .ok ⟨[.table "t" none [⟨"d", [v]⟩] (.leaves .noop)], events⟩ := by
  let label : StringText := .single 't' (by decide)
  let description : StringText := .single 'd' (by decide)
  let table : CallName .table := ⟨none, "DescribeTable", by decide⟩
  let entry : CallName .entry := ⟨none, "Entry", by decide⟩
  let args : List (List Char × Role) :=
    [(['f'], .other), (callText entry.text [description.text, arg] false, .entry ⟨"d", [v]⟩)]
  have hargs : ∀ a ∈ args, ReadsArgument (Prod.fst a) (HasRole a.2) :=
    List.forall_mem_cons.mpr ⟨WrittenBody.readsArgument (.named ⟨['f'], by decide⟩),
      List.forall_mem_singleton.mpr (readsArgument_entry entry description h)⟩
  have hgap : ∀ c ∈ ([] : List Char), Text.isBlank c = true := by simp
  obtain ⟨events, hscan⟩ := (readsBlock_call none table label.readsArgument hargs false hgap).scan_eq
  refine ⟨events, Eq.trans (congrArg scan ?_) hscan⟩
  apply String.toList_injective
  simp [args, table, entry, label, description, StringText.single, callText, commaSeparated, qualifierText,
    CallName.text]

/-- In a table with one entry, the decimal text of an integer is read as that integer, except for the least integer,
of which the text is kept as an expression. -/
theorem scan_decimal_entry (n : Int64) :
    ∃ events, scan ("DescribeTable(\"t\", f, Entry(\"d\", " ++ (Value.int n).text ++ "))") =
      .ok ⟨[.table "t" none
        [⟨"d", [if n = Int64.minValue then .expr (Value.int n).text else .int n]⟩] (.leaves .noop)], events⟩ := by
  obtain ⟨events, hscan⟩ := scan_entry_of_reads (readsArgument_decimal n)
  rw [String.ofList_toList] at hscan
  exact ⟨events, hscan⟩

/-- The least integer does not come back from its text. -/
theorem scan_least_integer_as_expression :
    (Value.int Int64.minValue).text = "-9223372036854775808" ∧
      ∃ found, scan "DescribeTable(\"t\", f, Entry(\"d\", -9223372036854775808))" = .ok found ∧
        found.declarations = [.table "t" none [⟨"d", [.expr "-9223372036854775808"]⟩] (.leaves .noop)] ∧
        Value.expr "-9223372036854775808" ≠ .int Int64.minValue := by
  have htext : (Value.int Int64.minValue).text = "-9223372036854775808" := rfl
  obtain ⟨events, hscan⟩ := scan_entry_of_reads readsArgument_leastInteger
  rw [String.ofList_toList, htext] at hscan
  exact ⟨htext, _, hscan, rfl, by simp⟩

end SpecForest.Source

import SpecForest.Proofs.Source.Qualifiers
import SpecForest.Proofs.Source.RoundTrip

/-!
# The arity of a table

A table whose body is a function literal takes its arity from the parameters: their number, less one for a context that
the runner supplies, and unknown if the last parameter is variadic. Two things are looked at more coarsely than that.
An ellipsis counts wherever it stands among the parameters, within brackets too, and the type of a context is told by
its characters, of which the last may be those of another type. Where neither makes a difference, the arity is as it
should be.
-/

namespace SpecForest.Source

/-! ## Parameters -/

/-- Whether a tree is an ellipsis. -/
def TokenTree.isEllipsis : TokenTree → Bool
  | token t => t.kind == .ellipsis
  | group _ _ _ _ => false

/-- A parameter that takes any number of arguments: it has an ellipsis outside of brackets. -/
def IsVariadic (param : List TokenTree) : Prop :=
  ∃ t ∈ param, t.isEllipsis = true

instance (param : List TokenTree) : Decidable (IsVariadic param) :=
  inferInstanceAs (Decidable (∃ t ∈ param, t.isEllipsis = true))

/-- A parameter that is a name and the type of a context. -/
inductive IsContext : List TokenTree → Prop
  | plain {name type : Token} (name_kind : name.kind = .name) (type_text : type.text = "SpecContext") :
      IsContext [.token name, .token type]
  | qualified {name package dot type : Token} (name_kind : name.kind = .name) (package_kind : package.kind = .name)
      (dot_text : dot.text = ".") (type_text : type.text = "SpecContext") :
      IsContext [.token name, .token package, .token dot, .token type]
  | standard {name package dot type : Token} (name_kind : name.kind = .name) (package_text : package.text = "context")
      (dot_text : dot.text = ".") (type_text : type.text = "Context") :
      IsContext [.token name, .token package, .token dot, .token type]

/-- Characters that are those of a context's type, or that end like them. -/
def SpellsContext (chars : List Char) : Prop :=
  chars = "SpecContext".toList ∨ ".SpecContext".toList <:+ chars ∨ chars = "context.Context".toList

/-- A parameter that is spelled as a context behind its first token. -/
def IsSpelledContext (param : List TokenTree) : Prop :=
  ∃ first type, TokenTree.allTokens param = first :: type ∧ SpellsContext (type.flatMap (·.text.toList))

theorem IsContext.isSpelledContext {param : List TokenTree} (h : IsContext param) : IsSpelledContext param := by
  cases h with
  | @plain name type name_kind type_text =>
    refine ⟨name, [type], rfl, .inl ?_⟩
    simp [type_text]
  | @qualified name package dot type name_kind package_kind dot_text type_text =>
    refine ⟨name, [package, dot, type], rfl, .inr (.inl ⟨package.text.toList, ?_⟩)⟩
    simp [dot_text, type_text]
  | @standard name package dot type name_kind package_text dot_text type_text =>
    refine ⟨name, [package, dot, type], rfl, .inr (.inr ?_)⟩
    simp [package_text, dot_text, type_text]

theorem spellsContext_iff (text : String) :
    (text == "SpecContext" || text.endsWith ".SpecContext" || text == "context.Context") = true ↔
      SpellsContext text.toList := by
  have hends : text.endsWith ".SpecContext" = true ↔ ".SpecContext".toList <:+ text.toList := by
    rw [String.endsWith_eq_endsWith_toSlice, String.Slice.endsWith_string_iff, String.copy_toSlice]
  rw [Bool.or_eq_true, Bool.or_eq_true, hends, beq_iff_eq, beq_iff_eq, SpellsContext, String.toList_inj,
    String.toList_inj, or_assoc]

theorem isContextParam_iff (param : List TokenTree) : isContextParam param = true ↔ IsSpelledContext param := by
  unfold isContextParam IsSpelledContext
  cases TokenTree.allTokens param with
  | nil => simp
  | cons first type =>
    have hchars : (String.join (type.map Token.text)).toList = type.flatMap (·.text.toList) := by
      rw [String.toList_join, List.flatMap_map]
    have hspells := spellsContext_iff (String.join (type.map Token.text))
    rw [hchars] at hspells
    cases type with
    | nil => simp [SpellsContext]
    | cons second type => simpa using hspells

/-! ## Function literals -/

/-- There is an ellipsis among some tokens, within brackets or not. -/
def HasEllipsis (ts : List TokenTree) : Prop :=
  ∃ t ∈ TokenTree.allTokens ts, t.kind = .ellipsis

instance (ts : List TokenTree) : Decidable (HasEllipsis ts) :=
  inferInstanceAs (Decidable (∃ t ∈ TokenTree.allTokens ts, t.kind = .ellipsis))

theorem IsVariadic.hasEllipsis {param : List TokenTree} (h : IsVariadic param) : HasEllipsis param := by
  obtain ⟨tree, hmem, hellipsis⟩ := h
  obtain ⟨front, back, rfl⟩ := List.append_of_mem hmem
  cases tree with
  | token t =>
    refine ⟨t, ?_, by simpa [TokenTree.isEllipsis] using hellipsis⟩
    simp [allTokens_append, TokenTree.allTokens, TokenTree.tokens]
  | group opening closing d inner => cases hellipsis

theorem hasEllipsis_iff (ts : List TokenTree) :
    (TokenTree.allTokens ts).any (·.kind == .ellipsis) = true ↔ HasEllipsis ts := by
  simp [HasEllipsis]

/-- An ellipsis among the parameters is in one of them. -/
theorem hasEllipsis_splitArguments (params : List TokenTree) :
    HasEllipsis params ↔ ∃ p ∈ splitArguments params, HasEllipsis p := by
  rw [← hasEllipsis_iff, any_ellipsis_splitArguments, List.any_eq_true]
  simp only [hasEllipsis_iff]

theorem FunctionLiteral.arity_of_ellipsis {f : FunctionLiteral} (h : HasEllipsis f.params) : f.arity = none := by
  rw [← hasEllipsis_iff] at h
  simp [FunctionLiteral.arity, h]

/-- The first parameter is spelled as a context. -/
def BeginsSpelled (params : List (List TokenTree)) : Prop :=
  ∃ first ∈ params.head?, IsSpelledContext first

theorem FunctionLiteral.arity_of_spelled {f : FunctionLiteral} (h : ¬ HasEllipsis f.params)
    (hspelled : BeginsSpelled (splitArguments f.params)) :
    f.arity = some ((splitArguments f.params).length - 1) := by
  obtain ⟨first, hfirst, hcontext⟩ := hspelled
  obtain ⟨rest, hsplit⟩ := List.head?_eq_some_iff.mp hfirst
  rw [← hasEllipsis_iff, Bool.not_eq_true] at h
  rw [← isContextParam_iff] at hcontext
  simp [FunctionLiteral.arity, h, hsplit, hcontext]

theorem FunctionLiteral.arity_of_not_spelled {f : FunctionLiteral} (h : ¬ HasEllipsis f.params)
    (hspelled : ¬ BeginsSpelled (splitArguments f.params)) :
    f.arity = some (splitArguments f.params).length := by
  rw [← hasEllipsis_iff, Bool.not_eq_true] at h
  cases hsplit : splitArguments f.params with
  | nil => simp [FunctionLiteral.arity, h, hsplit]
  | cons first rest =>
    have hcontext : isContextParam first = false := by
      rw [← Bool.not_eq_true, isContextParam_iff]
      exact fun hfirst => hspelled ⟨first, by simp [hsplit], hfirst⟩
    simp [FunctionLiteral.arity, h, hsplit, hcontext]

/-- The last parameter is variadic. -/
def EndsVariadic (params : List (List TokenTree)) : Prop :=
  ∃ last ∈ params.getLast?, IsVariadic last

/-- The first parameter is a context. -/
def BeginsWithContext (params : List (List TokenTree)) : Prop :=
  ∃ first ∈ params.head?, IsContext first

/-- The number of arguments that a table takes from an entry, given the parameters of its body. -/
structure CountsParameters (params : List (List TokenTree)) (arity : Option Nat) : Prop where
  unknown_iff : arity = none ↔ EndsVariadic params
  with_context : ¬ EndsVariadic params → BeginsWithContext params → arity = some (params.length - 1)
  without_context : ¬ EndsVariadic params → ¬ BeginsWithContext params → arity = some params.length

/-- Parameters that are what they seem. If there is an ellipsis at all, the last parameter is variadic; and if it is
not, what is spelled as a context in the first place is one. -/
structure PlainParameters (params : List (List TokenTree)) : Prop where
  ellipsis : ∀ p ∈ params, HasEllipsis p → EndsVariadic params
  context : ¬ EndsVariadic params → ∀ first ∈ params.head?, IsSpelledContext first → IsContext first

theorem EndsVariadic.hasEllipsis {params : List TokenTree} (h : EndsVariadic (splitArguments params)) :
    HasEllipsis params := by
  obtain ⟨last, hlast, hvariadic⟩ := h
  exact (hasEllipsis_splitArguments params).mpr ⟨last, List.mem_of_getLast? hlast, hvariadic.hasEllipsis⟩

/-- The arity is unknown exactly if there is an ellipsis anywhere among the parameters. -/
theorem FunctionLiteral.arity_eq_none_iff (f : FunctionLiteral) : f.arity = none ↔ HasEllipsis f.params := by
  by_cases h : HasEllipsis f.params
  · simp [f.arity_of_ellipsis h, h]
  · by_cases hspelled : BeginsSpelled (splitArguments f.params)
    · simp [f.arity_of_spelled h hspelled, h]
    · simp [f.arity_of_not_spelled h hspelled, h]

/-- A function literal has the arity that it should have exactly if its parameters are what they seem. -/
theorem FunctionLiteral.countsParameters_iff (f : FunctionLiteral) :
    CountsParameters (splitArguments f.params) f.arity ↔ PlainParameters (splitArguments f.params) := by
  constructor
  · intro h
    have hunknown := h.unknown_iff
    rw [f.arity_eq_none_iff] at hunknown
    refine ⟨fun p hp hin => hunknown.mp ((hasEllipsis_splitArguments _).mpr ⟨p, hp, hin⟩), ?_⟩
    intro hlast first hfirst hspelled
    by_contra hcontext
    have hno : ¬ HasEllipsis f.params := fun hellipsis => hlast (hunknown.mp hellipsis)
    have hbegins : ¬ BeginsWithContext (splitArguments f.params) := by
      rintro ⟨other, hother, hother_context⟩
      cases hfirst.symm.trans hother
      exact hcontext hother_context
    have hless := f.arity_of_spelled hno ⟨first, hfirst, hspelled⟩
    rw [h.without_context hlast hbegins] at hless
    have hpos : 0 < (splitArguments f.params).length := List.length_pos_of_mem (List.mem_of_head? hfirst)
    have hlength := Option.some.inj hless
    omega
  · intro h
    have hunknown : HasEllipsis f.params ↔ EndsVariadic (splitArguments f.params) := by
      refine ⟨fun hellipsis => ?_, EndsVariadic.hasEllipsis⟩
      obtain ⟨p, hp, hin⟩ := (hasEllipsis_splitArguments f.params).mp hellipsis
      exact h.ellipsis p hp hin
    refine ⟨f.arity_eq_none_iff.trans hunknown, ?_, ?_⟩
    · rintro hlast ⟨first, hfirst, hcontext⟩
      exact f.arity_of_spelled (mt hunknown.mp hlast) ⟨first, hfirst, hcontext.isSpelledContext⟩
    · intro hlast hbegins
      refine f.arity_of_not_spelled (mt hunknown.mp hlast) ?_
      rintro ⟨first, hfirst, hspelled⟩
      exact hbegins ⟨first, hfirst, h.context hlast first hfirst hspelled⟩

/-! ## Sources -/

/-- Every table call that a scan comes to, and whose body is a function literal, declares a table of the source. Its
arity is unknown if there is an ellipsis anywhere among the parameters, and it is what it should be exactly if the
parameters are what they seem. -/
theorem scan_tables_count_parameters {source : String} {ts : List Token} {trees : List TokenTree}
    (htokens : tokens source = .ok ts) (hgroup : group ts = .ok trees) {c : Call} (hfinds : Finds c .other trees)
    (hkind : c.kind = .table ∨ c.kind = .subtreeTable) {f : FunctionLiteral}
    (hbody : bodyOf? (splitArguments c.inner) = some f) :
    ∃ found label arity entries body, scan source = .ok found ∧
      c.declarations = [.table label arity entries body] ∧
      Declared (.table label arity entries body) found.declarations ∧
      (arity = none ↔ HasEllipsis f.params) ∧
      (CountsParameters (splitArguments f.params) arity ↔ PlainParameters (splitArguments f.params)) := by
  have hdeclares := Call.declarations_table hkind
  rw [hbody, Option.bind_some] at hdeclares
  obtain ⟨found, hfound, hdeclared⟩ :=
    hfinds.exists_declared htokens hgroup (hdeclares ▸ List.mem_singleton_self _)
  exact ⟨found, _, _, _, _, hfound, hdeclares, hdeclared, f.arity_eq_none_iff, f.countsParameters_iff⟩

set_option maxRecDepth 2000 in
/-- A context, a parameter of function type and a number: the entries give two arguments. -/
theorem scan_tables_count_parameters_function_type :
    ∃ found label entries body,
      scan "DescribeTable(\"t\", func(ctx ginkgo.SpecContext, f func(int) bool, n int) \x7b\x7d)" = .ok found ∧
      Declared (.table label (some 2) entries body) found.declarations := by
  obtain ⟨ts, trees, c, f, first, second, third, htokens, hgroup, hfinds, hkind, hbody, hparams, hcontext,
      hellipsis⟩ :
      ∃ ts trees c f first second third,
        tokens "DescribeTable(\"t\", func(ctx ginkgo.SpecContext, f func(int) bool, n int) \x7b\x7d)" = .ok ts ∧
        group ts = .ok trees ∧ Finds c .other trees ∧ c.kind = .table ∧
        bodyOf? (splitArguments c.inner) = some f ∧ splitArguments f.params = [first, second, third] ∧
        IsContext first ∧ ¬ HasEllipsis f.params :=
    ⟨_, _, _, _, _, _, _, by cbv, by cbv, @Finds.here ⟨.table, _, _, _, _⟩ .other [] rfl, rfl, rfl, rfl,
      .qualified rfl rfl rfl rfl, by decide⟩
  obtain ⟨found, label, arity, entries, body, hfound, -, hdeclared, -, hcounts⟩ :=
    scan_tables_count_parameters htokens hgroup hfinds (.inl hkind) hbody
  have hlast : ¬ EndsVariadic (splitArguments f.params) := fun h => hellipsis h.hasEllipsis
  have hplain : PlainParameters (splitArguments f.params) := by
    refine ⟨fun p hp hin => ?_, fun _ p hp _ => ?_⟩
    · exact absurd ((hasEllipsis_splitArguments f.params).mpr ⟨p, hp, hin⟩) hellipsis
    · rw [hparams] at hp
      cases hp
      exact hcontext
  have harity := (hcounts.mpr hplain).with_context hlast ⟨first, by rw [hparams]; rfl, hcontext⟩
  rw [harity, hparams] at hdeclared
  exact ⟨found, label, entries, body, hfound, hdeclared⟩

set_option maxRecDepth 2000 in
/-- Two tables with two parameters each, of which the last is not variadic and the first is no context. Of the one
the arity is unknown, since a parameter has a variadic function type, and of the other it is one, since a parameter is
a slice of contexts. -/
theorem scan_tables_miscount_parameters :
    let declares (source : String) (arity : Option Nat) :=
      ∃ found c f p q, scan source = .ok found ∧ found.declarations = Call.declarations c ∧
        (∃ label entries, c.declarations = [.table label arity entries (.leaves .noop)]) ∧
        bodyOf? (splitArguments c.inner) = some f ∧ splitArguments f.params = [p, q] ∧
        ¬ IsVariadic q ∧ ¬ IsContext p
    declares "DescribeTable(\"t\", func(f func(xs ...int), n int) \x7b\x7d)" none ∧
      declares "DescribeTable(\"t\", func(cs []ginkgo.SpecContext, n int) \x7b\x7d)" (some 1) := by
  intro declares
  have hdeclares : ∀ {source : String} {ts : List Token} {c : Call} {f : FunctionLiteral} {p q : List TokenTree}
      {arity : Option Nat}, tokens source = .ok ts → group ts = .ok c.trees →
      callAt? .other (c.trees ++ []) = some c.kind → c.kind = .table →
      bodyOf? (splitArguments c.inner) = some f → splitArguments f.params = [p, q] →
      ¬ IsVariadic q → ¬ IsContext p → f.arity = arity → declares source arity := by
    intro source ts c f p q arity htokens hgroup hcall hkind hbody hparams hlast hfirst harity
    obtain ⟨found, hfound, hdeclared⟩ := exists_scan htokens hgroup
    refine ⟨found, c, f, p, q, hfound, ?_, ?_, hbody, hparams, hlast, hfirst⟩
    · rw [hdeclared, ← List.append_nil c.trees, declarations_scanTrees_call hcall, scanTrees_nil, List.append_nil]
    · rw [Call.declarations_table (.inl hkind), hbody, Option.bind_some, harity, Call.tableBody, hkind]
      exact ⟨_, _, rfl⟩
  refine ⟨hdeclares (c := ⟨.table, _, _, _, _⟩) (by cbv) (by cbv) rfl rfl rfl rfl (by decide)
    (by intro h; cases h) ?_, hdeclares (c := ⟨.table, _, _, _, _⟩) (by cbv) (by cbv) rfl rfl rfl rfl (by decide)
    (by intro h; cases h) ?_⟩
  · exact FunctionLiteral.arity_of_ellipsis (by decide)
  · refine FunctionLiteral.arity_of_spelled (by decide) ⟨_, rfl, _, _, rfl, .inr (.inl ?_)⟩
    exact ⟨"[]ginkgo".toList, rfl⟩

end SpecForest.Source

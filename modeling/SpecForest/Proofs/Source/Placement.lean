import SpecForest.Proofs.Source.Grouping
import SpecForest.Source.Scan

/-!
# Positions do not matter

Trees that differ only in the positions of their tokens are the same to all that reads them: arguments,
labels, entries, function literals and the declarations found by a scan. Gaps and texts do matter, since
expressions are kept as they are written.
-/

namespace SpecForest.Source

/-- A token without its position. -/
def Token.bare (t : Token) : Token := { t with start := .start }

mutual

/-- A tree without positions. -/
def TokenTree.bare : TokenTree → TokenTree
  | .token t => .token t.bare
  | .group opening closing d inner => .group opening.bare closing.bare d (bareAll inner)

/-- Trees without positions. -/
def bareAll : List TokenTree → List TokenTree
  | [] => []
  | t :: rest => t.bare :: bareAll rest

end

@[simp] theorem Token.bare_kind (t : Token) : t.bare.kind = t.kind := rfl

@[simp] theorem Token.bare_text (t : Token) : t.bare.text = t.text := rfl

@[simp] theorem Token.bare_gap (t : Token) : t.bare.gap = t.gap := rfl

@[simp] theorem Token.isName_bare (t : Token) (name : String) : t.bare.isName name = t.isName name := rfl

@[simp] theorem Token.isSymbol_bare (t : Token) (c : Char) : t.bare.isSymbol c = t.isSymbol c := rfl

@[simp] theorem Token.callKind?_bare (t : Token) : t.bare.callKind? = t.callKind? := rfl

@[simp] theorem bareAll_append (a b : List TokenTree) : bareAll (a ++ b) = bareAll a ++ bareAll b := by
  induction a with
  | nil => rfl
  | cons t rest ih => simp [bareAll, ih]

mutual

theorem TokenTree.tokens_bare (t : TokenTree) : t.bare.tokens = t.tokens.map Token.bare := by
  cases t with
  | token t => rfl
  | group opening closing d inner => simp [TokenTree.bare, TokenTree.tokens, allTokens_bareAll inner]

theorem allTokens_bareAll (ts : List TokenTree) :
    TokenTree.allTokens (bareAll ts) = (TokenTree.allTokens ts).map Token.bare := by
  cases ts with
  | nil => rfl
  | cons t rest =>
    simp [bareAll, TokenTree.allTokens, TokenTree.tokens_bare t, allTokens_bareAll rest]

end

/-! ## Trees over placed tokens -/

mutual

/-- Trees can be put over any tokens that agree with theirs up to positions. -/
theorem TokenTree.exists_bare {t : TokenTree} {ts : List Token}
    (h : ts.map Token.bare = t.tokens) (hfit : t.Fits) :
    ∃ u : TokenTree, u.bare = t ∧ u.tokens = ts ∧ u.Fits := by
  cases t with
  | token t =>
    obtain ⟨u, rfl, hu⟩ := List.map_eq_singleton_iff.mp h
    exact ⟨.token u, by rw [TokenTree.bare, hu], rfl, by
      rw [← hu] at hfit
      exact hfit⟩
  | group opening closing d inner =>
    obtain ⟨hopen, hclose, hinner⟩ := hfit
    rw [TokenTree.tokens] at h
    obtain ⟨us, vs, rfl, hus, hvs⟩ := List.map_eq_append_iff.mp h
    obtain ⟨o, is, rfl, ho, his⟩ := List.map_eq_cons_iff.mp hus
    obtain ⟨c, rfl, hc⟩ := List.map_eq_singleton_iff.mp hvs
    obtain ⟨trees, htrees, htokens, hfits⟩ := exists_bareAll his hinner
    refine ⟨.group o c d trees, ?_, ?_, ?_, ?_, hfits⟩
    · rw [TokenTree.bare, ho, hc, htrees]
    · rw [TokenTree.tokens, htokens]
    · rw [← hopen, ← ho, Token.bare_kind]
    · rw [← hclose, ← hc, Token.bare_kind]

theorem exists_bareAll {trees : List TokenTree} {ts : List Token}
    (h : ts.map Token.bare = TokenTree.allTokens trees) (hfit : AllFit trees) :
    ∃ us, bareAll us = trees ∧ TokenTree.allTokens us = ts ∧ AllFit us := by
  cases trees with
  | nil => exact ⟨[], rfl, by simpa [TokenTree.allTokens, eq_comm] using h, trivial⟩
  | cons t rest =>
    obtain ⟨ht, hrest⟩ := hfit
    rw [TokenTree.allTokens] at h
    obtain ⟨us, vs, rfl, hus, hvs⟩ := List.map_eq_append_iff.mp h
    obtain ⟨u, hu, hutokens, hufit⟩ := TokenTree.exists_bare hus ht
    obtain ⟨trees, htrees, htokens, hfits⟩ := exists_bareAll hvs hrest
    exact ⟨u :: trees, by rw [bareAll, hu, htrees], by rw [TokenTree.allTokens, hutokens, htokens],
      hufit, hfits⟩

end

/-- Tokens that agree up to positions with those of fitting trees are grouped into such trees. -/
theorem group_of_bare {trees : List TokenTree} {ts : List Token}
    (h : ts.map Token.bare = TokenTree.allTokens trees) (hfit : AllFit trees) :
    ∃ us, group ts = .ok us ∧ bareAll us = trees := by
  obtain ⟨us, hus, htokens, hfits⟩ := exists_bareAll h hfit
  exact ⟨us, (group_eq_ok_iff ts us).mpr ⟨hfits, htokens⟩, hus⟩

/-! ## Arguments -/

@[simp] theorem isComma_bare (t : TokenTree) : t.bare.isComma = t.isComma := by
  cases t <;> rfl

theorem splitArguments_bareAll (ts : List TokenTree) :
    splitArguments (bareAll ts) = (splitArguments ts).map bareAll := by
  induction ts with
  | nil => rfl
  | cons t rest ih =>
    rw [bareAll, splitArguments, splitArguments, isComma_bare]
    split
    · rw [ih, List.map_cons, bareAll]
    · rw [ih]
      cases splitArguments rest with
      | nil => rfl
      | cons piece pieces => rfl

theorem sourceText_map_bare (ts : List Token) : sourceText (ts.map Token.bare) = sourceText ts := by
  cases ts with
  | nil => rfl
  | cons t rest => simp [sourceText, Function.comp_def]

theorem concatenation?_bareAll (ts : List TokenTree) :
    concatenation? (bareAll ts) = concatenation? ts := by
  fun_induction concatenation? ts with
  | case1 t s hkind => simp [bareAll, TokenTree.bare, concatenation?, hkind]
  | case2 t hkind => simp [bareAll, TokenTree.bare, concatenation?]
  | case3 t plus rest s hkind hplus ih =>
    simp [bareAll, TokenTree.bare, concatenation?, hkind, hplus, ih]
  | case4 t plus rest s hkind hplus => simp [bareAll, TokenTree.bare, concatenation?, hkind, hplus]
  | case5 t plus rest hkind => simp [bareAll, TokenTree.bare, concatenation?]
  | case6 ts hsingle hpair =>
    match ts with
    | [] => rfl
    | [.token t] => exact absurd rfl (hsingle t)
    | .token t :: .token plus :: rest => exact absurd rfl (hpair t plus rest)
    | .token t :: .group opening closing d inner :: rest => rfl
    | .group opening closing d inner :: rest => rfl

theorem literal?_bareAll (ts : List TokenTree) : literal? (bareAll ts) = literal? ts := by
  match ts with
  | [] => rfl
  | [.token t] => rfl
  | [.token sign, .token t] => rfl
  | [.group opening closing d inner] => rfl
  | [.token t, .group opening closing d inner] => rfl
  | [.group opening closing d inner, t] =>
    cases t <;> rfl
  | t :: u :: v :: rest =>
    have hlong : ∀ (a b c : TokenTree) (ts : List TokenTree),
        literal? (a :: b :: c :: ts) = (concatenation? (a :: b :: c :: ts)).map .str := by
      intro a b c ts
      cases a <;> cases b <;> rfl
    simp only [bareAll, hlong]
    have hjoin := concatenation?_bareAll (t :: u :: v :: rest)
    simp only [bareAll] at hjoin
    rw [hjoin]

theorem readValue_bareAll (arg : List TokenTree) : readValue (bareAll arg) = readValue arg := by
  simp only [readValue, literal?_bareAll, allTokens_bareAll, sourceText_map_bare]

theorem isDecorator_bareAll (arg : List TokenTree) : isDecorator (bareAll arg) = isDecorator arg := by
  match arg with
  | [] => rfl
  | [.token t] => rfl
  | [.group opening closing d inner] => rfl
  | [.token t, .token u] => rfl
  | [.token t, .group opening closing d inner] => cases d <;> rfl
  | [.group opening closing d inner, t] => cases t <;> rfl
  | t :: .token u :: v :: rest => cases t <;> rfl
  | t :: .group opening closing d inner :: v :: rest => cases t <;> cases d <;> rfl

/-! ## Function literals and entries -/

/-- A function literal without positions. -/
def FunctionLiteral.bare (f : FunctionLiteral) : FunctionLiteral :=
  ⟨bareAll f.params, bareAll f.body⟩

theorem getLast?_bareAll (ts : List TokenTree) : (bareAll ts).getLast? = ts.getLast?.map TokenTree.bare := by
  rcases List.eq_nil_or_concat ts with rfl | ⟨front, last, rfl⟩
  · rfl
  · simp [bareAll]

theorem functionLiteral?_bareAll (arg : List TokenTree) :
    functionLiteral? (bareAll arg) = (functionLiteral? arg).map FunctionLiteral.bare := by
  match arg with
  | [] => rfl
  | [.token t] => rfl
  | .token t :: .token u :: rest => rfl
  | .group opening closing d inner :: rest => rfl
  | .token t :: .group opening closing .brace params :: rest => rfl
  | .token t :: .group opening closing .bracket params :: rest => rfl
  | .token t :: .group opening closing .paren params :: rest =>
    simp only [bareAll, TokenTree.bare, functionLiteral?, Token.isName_bare, getLast?_bareAll]
    by_cases hfunc : t.isName "func" = true
    · rw [if_pos hfunc, if_pos hfunc]
      cases rest.getLast? with
      | none => rfl
      | some last =>
        cases last with
        | token u => rfl
        | group o c d body => cases d <;> rfl
    · rw [if_neg hfunc, if_neg hfunc]
      rfl

theorem isContextParam_bareAll (param : List TokenTree) :
    isContextParam (bareAll param) = isContextParam param := by
  unfold isContextParam
  rw [allTokens_bareAll]
  match TokenTree.allTokens param with
  | [] => rfl
  | [t] => rfl
  | t :: u :: rest => simp [Function.comp_def]

theorem FunctionLiteral.arity_bare (f : FunctionLiteral) : f.bare.arity = f.arity := by
  simp only [arity, bare, splitArguments_bareAll, allTokens_bareAll, List.any_map, Function.comp_def,
    Token.bare_kind]
  cases splitArguments f.params with
  | nil => rfl
  | cons first rest => simp [isContextParam_bareAll]

theorem bodyOf?_map_bareAll (args : List (List TokenTree)) :
    bodyOf? (args.map bareAll) = (bodyOf? args).map FunctionLiteral.bare := by
  unfold bodyOf?
  rw [← List.map_drop]
  induction args.drop 1 with
  | nil => rfl
  | cons arg rest ih =>
    rw [List.map_cons, List.findSome?_cons, List.findSome?_cons, functionLiteral?_bareAll, ih]
    cases functionLiteral? arg <;> rfl

theorem labelOf_map_bareAll (args : List (List TokenTree)) : labelOf (args.map bareAll) = labelOf args := by
  cases args with
  | nil => rfl
  | cons first rest => simp [labelOf, readValue_bareAll]

theorem entryOf_bareAll (description : List TokenTree) (params : List (List TokenTree)) :
    entryOf (bareAll description) (params.map bareAll) = entryOf description params := by
  have hvalues : ((params.map bareAll).filter fun p => !isDecorator p).map readValue =
      (params.filter fun p => !isDecorator p).map readValue := by
    rw [List.filter_map, List.map_map]
    simp only [Function.comp_def, isDecorator_bareAll, readValue_bareAll]
  simp only [entryOf, hvalues, readValue_bareAll]

theorem entry?_bareAll (arg : List TokenTree) : entry? (bareAll arg) = entry? arg := by
  match arg with
  | [] => rfl
  | [.token t] => rfl
  | [.group opening closing d inner] => rfl
  | [.token t, .token u] => rfl
  | [.token t, .group opening closing .brace inner] => rfl
  | [.token t, .group opening closing .bracket inner] => rfl
  | [.group opening closing d inner, t] => cases t <;> rfl
  | t :: .token u :: v :: rest => cases t <;> rfl
  | t :: .group opening closing d inner :: v :: rest => cases t <;> cases d <;> rfl
  | [.token t, .group opening closing .paren inner] =>
    simp only [bareAll, TokenTree.bare, entry?, Token.callKind?_bare, splitArguments_bareAll]
    cases splitArguments inner with
    | nil => rfl
    | cons description params => simp [entryOf_bareAll]

theorem entriesOf_map_bareAll (args : List (List TokenTree)) :
    entriesOf (args.map bareAll) = entriesOf args := by
  unfold entriesOf
  rw [← List.map_drop, List.filterMap_map]
  simp only [Function.comp_def, entry?_bareAll]

/-! ## Steps of the scan -/

/-- What is declared by the call with which some trees begin, if they begin with one. -/
def callAt? (prior : Prior) : List TokenTree → Option CallKind
  | .token name :: .group _ _ .paren _ :: _ => if prior = .other then name.callKind? else none
  | _ => none

@[simp] theorem scanTrees_nil (prior : Prior) : scanTrees prior [] = {} := by
  rw [scanTrees]

theorem scanTrees_call {prior : Prior} {name opening closing : Token} {inner rest : List TokenTree}
    {k : CallKind} (h : callAt? prior (.token name :: .group opening closing .paren inner :: rest) = some k) :
    scanTrees prior (.token name :: .group opening closing .paren inner :: rest) =
      (declareCall k name inner (scanTrees .other (scannedPart k inner))).append
        (scanTrees .other rest) := by
  rw [callAt?] at h
  rw [scanTrees, h]

theorem scanTrees_token {prior : Prior} {t : Token} {rest : List TokenTree}
    (h : callAt? prior (.token t :: rest) = none) :
    scanTrees prior (.token t :: rest) = scanTrees (.afterToken t) rest := by
  match rest with
  | [] => simp [scanTrees]
  | .token u :: rest => rw [scanTrees]; simp
  | .group opening closing .brace inner :: rest => rw [scanTrees]; simp
  | .group opening closing .bracket inner :: rest => rw [scanTrees]; simp
  | .group opening closing .paren inner :: rest =>
    rw [callAt?] at h
    rw [scanTrees, h]

theorem scanTrees_group (prior : Prior) (opening closing : Token) (d : Delimiter)
    (inner rest : List TokenTree) :
    scanTrees prior (.group opening closing d inner :: rest) =
      (scanTrees .other inner).append (scanTrees (prior.afterGroup d) rest) := by
  rw [scanTrees]

/-- A property of all trees, from those that the scan goes on with. -/
theorem scanTrees_induct {motive : Prior → List TokenTree → Prop} (nil : ∀ prior, motive prior [])
    (call : ∀ prior name opening closing inner rest k,
      callAt? prior (.token name :: .group opening closing .paren inner :: rest) = some k →
      motive .other (scannedPart k inner) → motive .other rest →
      motive prior (.token name :: .group opening closing .paren inner :: rest))
    (token : ∀ prior t rest, callAt? prior (.token t :: rest) = none →
      motive (.afterToken t) rest → motive prior (.token t :: rest))
    (group : ∀ prior opening closing d inner rest, motive .other inner →
      motive (prior.afterGroup d) rest → motive prior (.group opening closing d inner :: rest))
    (prior : Prior) (ts : List TokenTree) : motive prior ts := by
  fun_induction scanTrees prior ts with
  | case1 prior => exact nil prior
  | case2 prior name opening closing inner rest k hk ihpart ihrest =>
    exact call prior name opening closing inner rest k (by simpa [callAt?] using hk) ihpart ihrest
  | case3 prior name opening closing inner rest hk ih =>
    exact token prior name _ (by simpa [callAt?] using hk) ih
  | case4 prior t rest hcall ih =>
    refine token prior t rest ?_ ih
    unfold callAt?
    split
    · rename_i heq
      cases heq
      exact absurd rfl (hcall _ _ _ _)
    · rfl
  | case5 prior opening closing d inner rest ihinner ihrest =>
    exact group prior opening closing d inner rest ihinner ihrest

/-! ## The scan -/

theorem scannedPart_bareAll (k : CallKind) (inner : List TokenTree) :
    scannedPart k (bareAll inner) = bareAll (scannedPart k inner) := by
  have hbody : bodyOf? (splitArguments (bareAll inner)) =
      (bodyOf? (splitArguments inner)).map FunctionLiteral.bare := by
    rw [splitArguments_bareAll, bodyOf?_map_bareAll]
  cases k with
  | container =>
    simp only [scannedPart, hbody]
    cases bodyOf? (splitArguments inner) <;> rfl
  | subtreeTable =>
    simp only [scannedPart, hbody]
    cases bodyOf? (splitArguments inner) <;> rfl
  | leaf => rfl
  | table => rfl
  | entry => rfl

theorem declareCall_bareAll (k : CallKind) (name : Token) (inner : List TokenTree) {below below' : Scanned}
    (h : below.declarations = below'.declarations) :
    (declareCall k name.bare (bareAll inner) below).declarations =
      (declareCall k name inner below').declarations := by
  have harity : ((bodyOf? (splitArguments inner)).map FunctionLiteral.bare).bind (·.arity) =
      (bodyOf? (splitArguments inner)).bind (·.arity) := by
    cases bodyOf? (splitArguments inner) with
    | none => rfl
    | some f => simp [FunctionLiteral.arity_bare]
  cases k <;>
    simp [declareCall, splitArguments_bareAll, labelOf_map_bareAll, entriesOf_map_bareAll,
      bodyOf?_map_bareAll, harity, h]

theorem callAt?_bareAll (prior : Prior) (ts : List TokenTree) :
    callAt? prior (bareAll ts) = callAt? prior ts := by
  match ts with
  | [] => rfl
  | [.token t] => rfl
  | .token t :: .token u :: rest => rfl
  | .token t :: .group opening closing d inner :: rest => cases d <;> rfl
  | .group opening closing d inner :: rest => rfl

/-- The declarations in some trees do not depend on where the trees stand. -/
theorem scanTrees_bareAll (prior : Prior) (ts : List TokenTree) :
    (scanTrees prior (bareAll ts)).declarations = (scanTrees prior ts).declarations := by
  induction prior, ts using scanTrees_induct with
  | nil prior => rfl
  | call prior name opening closing inner rest k hcall ihpart ihrest =>
    have hbare := callAt?_bareAll prior (.token name :: .group opening closing .paren inner :: rest)
    rw [hcall] at hbare
    simp only [bareAll, TokenTree.bare] at hbare ⊢
    rw [scanTrees_call hcall, scanTrees_call hbare, scannedPart_bareAll]
    simp only [Scanned.append, ihrest]
    rw [declareCall_bareAll k name inner ihpart]
  | token prior t rest hcall ih =>
    have hbare := callAt?_bareAll prior (.token t :: rest)
    rw [hcall] at hbare
    simp only [bareAll, TokenTree.bare] at hbare ⊢
    rw [scanTrees_token hcall, scanTrees_token hbare]
    exact ih
  | group prior opening closing d inner rest ihinner ihrest =>
    simp only [bareAll, TokenTree.bare]
    rw [scanTrees_group, scanTrees_group]
    simp only [Scanned.append, ihinner, ihrest]

end SpecForest.Source

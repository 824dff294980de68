import SpecForest.Proofs.Source.Balance
import SpecForest.Proofs.Source.Extension
import SpecForest.Proofs.Source.Totality

/-!
# Sources one behind the other

The declarations of two sources with a line break between them are those of the one and then those of the
other. The scan looks at most at two trees together, a name and the parentheses behind it, and looks back
only for the word `func` and its receiver. So if the first source ends neither in a name nor in the
parentheses of a receiver, nothing that is read on one side of the line break matters on the other.
-/

namespace SpecForest.Source

/-! ## What stands behind some trees -/

/-- What stands before the token behind some trees. -/
def Prior.after (prior : Prior) : List TokenTree → Prior
  | [] => prior
  | .token t :: rest => (Prior.afterToken t).after rest
  | .group _ _ d _ :: rest => (prior.afterGroup d).after rest

theorem Prior.after_append (prior : Prior) (a b : List TokenTree) :
    prior.after (a ++ b) = (prior.after a).after b := by
  induction a generalizing prior with
  | nil => rfl
  | cons t a ih =>
    cases t with
    | token t => exact ih _
    | group opening closing d inner => exact ih _

theorem Prior.afterToken_of_kind {t : Token} (h : t.kind ≠ .name) : Prior.afterToken t = .other := by
  refine if_neg fun hfunc => h ?_
  rw [Token.isName, Bool.and_eq_true] at hfunc
  exact eq_of_beq hfunc.1

/-- Directly behind the word `func` stands what follows that word alone. -/
theorem Prior.exists_func {ts : List TokenTree} (h : Prior.other.after ts = .func) :
    ∃ front t, ts = front ++ [.token t] ∧ t.isName "func" = true := by
  rcases List.eq_nil_or_concat ts with rfl | ⟨front, last, rfl⟩
  · cases h
  · rw [List.concat_eq_append, Prior.after_append] at h
    cases last with
    | token t =>
      refine ⟨front, t, List.concat_eq_append, ?_⟩
      by_contra hfunc
      have hother : Prior.afterToken t = .other := if_neg hfunc
      simp [Prior.after, hother] at h
    | group opening closing d inner =>
      simp only [Prior.after, Prior.afterGroup] at h
      split at h <;> cases h

/-! ## Trees one behind the other -/

/-- Trees that do not end in a name, which would be called by parentheses behind them. -/
def EndsNoName (ts : List TokenTree) : Prop :=
  ∀ t, ts.getLast? = some (.token t) → t.kind ≠ .name

theorem EndsNoName.tail {t : TokenTree} {rest : List TokenTree} (h : EndsNoName (t :: rest)) :
    EndsNoName rest := by
  intro u hu
  apply h u
  rw [List.getLast?_cons, hu]
  rfl

/-- No call is begun by the trees behind. -/
theorem callAt?_append (prior : Prior) {ts : List TokenTree} (h : EndsNoName ts) (hne : ts ≠ [])
    (more : List TokenTree) : callAt? prior (ts ++ more) = callAt? prior ts := by
  match ts with
  | [] => exact absurd rfl hne
  | .group opening closing d inner :: rest => rfl
  | .token t :: .token u :: rest => rfl
  | .token t :: .group opening closing d inner :: rest => cases d <;> rfl
  | [.token t] =>
    have hkind : t.callKind? = none := if_neg (h t rfl)
    rw [List.singleton_append]
    unfold callAt?
    split
    · rename_i heq
      cases heq
      simp [hkind]
    · rfl

/-- The scan of trees one behind the other. -/
theorem scanTrees_append (prior : Prior) {a : List TokenTree} (h : EndsNoName a) (b : List TokenTree) :
    scanTrees prior (a ++ b) = (scanTrees prior a).append (scanTrees (prior.after a) b) := by
  induction prior, a using scanTrees_induct with
  | nil prior => rw [scanTrees_nil, Scanned.empty_append]; rfl
  | call prior name opening closing inner rest k hcall ihpart ihrest =>
    have hmore := callAt?_append prior h (List.cons_ne_nil _ _) b
    rw [hcall, List.cons_append, List.cons_append] at hmore
    have hkind : Prior.afterToken name = .other := by
      obtain ⟨_, _, _, _, _, heq, _, hkind⟩ := callAt?_eq_some hcall
      cases heq
      exact afterToken_of_callKind? hkind
    have hbehind : prior.after (.token name :: .group opening closing .paren inner :: rest) =
        Prior.other.after rest := by
      rw [Prior.after, Prior.after, hkind]
      rfl
    rw [scanTrees_call hcall, List.cons_append, List.cons_append, scanTrees_call hmore,
      ihrest h.tail.tail, hbehind, Scanned.append_assoc]
  | token prior t rest hcall ih =>
    have hmore := callAt?_append prior h (List.cons_ne_nil _ _) b
    rw [hcall, List.cons_append] at hmore
    rw [scanTrees_token hcall, List.cons_append, scanTrees_token hmore, ih h.tail]
    rfl
  | group prior opening closing d inner rest ihinner ihrest =>
    rw [List.cons_append, scanTrees_group, scanTrees_group, ihrest h.tail, Scanned.append_assoc]
    rfl

/-! ## The end of a source -/

/-- Tokens that end neither in a name nor in the parentheses behind the word `func`. -/
structure EndsClear (ts : List Token) : Prop where
  not_name : ∀ t, ts.getLast? = some t → t.kind ≠ .name
  not_receiver : ∀ before func opening inner closing,
    ts = before ++ func :: opening :: (inner ++ [closing]) → func.isName "func" = true →
    opening.kind = .opening .paren → closing.kind = .closing .paren → ¬ Balanced (brackets inner)

theorem EndsClear.endsNoName {trees : List TokenTree} (h : EndsClear (TokenTree.allTokens trees)) :
    EndsNoName trees := by
  intro t ht
  obtain ⟨front, rfl⟩ := List.getLast?_eq_some_iff.mp ht
  apply h.not_name t
  simp [TokenTree.allTokens, TokenTree.tokens]

/-- Nothing at the end of the tokens concerns what comes behind them. -/
theorem EndsClear.after_eq {trees : List TokenTree} (h : EndsClear (TokenTree.allTokens trees))
    (hfit : AllFit trees) : Prior.other.after trees = .other := by
  rcases List.eq_nil_or_concat trees with rfl | ⟨front, last, hlast⟩
  · rfl
  · rw [List.concat_eq_append] at hlast
    subst hlast
    rw [Prior.after_append]
    cases last with
    | token t => exact Prior.afterToken_of_kind (h.endsNoName t (by simp))
    | group opening closing d inner =>
      refine if_neg ?_
      rintro ⟨hfunc, rfl⟩
      obtain ⟨before, func, rfl, hname⟩ := Prior.exists_func hfunc
      obtain ⟨hopen, hclose, hinner⟩ := (allFit_append.mp hfit).2.1
      refine h.not_receiver (TokenTree.allTokens before) func opening (TokenTree.allTokens inner) closing
        ?_ hname hopen hclose (balanced_of_allFit hinner)
      simp [TokenTree.allTokens, TokenTree.tokens]

/-! ## The gap in front of a source -/

/-- Trees with more in the gap before their first token. -/
def widenTrees (gap : List Char) : List TokenTree → List TokenTree
  | [] => []
  | .token t :: rest => .token { t with gap := String.ofList gap ++ t.gap } :: rest
  | .group opening closing d inner :: rest =>
    .group { opening with gap := String.ofList gap ++ opening.gap } closing d inner :: rest

theorem allTokens_widenTrees (gap : List Char) (ts : List TokenTree) :
    TokenTree.allTokens (widenTrees gap ts) = widen gap (TokenTree.allTokens ts) := by
  match ts with
  | [] => rfl
  | .token t :: rest => rfl
  | .group opening closing d inner :: rest => rfl

theorem allFit_widenTrees (gap : List Char) {ts : List TokenTree} (h : AllFit ts) :
    AllFit (widenTrees gap ts) := by
  match ts with
  | [] => exact h
  | .token t :: rest => exact h
  | .group opening closing d inner :: rest => exact h

/-- The gap in front of all trees is part of no expression. -/
theorem scanTrees_widenTrees (prior : Prior) (gap : List Char) (ts : List TokenTree) :
    (scanTrees prior (widenTrees gap ts)).declarations = (scanTrees prior ts).declarations := by
  match ts with
  | [] => rfl
  | .group opening closing d inner :: rest => rw [widenTrees, scanTrees_group, scanTrees_group]
  | .token t :: rest =>
    have hsame : callAt? prior (widenTrees gap (.token t :: rest)) = callAt? prior (.token t :: rest) := by
      match rest with
      | [] => rfl
      | .token u :: rest => rfl
      | .group opening closing d inner :: rest => cases d <;> rfl
    cases hcall : callAt? prior (.token t :: rest) with
    | none =>
      rw [hcall] at hsame
      rw [scanTrees_token hcall, widenTrees, scanTrees_token hsame]
      rfl
    | some k =>
      rw [hcall] at hsame
      obtain ⟨name, opening, closing, inner, more, heq, -, -⟩ := callAt?_eq_some hcall
      cases heq
      rw [scanTrees_call hcall, widenTrees, scanTrees_call hsame]
      cases k <;> rfl

mutual

theorem TokenTree.Fits.bare {t : TokenTree} (h : t.Fits) : t.bare.Fits := by
  cases t with
  | token t => exact h
  | group opening closing d inner =>
    obtain ⟨hopen, hclose, hinner⟩ := h
    exact ⟨hopen, hclose, allFit_bareAll hinner⟩

theorem allFit_bareAll {ts : List TokenTree} (h : AllFit ts) : AllFit (bareAll ts) := by
  cases ts with
  | nil => exact h
  | cons t rest =>
    obtain ⟨ht, hrest⟩ := h
    exact ⟨ht.bare, allFit_bareAll hrest⟩

end

/-! ## Sources -/

/-- A source is scanned by its tokens and their trees. -/
theorem scan_eq_ok {source : String} {found : Scanned} (h : scan source = .ok found) :
    ∃ ts trees, tokens source = .ok ts ∧ group ts = .ok trees ∧
      found.declarations = (scanTrees .other trees).declarations := by
  rw [scan, scanNamed] at h
  cases htokens : tokens source with
  | error e =>
    rw [htokens] at h
    cases h
  | ok ts =>
    cases hgroup : group ts with
    | error e =>
      simp [htokens, hgroup, bind, Except.bind] at h
    | ok trees =>
      refine ⟨ts, trees, rfl, hgroup, ?_⟩
      simp only [htokens, hgroup, bind, Except.bind, pure, Except.pure] at h
      cases h
      rfl

theorem exists_scan {source : String} {ts : List Token} {trees : List TokenTree}
    (htokens : tokens source = .ok ts) (hgroup : group ts = .ok trees) :
    ∃ found, scan source = .ok found ∧ found.declarations = (scanTrees .other trees).declarations := by
  simp only [scan, scanNamed, htokens, hgroup, bind, Except.bind, pure, Except.pure]
  exact ⟨_, rfl, rfl⟩

theorem exists_scan_declaring {source : String} {ts : List Token} {trees : List TokenTree} {ds : List Declaration}
    (htokens : tokens source = .ok ts) (hgroup : group ts = .ok trees)
    (h : (scanTrees .other trees).declarations = ds) :
    ∃ found, scan source = .ok found ∧ found.declarations = ds := by
  obtain ⟨found, hfound, hdeclared⟩ := exists_scan htokens hgroup
  exact ⟨found, hfound, hdeclared.trans h⟩

/-- The tokens of two sources with a line break between them: those of the one, and then those of the other
up to positions and the gap before the first. -/
theorem tokens_append_newline {first second : String} {ts us : List Token} (hfirst : tokens first = .ok ts)
    (hsecond : tokens second = .ok us) :
    ∃ gap vs, tokens (first ++ "\n" ++ second) = .ok (ts ++ widen gap vs) ∧
      vs.map Token.bare = us.map Token.bare := by
  obtain ⟨gap, hread⟩ := tokensFrom_append_newline hfirst second.toList
  obtain ⟨vs, hvs, hbare⟩ := tokensFrom_bare hsecond (Position.start.advance (first.toList ++ ['\n']))
  refine ⟨gap, vs, ?_, hbare⟩
  have hchars : (first ++ "\n" ++ second).toList = first.toList ++ '\n' :: second.toList := by simp
  rw [tokens, hchars, hread, hvs]
  rfl

/-- Two sources that can be scanned can be scanned one behind the other, with a line break between them, and
declare what they declare alone, if the first one ends neither in a name nor in the parentheses behind the
word `func`. -/
theorem scan_append_newline {first second : String} {found₁ found₂ : Scanned}
    (hfirst : scan first = .ok found₁) (hsecond : scan second = .ok found₂)
    (hend : ∀ ts, tokens first = .ok ts → EndsClear ts) :
    ∃ found, scan (first ++ "\n" ++ second) = .ok found ∧
      found.declarations = found₁.declarations ++ found₂.declarations := by
  obtain ⟨ts, trees₁, hts, hgroup₁, hfound₁⟩ := scan_eq_ok hfirst
  obtain ⟨us, trees₂, hus, hgroup₂, hfound₂⟩ := scan_eq_ok hsecond
  obtain ⟨hfit₁, htokens₁⟩ := (group_eq_ok_iff ts trees₁).mp hgroup₁
  obtain ⟨hfit₂, htokens₂⟩ := (group_eq_ok_iff us trees₂).mp hgroup₂
  obtain ⟨gap, vs, htokens, hbare⟩ := tokens_append_newline hts hus
  -- the trees of the second source stand elsewhere, behind a larger gap
  have hagree : vs.map Token.bare = TokenTree.allTokens (bareAll trees₂) := by
    rw [hbare, allTokens_bareAll, htokens₂]
  obtain ⟨trees, hgroup, htrees⟩ := group_of_bare hagree (allFit_bareAll hfit₂)
  obtain ⟨hfit, hvs⟩ := (group_eq_ok_iff vs trees).mp hgroup
  have hgroups : group (ts ++ widen gap vs) = .ok (trees₁ ++ widenTrees gap trees) := by
    refine (group_eq_ok_iff _ _).mpr ⟨allFit_append.mpr ⟨hfit₁, allFit_widenTrees gap hfit⟩, ?_⟩
    rw [allTokens_append, htokens₁, allTokens_widenTrees, hvs]
  have hclear : EndsClear (TokenTree.allTokens trees₁) := by
    rw [htokens₁]
    exact hend ts hts
  have hbehind : (scanTrees .other (widenTrees gap trees)).declarations = found₂.declarations := by
    rw [scanTrees_widenTrees, ← scanTrees_bareAll, htrees, scanTrees_bareAll, hfound₂]
  obtain ⟨found, hfound, hdeclared⟩ := exists_scan htokens hgroups
  refine ⟨found, hfound, ?_⟩
  rw [hdeclared, scanTrees_append .other hclear.endsNoName, hclear.after_eq hfit₁, hfound₁, ← hbehind]
  rfl

/-- The first source ends in a comment, which the line break ends, and before it in a closing parenthesis,
which is not that of a receiver. -/
theorem scan_append_newline_two_leaves :
    let declares (source label : String) :=
      ∃ found, scan source = .ok found ∧ found.declarations = [.leaf label .noop]
    declares "It(\"a\") // b" "a" ∧ declares "It(\"c\")" "c" ∧
      ∃ found, scan ("It(\"a\") // b" ++ "\n" ++ "It(\"c\")") = .ok found ∧
        found.declarations = [.leaf "a" .noop, .leaf "c" .noop] := by
  intro declares
  let it : Token := ⟨"", "It", .name, ⟨0, 1, 1⟩⟩
  let opening : Token := ⟨"", "(", .opening .paren, ⟨2, 1, 3⟩⟩
  let closing : Token := ⟨"", ")", .closing .paren, ⟨6, 1, 7⟩⟩
  let call (text label : String) : List Token := [it, opening, ⟨"", text, .string label, ⟨3, 1, 4⟩⟩, closing]
  have hcall : ∀ {s : String} (text label : String), tokens s = .ok (call text label) → declares s label := by
    intro s text label htokens
    have hkind : it.callKind? = some .leaf := by decide
    have hgroup : group (call text label) =
        .ok [.token it, .group opening closing .paren [.token ⟨"", text, .string label, ⟨3, 1, 4⟩⟩]] := rfl
    obtain ⟨found, hfound, hdeclared⟩ := exists_scan htokens hgroup
    refine ⟨found, hfound, ?_⟩
    rw [hdeclared, scanTrees_call ((if_pos rfl).trans hkind), scanTrees_nil]
    rfl
  have htokens : tokens "It(\"a\") // b" = .ok (call "\"a\"" "a") := by cbv
  have hfirst := hcall "\"a\"" "a" htokens
  have hsecond := hcall (s := "It(\"c\")") "\"c\"" "c" (by cbv)
  refine ⟨hfirst, hsecond, ?_⟩
  obtain ⟨found₁, hfound₁, hdeclared₁⟩ := hfirst
  obtain ⟨found₂, hfound₂, hdeclared₂⟩ := hsecond
  have hend : ∀ ts, tokens "It(\"a\") // b" = .ok ts → EndsClear ts := by
    intro ts hts
    obtain rfl : call "\"a\"" "a" = ts := by simpa [htokens] using hts
    have hnofunc : ∀ t ∈ call "\"a\"" "a", t.isName "func" = false := by decide
    constructor
    · rintro t ⟨⟩
      decide
    · intro before func opening inner closing heq hfunc
      rw [hnofunc func (by rw [heq]; simp)] at hfunc
      cases hfunc
  obtain ⟨found, hfound, hboth⟩ := scan_append_newline hfound₁ hfound₂ hend
  exact ⟨found, hfound, by rw [hboth, hdeclared₁, hdeclared₂]; rfl⟩

end SpecForest.Source

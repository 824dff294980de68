import SpecForest.Proofs.Source.Arguments
import SpecForest.Proofs.Source.Calls
import SpecForest.Proofs.Source.Concatenation
import SpecForest.Proofs.Source.Partners

/-!
# Outermost calls

A position of some trees, counted in tokens, is recognised if a name that declares is called there and is not being
declared as a function. A scan finds exactly the recognised positions that lie in the parentheses of no other: one
declaration for each, in the order of the positions, and none for a stray entry. In the body of a container or of a
subtree table this holds once more, with the positions counted in the body.
-/

namespace SpecForest.Source

/-! ## Recognised positions -/

section

variable (ts : List TokenTree)

/-- The word `func` stands directly before a position. -/
def BehindFunc (i : Nat) : Prop :=
  ∃ j t, i = j + 1 ∧ (TokenTree.allTokens ts)[j]? = some t ∧ t.isName "func" = true

/-- An opening parenthesis stands at a position. -/
def OpensParen (i : Nat) : Prop :=
  ∃ t, (TokenTree.allTokens ts)[i]? = some t ∧ t.kind = .opening .paren

/-- The word `func` and one pair of parentheses stand directly before a position. -/
def BehindReceiver (i : Nat) : Prop :=
  ∃ opening closing, i = closing + 1 ∧ (opening, closing) ∈ pairsAll 0 ts ∧ OpensParen ts opening ∧
    BehindFunc ts opening

/-- A name that declares is called at a position, and is not itself declared there as a function or a method. -/
structure Recognised (i : Nat) (k : CallKind) : Prop where
  name : ∃ t, (TokenTree.allTokens ts)[i]? = some t ∧ t.kind = .name ∧
    ∃ name : CallName k, t.text.toList = name.text
  called : OpensParen ts (i + 1)
  no_function : ¬ BehindFunc ts i
  no_method : ¬ BehindReceiver ts i

/-- A position is in the parentheses that are opened behind another one. -/
def InParens (j i : Nat) : Prop :=
  ∃ closing, (j + 1, closing) ∈ pairsAll 0 ts ∧ j + 1 < i ∧ i < closing

/-- A recognised position that is in the parentheses of no other. -/
structure Outermost (i : Nat) (k : CallKind) : Prop where
  recognised : Recognised ts i k
  outside : ∀ j k', Recognised ts j k' → ¬ InParens ts j i

end

/-! ## Declarations for positions -/

namespace Call

/-- A call begins at a position. -/
structure StandsAt (c : Call) (ts : List TokenTree) (i : Nat) : Prop where
  tokens : TokenTree.allTokens c.trees <+: (TokenTree.allTokens ts).drop i
  fits : AllFit c.trees
  kind : c.name.callKind? = some c.kind

/-- The part of a call in which declarations are looked for: the body of its first function literal behind the label,
if the call is a container or a subtree table. -/
inductive IsBody (c : Call) : List TokenTree → Prop
  | function {label arg : List TokenTree} {before after : List (List TokenTree)} {f : FunctionLiteral}
      (kind : c.kind = .container ∨ c.kind = .subtreeTable)
      (pieces : splitArguments c.inner = label :: (before ++ arg :: after))
      (first : ∀ other ∈ before, functionLiteral? other = none) (function : functionLiteral? arg = some f) :
      IsBody c f.body
  | none (no_function : c.kind = .container ∨ c.kind = .subtreeTable →
      ∀ arg ∈ (splitArguments c.inner).drop 1, functionLiteral? arg = none) : IsBody c []

/-- The declaration that a call stands for, given those in its body. -/
inductive Declares (c : Call) (below : List Declaration) : Declaration → Prop
  | container (kind : c.kind = .container) :
      Declares c below (.container (labelOf (splitArguments c.inner)) below)
  | leaf (kind : c.kind = .leaf) : Declares c below (.leaf (labelOf (splitArguments c.inner)) .noop)
  | table (kind : c.kind = .table) :
      Declares c below (.table (labelOf (splitArguments c.inner)) ((bodyOf? (splitArguments c.inner)).bind (·.arity))
        (entriesOf (splitArguments c.inner)) (.leaves .noop))
  | subtreeTable (kind : c.kind = .subtreeTable) :
      Declares c below (.table (labelOf (splitArguments c.inner)) ((bodyOf? (splitArguments c.inner)).bind (·.arity))
        (entriesOf (splitArguments c.inner)) (.replay below))

end Call

mutual

/-- Some declarations are those of the outermost recognised positions of some trees, stray entries left out: one for
each, in order. -/
inductive ListsCalls : List TokenTree → List Declaration → Prop
  | intro {ts : List TokenTree} {ds : List Declaration} {positions : List Nat}
      (sorted : positions.Pairwise (· < ·))
      (mem_iff : ∀ i, i ∈ positions ↔ ∃ k, k ≠ .entry ∧ Outermost ts i k)
      (each : DeclareAt ts positions ds) : ListsCalls ts ds

/-- The calls at some positions declare one thing each, and what is declared in their bodies is listed in turn. -/
inductive DeclareAt : List TokenTree → List Nat → List Declaration → Prop
  | nil {ts : List TokenTree} : DeclareAt ts [] []
  | cons {ts body : List TokenTree} {i : Nat} {positions : List Nat} {d : Declaration}
      {ds below : List Declaration} {c : Call} (stands : c.StandsAt ts i) (isBody : c.IsBody body)
      (inner : ListsCalls body below) (declares : c.Declares below d) (rest : DeclareAt ts positions ds) :
      DeclareAt ts (i :: positions) (d :: ds)

end

theorem DeclareAt.append {ts : List TokenTree} {a b : List Nat} {ds es : List Declaration}
    (h : DeclareAt ts a ds) (h' : DeclareAt ts b es) : DeclareAt ts (a ++ b) (ds ++ es) := by
  induction a generalizing ds with
  | nil =>
    cases h
    exact h'
  | cons i a ih =>
    cases h with
    | cons stands isBody inner declares rest => exact .cons stands isBody inner declares (ih rest)

/-! ## Names -/

theorem mem_declaringNames_of_plainKind? {word : String} {k : CallKind} (h : plainKind? word = some k) :
    word ∈ declaringNames k := by
  unfold plainKind? at h
  split at h <;> cases h <;> decide

/-- A token declares something if it is a name that does, with a marker or without. -/
theorem Token.callKind?_eq_some_iff {t : Token} {k : CallKind} :
    t.callKind? = some k ↔ t.kind = .name ∧ ∃ name : CallName k, t.text.toList = name.text := by
  constructor
  · intro h
    rw [Token.callKind?] at h
    split at h
    · rename_i hkind
      refine ⟨hkind, ?_⟩
      have hword := mem_declaringNames_of_plainKind? h
      unfold baseName at hword
      split at hword
      · rename_i m c rest htext
        split at hword
        · rename_i hmarker
          have hletter : ∃ marker : Marker, marker.letter = m := by
            simp only [Bool.and_eq_true, Bool.or_eq_true, beq_iff_eq] at hmarker
            rcases hmarker.1 with (rfl | rfl) | rfl
            · exact ⟨.focused, rfl⟩
            · exact ⟨.pending, rfl⟩
            · exact ⟨.excluded, rfl⟩
          obtain ⟨marker, rfl⟩ := hletter
          exact ⟨⟨some marker, _, hword⟩, by simp [CallName.text, htext]⟩
        · exact ⟨⟨none, _, hword⟩, by simp [CallName.text]⟩
      · exact ⟨⟨none, _, hword⟩, by simp [CallName.text]⟩
    · cases h
  · rintro ⟨hkind, name, htext⟩
    have hname := (plainKind?_of_mem_declaringNames k name.marker name.word name.mem).2
    have hsame : t.text = String.ofList name.text := by rw [← htext, String.ofList_toList]
    rw [Token.callKind?, if_pos hkind, hsame]
    exact hname

theorem Recognised.callKind? {ts : List TokenTree} {i : Nat} {k : CallKind} {t : Token} (h : Recognised ts i k)
    (ht : (TokenTree.allTokens ts)[i]? = some t) : t.callKind? = some k := by
  obtain ⟨u, hu, hname⟩ := h.name
  obtain rfl : t = u := by
    rw [ht] at hu
    exact Option.some.inj hu
  exact Token.callKind?_eq_some_iff.mpr hname

/-- Only a name is recognised. -/
theorem not_recognised_of_kind {ts : List TokenTree} {i : Nat} {t : Token}
    (ht : (TokenTree.allTokens ts)[i]? = some t) (hkind : t.kind ≠ .name) (k : CallKind) : ¬ Recognised ts i k :=
  fun h => hkind (Token.callKind?_eq_some_iff.mp (h.callKind? ht)).1

theorem behindFunc_succ_iff {ts : List TokenTree} {i : Nat} {t : Token}
    (ht : (TokenTree.allTokens ts)[i]? = some t) : BehindFunc ts (i + 1) ↔ t.isName "func" = true := by
  constructor
  · rintro ⟨j, u, hj, hu, hfunc⟩
    obtain rfl : i = j := Nat.succ.inj hj
    rw [ht] at hu
    exact Option.some.inj hu ▸ hfunc
  · intro hfunc
    exact ⟨i, t, rfl, ht, hfunc⟩

theorem Token.isName_of_kind {t : Token} (h : t.kind ≠ .name) (name : String) : t.isName name = false := by
  simp [Token.isName, h]

/-! ## Parts of some trees -/

theorem mem_pairsAll_group {n a b : Nat} {opening closing : Token} {d : Delimiter} {inner rest : List TokenTree} :
    (a, b) ∈ pairsAll n (.group opening closing d inner :: rest) ↔
      (a = n ∧ b = n + 1 + width inner) ∨ (a, b) ∈ pairsAll (n + 1) inner ∨
        (a, b) ∈ pairsAll (n + width inner + 2) rest := by
  rw [mem_pairsAll_cons, TokenTree.mem_pairs_group, TokenTree.length_tokens_group, or_assoc]
  rfl

/-- Some trees stand in others from a position on, as the last ones between two brackets or at the end. -/
structure Within (all : List TokenTree) (n : Nat) (part : List TokenTree) : Prop where
  tokens : ∃ front back, TokenTree.allTokens all = front ++ (TokenTree.allTokens part ++ back) ∧ front.length = n ∧
    ∀ t ∈ back.head?, t.kind ≠ .opening .paren
  pairs : ∀ p ∈ pairsAll n part, p ∈ pairsAll 0 all
  /-- No other pair has a bracket in the part. -/
  own : ∀ a b, (a, b) ∈ pairsAll 0 all → n ≤ a ∧ a < n + width part ∨ n ≤ b ∧ b < n + width part →
    (a, b) ∈ pairsAll n part

namespace Within

variable {all rest inner : List TokenTree} {n : Nat} {t opening closing : Token} {d : Delimiter}

theorem whole (ts : List TokenTree) : Within ts 0 ts where
  tokens := ⟨[], [], by simp, rfl, by simp⟩
  pairs _ h := h
  own _ _ h _ := h

theorem getElem?_eq {part : List TokenTree} (h : Within all n part) {i : Nat} (hi : i < width part) :
    (TokenTree.allTokens all)[n + i]? = (TokenTree.allTokens part)[i]? := by
  obtain ⟨front, back, htokens, rfl, -⟩ := h.tokens
  rw [htokens, List.getElem?_append_right (by omega), Nat.add_sub_cancel_left, List.getElem?_append_left hi]

theorem token (h : Within all n (.token t :: rest)) :
    (TokenTree.allTokens all)[n]? = some t ∧ Within all (n + 1) rest := by
  refine ⟨h.getElem?_eq (i := 0) (by simp), ?_, h.pairs, ?_⟩
  · obtain ⟨front, back, htokens, rfl, hback⟩ := h.tokens
    exact ⟨front ++ [t], back, by simpa [TokenTree.allTokens, TokenTree.tokens] using htokens, by simp, hback⟩
  · intro a b hpair hin
    exact h.own a b hpair (by rw [width_token]; omega)

section

variable (h : Within all n (.group opening closing d inner :: rest))

include h

theorem group_opening : (TokenTree.allTokens all)[n]? = some opening :=
  h.getElem?_eq (i := 0) (by simp)

theorem group_closing : (TokenTree.allTokens all)[n + 1 + width inner]? = some closing := by
  have hget := h.getElem?_eq (i := width inner + 1) (by rw [width_group]; omega)
  rw [Nat.add_assoc, Nat.add_comm 1, hget, allTokens_group, List.getElem?_cons_succ, width,
    List.getElem?_append_right (Nat.le_refl _), Nat.sub_self]
  rfl

theorem group_pair : (n, n + 1 + width inner) ∈ pairsAll 0 all :=
  h.pairs _ (mem_pairsAll_group.mpr (.inl ⟨rfl, rfl⟩))

/-- A pair with a bracket from a group on is that of the group, lies inside it, or lies behind it. -/
theorem group_cases {a b : Nat} (hpair : (a, b) ∈ pairsAll 0 all)
    (hin : n ≤ a ∧ a < n + width inner + 2 + width rest ∨ n ≤ b ∧ b < n + width inner + 2 + width rest) :
    a = n ∧ b = n + 1 + width inner ∨
      n < a ∧ a < b ∧ b < n + 1 + width inner ∧ (a, b) ∈ pairsAll (n + 1) inner ∨
      n + width inner + 2 ≤ a ∧ a < b ∧ (a, b) ∈ pairsAll (n + width inner + 2) rest := by
  rcases mem_pairsAll_group.mp (h.own a b hpair (by rw [width_group]; omega)) with hgroup | hinner | hrest
  · exact .inl hgroup
  · have hbounds : n + 1 ≤ a ∧ a < b ∧ b < n + 1 + width inner := bounds_of_mem_pairsAll hinner
    exact .inr (.inl ⟨by omega, by omega, by omega, hinner⟩)
  · have hbounds := bounds_of_mem_pairsAll hrest
    exact .inr (.inr ⟨by omega, by omega, hrest⟩)

theorem group_inner (hclosing : closing.kind = .closing d) : Within all (n + 1) inner where
  tokens := by
    obtain ⟨front, back, htokens, rfl, -⟩ := h.tokens
    refine ⟨front ++ [opening], closing :: (TokenTree.allTokens rest ++ back), ?_, by simp, by simp [hclosing]⟩
    simpa [allTokens_group] using htokens
  pairs p hp := h.pairs p (mem_pairsAll_group.mpr (.inr (.inl hp)))
  own a b hpair hin := by
    rcases h.group_cases hpair (by omega) with hgroup | ⟨-, -, -, hinner⟩ | hrest
    · omega
    · exact hinner
    · omega

theorem group_behind : Within all (n + width inner + 2) rest where
  tokens := by
    obtain ⟨front, back, htokens, rfl, hback⟩ := h.tokens
    refine ⟨front ++ (opening :: (TokenTree.allTokens inner ++ [closing])), back, ?_, ?_, hback⟩
    · simpa [allTokens_group] using htokens
    · simp [width, Nat.add_assoc]
  pairs p hp := h.pairs p (mem_pairsAll_group.mpr (.inr (.inr hp)))
  own a b hpair hin := by
    rcases h.group_cases hpair (by omega) with hgroup | hinner | ⟨-, -, hrest⟩
    · omega
    · omega
    · exact hrest

theorem not_behindFunc_group (hclosing : closing.kind = .closing d) :
    ¬ BehindFunc all (n + width inner + 2) := by
  have hindex : n + width inner + 2 = n + 1 + width inner + 1 := by omega
  rw [hindex, behindFunc_succ_iff h.group_closing, Token.isName_of_kind (by simp [hclosing])]
  exact Bool.false_ne_true

/-- Behind a group stands a receiver if the group has parentheses and stands itself behind the word. -/
theorem behindReceiver_group_iff (hopening : opening.kind = .opening d) :
    BehindReceiver all (n + width inner + 2) ↔ BehindFunc all n ∧ d = .paren := by
  constructor
  · rintro ⟨a, b, hb, hpair, ⟨t, ht, hparen⟩, hfunc⟩
    obtain rfl : b = n + 1 + width inner := by omega
    obtain rfl : a = n := by
      have := h.group_cases hpair (by omega)
      omega
    rw [h.group_opening] at ht
    obtain rfl := Option.some.inj ht
    rw [hopening] at hparen
    exact ⟨hfunc, TokenKind.opening.inj hparen⟩
  · rintro ⟨hfunc, rfl⟩
    exact ⟨n, _, by omega, h.group_pair, ⟨opening, h.group_opening, hopening⟩, hfunc⟩

/-- No call that begins in a group reaches behind the group. -/
theorem le_of_inParens_behind_group (hopening : opening.kind = .opening d) (hclosing : closing.kind = .closing d)
    {i j : Nat} {k : CallKind} (hj : Recognised all j k) (hin : InParens all j i) (hle : n ≤ j)
    (hi : n + width inner + 2 ≤ i) : n + width inner + 2 ≤ j := by
  obtain ⟨b, hpair, -, hib⟩ := hin
  have hfirst : j ≠ n := by
    rintro rfl
    exact not_recognised_of_kind h.group_opening (by simp [hopening]) k hj
  have hlast : j ≠ n + 1 + width inner := by
    rintro rfl
    exact not_recognised_of_kind h.group_closing (by simp [hclosing]) k hj
  by_contra hlt
  have := h.group_cases hpair (by omega)
  omega

end

/-- No pair of brackets closes where something else begins. -/
theorem not_behindReceiver_succ {part : List TokenTree} (h : Within all n part) (hpart : 0 < width part) :
    ¬ BehindReceiver all (n + 1) := by
  rintro ⟨a, b, hb, hpair, -⟩
  obtain rfl : n = b := Nat.succ.inj hb
  have := bounds_of_mem_pairsAll (h.own a n hpair (.inr ⟨Nat.le_refl n, by omega⟩))
  omega

end Within

/-! ## Steps of the scan -/

theorem Prior.afterToken_eq_func_iff {t : Token} : Prior.afterToken t = .func ↔ t.isName "func" = true := by
  rw [Prior.afterToken]
  split <;> simp [*]

theorem Prior.afterToken_ne_receiver (t : Token) : Prior.afterToken t ≠ .receiver := by
  rw [Prior.afterToken]
  split <;> simp

theorem Prior.afterGroup_eq_receiver_iff {p : Prior} {d : Delimiter} :
    p.afterGroup d = .receiver ↔ p = .func ∧ d = .paren := by
  rw [Prior.afterGroup]
  split <;> simp [*]

theorem Prior.afterGroup_ne_func (p : Prior) (d : Delimiter) : p.afterGroup d ≠ .func := by
  rw [Prior.afterGroup]
  split <;> simp

/-- A scan comes to a part of some trees, given what it takes to stand before the part. No recognised call that begins
before the part reaches into it. -/
structure ComesTo (all : List TokenTree) (n : Nat) (prior : Prior) (part : List TokenTree) : Prop
    extends Within all n part where
  fits : AllFit part
  func_iff : prior = .func ↔ BehindFunc all n
  receiver_iff : prior = .receiver ↔ BehindReceiver all n
  free : ∀ i j k, Recognised all j k → InParens all j i → n ≤ i → i < n + width part → n ≤ j

namespace ComesTo

variable {all rest inner : List TokenTree} {n : Nat} {prior : Prior} {t opening closing : Token} {d : Delimiter}

theorem whole {ts : List TokenTree} (h : AllFit ts) : ComesTo ts 0 .other ts where
  toWithin := .whole ts
  fits := h
  func_iff := by simp [BehindFunc]
  receiver_iff := by simp [BehindReceiver]
  free _ j _ _ _ _ _ := Nat.zero_le j

theorem recognised_call {k : CallKind}
    (h : ComesTo all n prior (.token t :: .group opening closing .paren inner :: rest))
    (hcall : callAt? prior (.token t :: .group opening closing .paren inner :: rest) = some k) :
    Recognised all n k := by
  obtain ⟨_, _, _, _, _, heq, rfl, hkind⟩ := callAt?_eq_some hcall
  cases heq
  obtain ⟨hget, hgroup⟩ := h.toWithin.token
  refine ⟨⟨t, hget, Token.callKind?_eq_some_iff.mp hkind⟩, ⟨opening, hgroup.group_opening, h.fits.2.1.1⟩, ?_, ?_⟩
  · exact fun hfunc => Prior.noConfusion (h.func_iff.mpr hfunc)
  · exact fun hreceiver => Prior.noConfusion (h.receiver_iff.mpr hreceiver)

theorem callAt?_of_recognised {k : CallKind} (h : ComesTo all n prior (.token t :: rest)) (hn : Recognised all n k) :
    callAt? prior (.token t :: rest) = some k := by
  obtain ⟨hget, hrest⟩ := h.toWithin.token
  have hkind := hn.callKind? hget
  have hprior : prior = .other := by
    cases hprior : prior with
    | other => rfl
    | func => exact absurd (h.func_iff.mp hprior) hn.no_function
    | receiver => exact absurd (h.receiver_iff.mp hprior) hn.no_method
  obtain ⟨u, hu, hparen⟩ := hn.called
  -- the parenthesis behind the name opens a group of the part, since none stands behind the part
  cases rest with
  | nil =>
    obtain ⟨front, back, htokens, hlength, hback⟩ := hrest.tokens
    rw [htokens, List.getElem?_append_right (by omega), hlength, Nat.sub_self] at hu
    exact absurd hparen (hback u (by rw [List.head?_eq_getElem?]; exact hu))
  | cons v rest =>
    cases v with
    | token v =>
      rw [hrest.token.1] at hu
      obtain rfl := Option.some.inj hu
      exact absurd hparen (ne_opening_of_isBracket h.fits.2.1 .paren)
    | group opening closing d inner =>
      rw [hrest.group_opening] at hu
      obtain rfl := Option.some.inj hu
      rw [h.fits.2.1.1] at hparen
      obtain rfl := TokenKind.opening.inj hparen
      rw [callAt?, if_pos hprior, hkind]

theorem token (h : ComesTo all n prior (.token t :: rest)) (hcall : callAt? prior (.token t :: rest) = none) :
    ComesTo all (n + 1) (.afterToken t) rest := by
  obtain ⟨hget, hrest⟩ := h.toWithin.token
  refine ⟨hrest, h.fits.2, ?_, ?_, ?_⟩
  · rw [behindFunc_succ_iff hget, Prior.afterToken_eq_func_iff]
  · exact iff_of_false (Prior.afterToken_ne_receiver t) (h.toWithin.not_behindReceiver_succ (by simp))
  · intro i j k hj hin hle hlt
    have hne : j ≠ n := by
      rintro rfl
      rw [h.callAt?_of_recognised hj] at hcall
      cases hcall
    have := h.free i j k hj hin (by omega) (by rw [width_token]; omega)
    omega

theorem group_inner (h : ComesTo all n prior (.group opening closing d inner :: rest)) :
    ComesTo all (n + 1) .other inner := by
  obtain ⟨⟨hopening, hclosing, hinner⟩, -⟩ := h.fits
  refine ⟨h.toWithin.group_inner hclosing, hinner, ?_, ?_, ?_⟩
  · have hno := behindFunc_succ_iff h.group_opening
    rw [Token.isName_of_kind (by simp [hopening])] at hno
    simp [hno]
  · exact iff_of_false Prior.noConfusion (h.toWithin.not_behindReceiver_succ (by rw [width_group]; omega))
  · intro i j k hj hin hle hlt
    have hne : j ≠ n := by
      rintro rfl
      exact not_recognised_of_kind h.group_opening (by simp [hopening]) k hj
    have := h.free i j k hj hin (by omega) (by rw [width_group]; omega)
    omega

theorem group_behind (h : ComesTo all n prior (.group opening closing d inner :: rest)) :
    ComesTo all (n + width inner + 2) (prior.afterGroup d) rest := by
  obtain ⟨⟨hopening, hclosing, -⟩, hrest⟩ := h.fits
  refine ⟨h.toWithin.group_behind, hrest, ?_, ?_, ?_⟩
  · exact iff_of_false (prior.afterGroup_ne_func d) (h.not_behindFunc_group hclosing)
  · rw [h.behindReceiver_group_iff hopening, ← h.func_iff, Prior.afterGroup_eq_receiver_iff]
  · intro i j k hj hin hle hlt
    have := h.free i j k hj hin (by omega) (by rw [width_group]; omega)
    exact h.le_of_inParens_behind_group hopening hclosing hj hin this hle

theorem call_behind {k : CallKind} (h : ComesTo all n prior (.token t :: .group opening closing .paren inner :: rest))
    (hkind : t.callKind? = some k) : ComesTo all (n + 1 + width inner + 2) .other rest := by
  obtain ⟨-, ⟨hopening, hclosing, -⟩, hrest⟩ := h.fits
  obtain ⟨hget, hgroup⟩ := h.toWithin.token
  refine ⟨hgroup.group_behind, hrest, ?_, ?_, ?_⟩
  · exact iff_of_false Prior.noConfusion (hgroup.not_behindFunc_group hclosing)
  · refine iff_of_false Prior.noConfusion ?_
    rw [hgroup.behindReceiver_group_iff hopening, behindFunc_succ_iff hget, ← Prior.afterToken_eq_func_iff,
      afterToken_of_callKind? hkind]
    simp
  · intro i j k hj hin hle hlt
    have := h.free i j k hj hin (by omega) (by rw [width_token, width_group]; omega)
    -- the call itself ends with its parentheses
    have hne : j ≠ n := by
      rintro rfl
      obtain ⟨b, hpair, -, hib⟩ := hin
      have := hgroup.group_cases hpair (by omega)
      omega
    exact hgroup.le_of_inParens_behind_group hopening hclosing hj hin (by omega) hle

end ComesTo

/-! ## What is found -/

/-- Some declarations are those of the outermost recognised positions from one position up to another. -/
def ListsBetween (all : List TokenTree) (low high : Nat) (ds : List Declaration) : Prop :=
  ∃ positions : List Nat, positions.Pairwise (· < ·) ∧
    (∀ i, i ∈ positions ↔ low ≤ i ∧ i < high ∧ ∃ k, k ≠ .entry ∧ Outermost all i k) ∧ DeclareAt all positions ds

namespace ListsBetween

variable {all : List TokenTree} {low middle high : Nat} {ds es : List Declaration}

theorem append (h : ListsBetween all low middle ds) (h' : ListsBetween all middle high es) (hlow : low ≤ middle)
    (hhigh : middle ≤ high) : ListsBetween all low high (ds ++ es) := by
  obtain ⟨a, hsorted, hmem, hdeclare⟩ := h
  obtain ⟨b, hsorted', hmem', hdeclare'⟩ := h'
  refine ⟨a ++ b, ?_, ?_, hdeclare.append hdeclare'⟩
  · refine List.pairwise_append.mpr ⟨hsorted, hsorted', fun i hi j hj => ?_⟩
    have := ((hmem i).mp hi).2.1
    have := ((hmem' j).mp hj).1
    omega
  · intro i
    rw [List.mem_append, hmem, hmem']
    constructor
    · rintro (⟨hle, hlt, hk⟩ | ⟨hle, hlt, hk⟩)
      · exact ⟨hle, by omega, hk⟩
      · exact ⟨by omega, hlt, hk⟩
    · rintro ⟨hle, hlt, hk⟩
      by_cases hi : i < middle
      · exact .inl ⟨hle, hi, hk⟩
      · exact .inr ⟨by omega, hlt, hk⟩

theorem none (h : ∀ i k, low ≤ i → i < high → k ≠ .entry → ¬ Outermost all i k) : ListsBetween all low high [] := by
  refine ⟨[], .nil, fun i => iff_of_false List.not_mem_nil ?_, .nil⟩
  rintro ⟨hle, hlt, k, hk, hi⟩
  exact h i k hle hlt hk hi

theorem single {k : CallKind} {d : Declaration} (hk : k ≠ .entry) (hi : Outermost all low k)
    (hd : DeclareAt all [low] [d]) : ListsBetween all low (low + 1) [d] := by
  refine ⟨[low], List.pairwise_singleton _ _, fun i => ?_, hd⟩
  rw [List.mem_singleton]
  constructor
  · rintro rfl
    exact ⟨Nat.le_refl _, Nat.lt_succ_self _, k, hk, hi⟩
  · rintro ⟨hle, hlt, -⟩
    omega

theorem none_at {t : Token} (ht : (TokenTree.allTokens all)[low]? = some t) (hkind : t.kind ≠ .name) :
    ListsBetween all low (low + 1) [] := by
  refine none fun i k hle hlt _ hi => ?_
  obtain rfl : i = low := by omega
  exact not_recognised_of_kind ht hkind k hi.recognised

theorem listsCalls {ts : List TokenTree} (h : ListsBetween ts 0 (width ts) ds) : ListsCalls ts ds := by
  obtain ⟨positions, hsorted, hmem, hdeclare⟩ := h
  refine .intro hsorted (fun i => ?_) hdeclare
  rw [hmem]
  constructor
  · exact fun hi => hi.2.2
  · rintro ⟨k, hk, hi⟩
    obtain ⟨t, ht, -⟩ := hi.recognised.name
    exact ⟨Nat.zero_le i, (List.getElem?_eq_some_iff.mp ht).1, k, hk, hi⟩

end ListsBetween

theorem Call.isBody_body (c : Call) : c.IsBody c.body := by
  by_cases hkind : c.kind = .container ∨ c.kind = .subtreeTable
  · have hpart : c.body = _ := scannedPart_eq c.inner hkind
    cases hbody : bodyOf? (splitArguments c.inner) with
    | none =>
      rw [hpart, hbody]
      exact .none fun _ => List.findSome?_eq_none_iff.mp hbody
    | some f =>
      obtain ⟨before, arg, after, hargs, hfunction, hfirst⟩ := List.findSome?_eq_some_iff.mp hbody
      rw [hpart, hbody]
      cases hpieces : splitArguments c.inner with
      | nil => simp [hpieces] at hargs
      | cons label args =>
        rw [hpieces] at hargs
        exact .function hkind (hpieces.trans (congrArg (label :: ·) hargs)) hfirst hfunction
  · have hpart : c.body = [] := by
      by_contra hne
      exact hkind (c.exists_function hne).1
    rw [hpart]
    exact .none fun h => absurd h hkind

/-- The body of a call fits if the call does. -/
theorem Call.body_fits {c : Call} (h : AllFit c.inner) : AllFit c.body := by
  by_cases hne : c.body = []
  · rw [hne]
    trivial
  · obtain ⟨front, first, last, back, hinner, -⟩ := c.exchange_body hne
    rw [hinner] at h
    exact (allFit_append.mp h).2.1.2.2

/-- A call that is no entry declares one thing. -/
theorem Call.exists_declares {c : Call} (h : c.kind ≠ .entry) :
    ∃ d, c.declarations = [d] ∧ c.Declares (scanTrees .other c.body).declarations d := by
  cases hkind : c.kind with
  | container => exact ⟨_, by rw [Call.declarations, hkind]; rfl, .container hkind⟩
  | leaf => exact ⟨_, by rw [Call.declarations, hkind]; rfl, .leaf hkind⟩
  | table => exact ⟨_, by rw [Call.declarations, hkind]; rfl, .table hkind⟩
  | subtreeTable => exact ⟨_, by rw [Call.declarations, hkind]; rfl, .subtreeTable hkind⟩
  | entry => exact absurd hkind h

/-- What is found where a call begins, given what is listed in its body. -/
theorem ComesTo.listsBetween_call {all rest : List TokenTree} {n : Nat} {prior : Prior} {c : Call}
    (h : ComesTo all n prior (c.trees ++ rest)) (hcall : callAt? prior (c.trees ++ rest) = some c.kind)
    (hbody : ListsCalls c.body (scanTrees .other c.body).declarations) :
    ListsBetween all n (n + 1) c.declarations := by
  have hn := h.recognised_call hcall
  have houter : Outermost all n c.kind := by
    refine ⟨hn, fun j k hj hin => ?_⟩
    have hle := h.free n j k hj hin (Nat.le_refl n) (by simp [Call.trees])
    obtain ⟨_, -, hlt, -⟩ := hin
    omega
  by_cases hentry : c.kind = .entry
  · have hnone : c.declarations = [] := by rw [Call.declarations, hentry]; rfl
    rw [hnone]
    refine .none fun i k hle hlt hk hi => hk ?_
    obtain rfl : i = n := by omega
    have hkind := hi.recognised.callKind? h.toWithin.token.1
    rw [hn.callKind? h.toWithin.token.1, hentry] at hkind
    exact (Option.some.inj hkind).symm
  · obtain ⟨d, hd, hdeclares⟩ := Call.exists_declares hentry
    rw [hd]
    have hstands : c.StandsAt all n := by
      refine ⟨?_, (allFit_append.mp h.fits).1, hn.callKind? h.toWithin.token.1⟩
      obtain ⟨front, back, htokens, rfl, -⟩ := h.tokens
      rw [htokens, List.drop_left, allTokens_append, List.append_assoc]
      exact List.prefix_append _ _
    exact .single hentry houter (.cons hstands c.isBody_body hbody hdeclares .nil)

/-- Nothing is found in the parentheses of a recognised call. -/
theorem Within.listsBetween_parens {all inner rest : List TokenTree} {n : Nat} {k : CallKind} {opening closing : Token}
    (h : Within all (n + 1) (.group opening closing .paren inner :: rest)) (hn : Recognised all n k)
    (hopening : opening.kind = .opening .paren) (hclosing : closing.kind = .closing .paren) :
    ListsBetween all (n + 1) (n + 1 + width inner + 2) [] := by
  have hinside : ListsBetween all (n + 1 + 1) (n + 1 + 1 + width inner) [] :=
    .none fun i _ hle hlt _ hi => hi.outside n k hn ⟨_, h.group_pair, hle, hlt⟩
  have hfirst := ListsBetween.none_at h.group_opening (by simp [hopening])
  have hlast := ListsBetween.none_at h.group_closing (by simp [hclosing])
  have hend : n + 1 + 1 + width inner + 1 = n + 1 + width inner + 2 := by omega
  rw [hend] at hlast
  exact (hfirst.append hinside (by omega) (by omega)).append hlast (by omega) (by omega)

/-- From where a scan has come to, it finds the outermost calls. -/
theorem ComesTo.listsBetween {prior : Prior} {part all : List TokenTree} {n : Nat} (h : ComesTo all n prior part) :
    ListsBetween all n (n + width part) (scanTrees prior part).declarations := by
  induction prior, part using scanTrees_induct generalizing all n with
  | nil prior =>
    rw [scanTrees_nil]
    exact .none fun i k hle hlt => absurd hlt (by rw [width_nil]; omega)
  | call prior name opening closing inner rest k hcall ihpart ihrest =>
    let c : Call := ⟨k, name, opening, closing, inner⟩
    have hn := h.recognised_call hcall
    obtain ⟨hget, hgroup⟩ := h.toWithin.token
    obtain ⟨-, ⟨hopening, hclosing, hinner⟩, -⟩ := h.fits
    -- the body is scanned as trees of their own: its positions are counted anew
    have hbody : ListsCalls c.body (scanTrees .other c.body).declarations := by
      have hbetween := ihpart (.whole (Call.body_fits (c := c) hinner))
      rw [Nat.zero_add] at hbetween
      exact hbetween.listsCalls
    have hfirst := h.listsBetween_call (c := c) hcall hbody
    have hparens := hgroup.listsBetween_parens hn hopening hclosing
    have hrest := ihrest (h.call_behind (hn.callKind? hget))
    have hdeclared : (scanTrees prior (.token name :: .group opening closing .paren inner :: rest)).declarations =
        (c.declarations ++ []) ++ (scanTrees .other rest).declarations := by
      rw [List.append_nil]
      exact declarations_scanTrees_call (c := c) hcall
    have hend : n + width (.token name :: .group opening closing .paren inner :: rest) =
        n + 1 + width inner + 2 + width rest := by
      rw [width_token, width_group]
      omega
    rw [hdeclared, hend]
    exact (hfirst.append hparens (by omega) (by omega)).append hrest (by omega) (by omega)
  | token prior t rest hcall ih =>
    have hnone : ListsBetween all n (n + 1) [] := by
      refine .none fun i k hle hlt _ hi => ?_
      obtain rfl : i = n := by omega
      rw [h.callAt?_of_recognised hi.recognised] at hcall
      cases hcall
    have hend : n + width (.token t :: rest) = n + 1 + width rest := by
      rw [width_token]
      omega
    rw [scanTrees_token hcall, hend]
    exact hnone.append (ih (h.token hcall)) (by omega) (by omega)
  | group prior opening closing d inner rest ihinner ihrest =>
    obtain ⟨⟨hopening, hclosing, -⟩, -⟩ := h.fits
    have hfirst := ListsBetween.none_at h.group_opening (by simp [hopening])
    have hlast := ListsBetween.none_at h.group_closing (by simp [hclosing])
    have hend : n + 1 + width inner + 1 = n + width inner + 2 := by omega
    have hend' : n + width (.group opening closing d inner :: rest) = n + width inner + 2 + width rest := by
      rw [width_group]
      omega
    rw [hend] at hlast
    have hgroup := (hfirst.append (ihinner h.group_inner) (by omega) (by omega)).append hlast (by omega) (by omega)
    rw [List.nil_append, List.append_nil] at hgroup
    rw [declarations_scanTrees_group, hend']
    exact hgroup.append (ihrest h.group_behind) (by omega) (by omega)

/-- The declarations of a source are those of its outermost recognised calls, stray entries left out, and the same
holds in the bodies in which declarations are looked for. -/
theorem scan_lists_outermost_calls {source : String} {ts : List Token} {trees : List TokenTree}
    (htokens : tokens source = .ok ts) (hgroup : group ts = .ok trees) :
    ∃ found, scan source = .ok found ∧ TokenTree.allTokens trees = ts ∧ ListsCalls trees found.declarations := by
  obtain ⟨hfits, hall⟩ := (group_eq_ok_iff ts trees).mp hgroup
  obtain ⟨found, hfound, hdeclared⟩ := exists_scan htokens hgroup
  refine ⟨found, hfound, hall, ?_⟩
  have hbetween := (ComesTo.whole hfits).listsBetween
  rw [Nat.zero_add] at hbetween
  rw [hdeclared]
  exact hbetween.listsCalls

set_option maxRecDepth 2000 in
/-- A call in plain code, in a function that has the name of a call. A call in its own parentheses and a stray entry
declare nothing. -/
theorem scan_lists_outermost_calls_plain_code :
    let source := "func It() \x7b if x \x7b It(\"a\", It(\"b\")) \x7d Entry(\"c\") \x7d"
    ∃ ts trees found, tokens source = .ok ts ∧ group ts = .ok trees ∧ scan source = .ok found ∧
      found.declarations = [.leaf "a" .noop] ∧ ListsCalls trees found.declarations := by
  obtain ⟨ts, trees, htokens, hgroup, hdeclared⟩ :
      ∃ ts trees, tokens "func It() \x7b if x \x7b It(\"a\", It(\"b\")) \x7d Entry(\"c\") \x7d" = .ok ts ∧
        group ts = .ok trees ∧ (scanTrees .other trees).declarations = [.leaf "a" .noop] := by
    refine ⟨_, _, by cbv, by cbv, ?_⟩
    rw [scanTrees_token rfl, scanTrees_token rfl, scanTrees_group, scanTrees_nil, scanTrees_group, scanTrees_nil,
      scanTrees_token rfl, scanTrees_token rfl, scanTrees_group, scanTrees_call (k := .leaf) rfl, scanTrees_nil,
      scanTrees_call (k := .entry) rfl, scanTrees_nil]
    rfl
  obtain ⟨found, hfound, -, hlists⟩ := scan_lists_outermost_calls htokens hgroup
  obtain ⟨_, hsame, hfinal⟩ := exists_scan_declaring htokens hgroup hdeclared
  rw [hfound] at hsame
  cases hsame
  exact ⟨ts, trees, found, htokens, hgroup, hfound, hfinal, hlists⟩

end SpecForest.Source

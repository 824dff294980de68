import SpecForest.Proofs.Source.Locality
import SpecForest.Proofs.Source.Signs

/-!
# The text of an argument that is no literal

A label, the description of an entry or an argument of an entry that is no literal is kept as source text. That text is
cut out of the source, from the first token of the argument to the last one. By itself it is read as the same tokens:
the brackets among them are balanced, and a comma among them stands in brackets.
-/

namespace SpecForest.Source

/-! ## Arguments in their places -/

/-- The tokens of some trees stand one behind the other among those of others, and their brackets fit if all brackets
do. -/
structure StandAmong (trees arg : List TokenTree) : Prop where
  tokens : ∃ before after, TokenTree.allTokens trees = before ++ (TokenTree.allTokens arg ++ after)
  fits : AllFit trees → AllFit arg

theorem StandAmong.trans {trees mid arg : List TokenTree} (h : StandAmong trees mid) (h' : StandAmong mid arg) :
    StandAmong trees arg := by
  obtain ⟨before, after, htrees⟩ := h.tokens
  obtain ⟨before', after', hmid⟩ := h'.tokens
  refine ⟨⟨before ++ before', after' ++ after, ?_⟩, fun hfit => h'.fits (h.fits hfit)⟩
  rw [htrees, hmid]
  simp only [List.append_assoc]

theorem standAmong_of_split {ts arg : List TokenTree} {before after : List (List TokenTree)}
    (h : splitArguments ts = before ++ arg :: after) : StandAmong ts arg := by
  obtain ⟨-, front, back, rfl, -⟩ := splitArguments_exchange h
  refine ⟨⟨TokenTree.allTokens front, TokenTree.allTokens back, ?_⟩, ?_⟩
  · rw [allTokens_append, allTokens_append]
  · intro hfit
    exact (allFit_append.mp (allFit_append.mp hfit).2).1

theorem Call.standAmong_inner (c : Call) : StandAmong c.trees c.inner :=
  ⟨⟨[c.name, c.opening], [c.closing], c.allTokens_trees⟩, fun hfit => hfit.2.1.2.2⟩

theorem Finds.standAmong {c : Call} {prior : Prior} {ts : List TokenTree} (h : Finds c prior ts) :
    StandAmong ts c.trees := by
  obtain ⟨before, after, hexchange⟩ := h.exchange
  obtain ⟨_, hself⟩ := hexchange c ⟨rfl, rfl, rfl⟩
  exact ⟨⟨before, after, hself.tokens⟩, h.fits⟩

/-- What a call declares, with a label and with the entries of a table. -/
def Call.declaredWith (c : Call) (label : String) (entries : List Entry) : Declaration :=
  match c.kind with
  | .container => .container label (scanTrees .other c.body).declarations
  | .leaf => .leaf label .noop
  | _ => .table label ((bodyOf? (splitArguments c.inner)).bind (·.arity)) entries c.tableBody

theorem Call.declarations_eq {c : Call} (h : c.kind ≠ .entry) :
    c.declarations =
      [c.declaredWith (labelOf (splitArguments c.inner)) (entriesOf (splitArguments c.inner))] := by
  cases hkind : c.kind with
  | container => simp only [Call.declarations, Call.declaredWith, hkind, declareCall]
  | leaf => simp only [Call.declarations, Call.declaredWith, hkind, declareCall]
  | table => simp only [Call.declaredWith, hkind, Call.declarations_table (.inl hkind)]
  | subtreeTable => simp only [Call.declaredWith, hkind, Call.declarations_table (.inr hkind)]
  | entry => exact absurd hkind h

/-- An entry of a table that a scan comes to, by the arguments of the entry. -/
structure EntryIn (trees : List TokenTree) (pieces : List (List TokenTree)) where
  table : Call
  finds : Finds table .other trees
  isTable : table.kind = .table ∨ table.kind = .subtreeTable
  /-- The arguments of the table before the entry, the label among them. -/
  before : List (List TokenTree)
  after : List (List TokenTree)
  behind_label : before ≠ []
  entry : Call
  isEntry : entry.name.callKind? = some .entry
  arguments : splitArguments table.inner = before ++ entry.trees :: after
  pieces_eq : splitArguments entry.inner = pieces

namespace EntryIn

variable {trees : List TokenTree} {pieces : List (List TokenTree)}

/-- The table, with a row in the place of the entry. -/
def declared (e : EntryIn trees pieces) (row : Entry) : Declaration :=
  e.table.declaredWith (labelOf (splitArguments e.table.inner)) (entriesOf e.before ++ row :: e.after.filterMap entry?)

theorem mem_declarations {description : List TokenTree} {params : List (List TokenTree)}
    (e : EntryIn trees (description :: params)) :
    e.declared (rowOf (readValue description) (rowValues params)) ∈ e.table.declarations := by
  obtain ⟨label, before, hbefore⟩ := List.exists_cons_of_ne_nil e.behind_label
  have hkind : e.table.kind ≠ .entry := by
    rcases e.isTable with h | h <;> rw [h] <;> decide
  have hentries : entriesOf (splitArguments e.table.inner) =
      entriesOf e.before ++ rowOf (readValue description) (rowValues params) :: e.after.filterMap entry? := by
    rw [e.arguments, hbefore, entriesOf_append, entry?_trees e.isEntry e.pieces_eq]
    simp [entriesOf]
  rw [Call.declarations_eq hkind, hentries, declared]
  exact List.mem_singleton_self _

theorem standAmong {arg : List TokenTree} {before after : List (List TokenTree)}
    (e : EntryIn trees (before ++ arg :: after)) : StandAmong trees arg := by
  have hentry : StandAmong trees e.entry.trees :=
    e.finds.standAmong.trans (e.table.standAmong_inner.trans (standAmong_of_split e.arguments))
  exact hentry.trans (e.entry.standAmong_inner.trans (standAmong_of_split e.pieces_eq))

end EntryIn

/-- An argument that a scan reads the value of, and what is declared with a value in its place: a label, the description
of an entry, or an argument of an entry that is no decorator. -/
inductive ReadFor (trees arg : List TokenTree) : (Value → Declaration) → Prop
  | label {c : Call} {others : List (List TokenTree)} (finds : Finds c .other trees) (declares : c.kind ≠ .entry)
      (pieces : splitArguments c.inner = arg :: others) :
      ReadFor trees arg fun v => c.declaredWith (labelText v) (entriesOf (splitArguments c.inner))
  | description {params : List (List TokenTree)} (e : EntryIn trees (arg :: params)) :
      ReadFor trees arg fun v => e.declared (rowOf v (rowValues params))
  | argument {description : List TokenTree} {params more : List (List TokenTree)}
      (e : EntryIn trees (description :: (params ++ arg :: more))) (value : isDecorator arg = false) :
      ReadFor trees arg fun v => e.declared (rowOf (readValue description) (rowValues params ++ v :: rowValues more))

namespace ReadFor

variable {trees arg : List TokenTree} {D : Value → Declaration}

/-- The value that is read is the one that is declared. -/
theorem declares (h : ReadFor trees arg D) : Declared (D (readValue arg)) (scanTrees .other trees).declarations := by
  rw [declared_scanTrees_iff]
  cases h with
  | @label c others finds declares pieces =>
    refine ⟨c, finds, ?_⟩
    rw [Call.declarations_eq declares, pieces]
    exact List.mem_singleton_self _
  | description e => exact ⟨e.table, e.finds, e.mem_declarations⟩
  | argument e value =>
    have hrow := e.mem_declarations
    rw [rowValues_append_cons value] at hrow
    exact ⟨e.table, e.finds, hrow⟩

theorem standAmong (h : ReadFor trees arg D) : StandAmong trees arg := by
  cases h with
  | @label c others finds declares pieces =>
    have hfirst : splitArguments c.inner = [] ++ arg :: others := pieces
    exact finds.standAmong.trans (c.standAmong_inner.trans (standAmong_of_split hfirst))
  | @description params e =>
    have hfirst : EntryIn trees ([] ++ arg :: params) := e
    exact hfirst.standAmong
  | @argument description params more e value =>
    have hlater : EntryIn trees ((description :: params) ++ arg :: more) := e
    exact hlater.standAmong

/-- No comma stands between the trees of an argument. -/
theorem no_comma (h : ReadFor trees arg D) : ∀ t ∈ arg, t.isComma = false := by
  cases h with
  | label finds declares pieces => exact (splitArguments_eq_cons pieces).1
  | description e => exact (splitArguments_eq_cons e.pieces_eq).1
  | @argument description params more e value =>
    have hlater : splitArguments e.entry.inner = (description :: params) ++ arg :: more := e.pieces_eq
    exact (splitArguments_exchange hlater).1

end ReadFor

/-! ## Outside of brackets -/

/-- Brackets that are open before a word stay open if the word does not close them. -/
theorem openAfter_below {stack stack' : List Delimiter} {w : List Bracket} (h : openAfter stack w = some stack')
    (outer : List Delimiter) : openAfter (stack ++ outer) w = some (stack' ++ outer) := by
  induction w generalizing stack with
  | nil =>
    cases h
    rfl
  | cons b w ih =>
    cases b with
    | opening d => exact ih h
    | closing d =>
      cases stack with
      | nil => cases h
      | cons e stack =>
        by_cases hd : e = d
        · simp only [openAfter, hd, if_true, List.cons_append] at h ⊢
          exact ih h
        · simp [openAfter, hd] at h

theorem brackets_of_kinds {ts us : List Token} (h : us.map Token.kind = ts.map Token.kind) :
    brackets us = brackets ts := by
  have hmap : ∀ ts : List Token, brackets ts = (ts.map Token.kind).filterMap TokenKind.bracket? := by
    intro ts
    rw [List.filterMap_map]
    rfl
  rw [hmap, hmap, h]

/-- In a group, its opening bracket is open before every token that is no bracket. -/
theorem openAfter_group_ne {opening closing : Token} {d : Delimiter} {inner : List TokenTree}
    (hfit : (TokenTree.group opening closing d inner).Fits) {t : Token} (ht : t.kind.isBracket = false)
    {before after : List Token} (h : (TokenTree.group opening closing d inner).tokens = before ++ t :: after) :
    openAfter [] (brackets before) ≠ some [] := by
  obtain ⟨hopen, hclose, hinner⟩ := hfit
  have hne : ∀ {u : Token} {e : Delimiter}, u.kind = .opening e ∨ u.kind = .closing e → u ≠ t := by
    rintro u e hu rfl
    rcases hu with hu | hu <;> simp [hu, TokenKind.isBracket] at ht
  rw [TokenTree.tokens, List.cons_append] at h
  cases before with
  | nil => exact absurd (List.cons.inj h).1 (hne (.inl hopen))
  | cons o before =>
    obtain ⟨rfl, htail⟩ := List.cons.inj h
    rw [brackets_opening hopen]
    obtain ⟨rest, hrest⟩ : ∃ rest, TokenTree.allTokens inner = before ++ rest := by
      rcases List.append_eq_append_iff.mp htail with ⟨between, -, hlast⟩ | ⟨rest, hrest, -⟩
      · cases between with
        | nil => exact absurd (List.cons.inj hlast).1 (hne (.inr hclose))
        | cons v between => simp at hlast
      · exact ⟨rest, hrest⟩
    have hbalanced := balanced_of_allFit hinner
    rw [hrest, brackets_append] at hbalanced
    obtain ⟨stack, hstack⟩ := Extendable.exists_openAfter ⟨_, hbalanced⟩
    have hopened : openAfter [d] (brackets before) = some (stack ++ [d]) := openAfter_below hstack [d]
    intro hclosed
    rw [openAfter, hopened] at hclosed
    simp at hclosed

/-- A token before which all brackets are closed stands in no group. -/
theorem mem_of_openAfter {trees : List TokenTree} (hfit : AllFit trees) {t : Token} (ht : t.kind.isBracket = false)
    {before after : List Token} (h : TokenTree.allTokens trees = before ++ t :: after)
    (hopen : openAfter [] (brackets before) = some []) : .token t ∈ trees := by
  induction trees generalizing before with
  | nil => simp [TokenTree.allTokens] at h
  | cons u rest ih =>
    obtain ⟨hu, hrest⟩ := hfit
    rw [TokenTree.allTokens] at h
    rcases List.append_eq_append_iff.mp h with ⟨between, rfl, hsplit⟩ | ⟨between, hsplit, hcons⟩
    · rw [brackets_append, openAfter_append, hu.balanced.openAfter_eq, Option.bind_some] at hopen
      exact List.mem_cons_of_mem _ (ih hrest hsplit hopen)
    · cases between with
      | nil =>
        have hnext : TokenTree.allTokens rest = [] ++ t :: after := hcons.symm
        exact List.mem_cons_of_mem _ (ih hrest hnext rfl)
      | cons v between =>
        obtain ⟨rfl, -⟩ := List.cons.inj hcons
        cases u with
        | token u =>
          cases before with
          | nil =>
            obtain ⟨rfl, -⟩ := List.cons.inj hsplit
            exact List.mem_cons_self
          | cons w before => simp [TokenTree.tokens] at hsplit
        | group opening closing d inner => exact absurd hopen (openAfter_group_ne hu ht hsplit)

/-! ## The text by itself -/

theorem Token.literal?_ne_expr (t : Token) (negative : Bool) (text : String) :
    t.literal? negative ≠ some (.expr text) := by
  intro h
  unfold Token.literal? at h
  cases hkind : t.kind with
  | integer =>
    rw [hkind] at h
    obtain ⟨n, -, hn⟩ := Option.map_eq_some_iff.mp h
    cases hn
  | float =>
    rw [hkind] at h
    obtain ⟨x, -, hx⟩ := Option.map_eq_some_iff.mp h
    cases hx
  | name =>
    simp only [hkind] at h
    split at h <;> cases h
  | _ => simp [hkind] at h

/-- What is read as a literal is never kept as text. -/
theorem literal?_ne_expr (arg : List TokenTree) (text : String) : literal? arg ≠ some (.expr text) := by
  intro h
  unfold literal? at h
  split at h
  · exact Token.literal?_ne_expr _ _ _ h
  · split at h
    · obtain ⟨hvalue, hnumber⟩ := Option.filter_eq_some_iff.mp h
      cases hnumber
    · cases h
  · obtain ⟨s, -, hs⟩ := Option.map_eq_some_iff.mp h
    cases hs

/-- An argument is kept as text if it is no literal, and then the text is that of its tokens. -/
theorem readValue_eq_expr_iff {arg : List TokenTree} {text : String} :
    readValue arg = .expr text ↔ literal? arg = none ∧ text = sourceText (TokenTree.allTokens arg) := by
  rw [readValue]
  cases h : literal? arg with
  | none => simp [eq_comm]
  | some v =>
    simp only [Option.getD_some, reduceCtorEq, false_and, iff_false]
    rintro rfl
    exact literal?_ne_expr arg text h

/-- What a token is, wherever it stands. -/
def Token.content (t : Token) : TokenKind × String := (t.kind, t.text)

theorem map_content_of_bare {ts us : List Token} (h : us.map Token.bare = ts.map Token.bare) :
    us.map Token.content = ts.map Token.content := by
  have hmap : ∀ ts : List Token, ts.map Token.content = (ts.map Token.bare).map Token.content := by
    intro ts
    rw [List.map_map]
    rfl
  rw [hmap, hmap ts, h]

/-- The gap before the first token of a text can be taken away. -/
theorem tokensFrom_drop_gap {p : Position} {t : Token} {rest : List Token}
    (h : tokensFrom p (written (t :: rest)) = .ok (t :: rest)) :
    tokensFrom (p.advance t.gap.toList) (t.text.toList ++ written rest) = .ok ({ t with gap := "" } :: rest) := by
  rw [written, List.append_assoc] at h
  obtain ⟨c, text, ht, hgap, hread, hrest⟩ := tokensFrom_written_cons h
  have htext : t.text.toList = c :: text := by rw [ht, String.toList_ofList]
  have hnone : gapLength ([] ++ c :: (text ++ written rest)) = .ok ([] : List Char).length :=
    (gapLength_eq_length_iff.mp hgap).2
  have hstep := tokensFrom_step (p.advance t.gap.toList) hnone hread
  rw [Position.advance_nil, hrest] at hstep
  rw [htext, ht]
  exact hstep

/-- The text from one token of a source to another is read as those tokens and all between them. -/
theorem tokens_sourceText {source : String} {before ts after : List Token}
    (h : tokens source = .ok (before ++ (ts ++ after))) :
    ∃ us, tokens (sourceText ts) = .ok us ∧ us.map Token.content = ts.map Token.content := by
  cases ts with
  | nil =>
    refine ⟨[], ?_, rfl⟩
    show tokensFrom .start [] = .ok []
    rw [tokensFrom, gapLength]
    rfl
  | cons t rest =>
    obtain ⟨last, hsource, -⟩ := tokensFrom_lossless h
    rw [tokens, hsource, written_append, List.append_assoc] at h
    have hrun := tokensFrom_written h
    rw [written_append, List.append_assoc] at hrun
    obtain ⟨us, hus, hbare⟩ := tokensFrom_bare (tokensFrom_drop_gap (tokensFrom_cut hrun)) .start
    refine ⟨us, ?_, (map_content_of_bare hbare).trans rfl⟩
    rw [tokens, toList_sourceText]
    exact hus

/-! ## The text in the source -/

/-- Tokens whose brackets are balanced, with no comma outside of brackets. -/
structure SelfContained (ts : List Token) : Prop where
  balanced : Balanced (brackets ts)
  no_comma : ∀ before comma after, ts = before ++ comma :: after → comma.kind = .comma → ¬ Balanced (brackets before)

/-- A text is that of an argument in a source: cut out of the source, from the first token of the argument to the last
one, and by itself read as the same tokens again. -/
structure Verbatim (source : String) (arg : List TokenTree) (text : String) : Prop where
  empty : TokenTree.allTokens arg = [] → text = ""
  cut : ∀ first last, (TokenTree.allTokens arg).head? = some first → (TokenTree.allTokens arg).getLast? = some last →
    slice source.toList first.start.offset last.stop = .ok text.toList
  tokens : ∃ ts trees, Source.tokens text = .ok ts ∧ group ts = .ok trees ∧
    ts.map Token.content = (TokenTree.allTokens arg).map Token.content ∧ SelfContained ts

theorem selfContained_of_trees {arg : List TokenTree} (hfit : AllFit arg) (hno : ∀ t ∈ arg, t.isComma = false)
    {ts : List Token} (hkinds : ts.map Token.kind = (TokenTree.allTokens arg).map Token.kind) : SelfContained ts := by
  refine ⟨?_, ?_⟩
  · rw [brackets_of_kinds hkinds]
    exact balanced_of_allFit hfit
  · rintro before comma after rfl hcomma hbalanced
    -- the token of the argument in the place of the comma is a comma outside of all groups
    rw [List.map_append, List.map_cons, eq_comm] at hkinds
    obtain ⟨before', rest, hsplit, hbefore, hrest⟩ := List.map_eq_append_iff.mp hkinds
    obtain ⟨comma', after', rfl, hcomma', -⟩ := List.map_eq_cons_iff.mp hrest
    rw [hcomma] at hcomma'
    have hopen := hbalanced.openAfter_eq []
    rw [← brackets_of_kinds hbefore] at hopen
    have hmem := mem_of_openAfter hfit (by rw [hcomma']; rfl) hsplit hopen
    have hnot := hno _ hmem
    rw [TokenTree.isComma, hcomma'] at hnot
    cases hnot

/-- In a source that is scanned, every label, every description of an entry and every argument of an entry that is kept
as text is declared with that text. It is the text of the source from the first token of the argument to the last one, or
no text if the argument is empty. By itself it is read as the same tokens, with balanced brackets and no comma outside of
them. -/
theorem scan_keeps_text {source : String} {found : Scanned} (h : scan source = .ok found) :
    ∃ ts trees, tokens source = .ok ts ∧ group ts = .ok trees ∧
      ∀ {arg : List TokenTree} {D : Value → Declaration} {text : String}, ReadFor trees arg D →
        readValue arg = .expr text → Declared (D (.expr text)) found.declarations ∧ Verbatim source arg text := by
  obtain ⟨ts, trees, htokens, hgroup, hfound⟩ := scan_eq_ok h
  refine ⟨ts, trees, htokens, hgroup, ?_⟩
  intro arg D text hread hvalue
  obtain ⟨hfit, rfl⟩ := (group_eq_ok_iff _ _).mp hgroup
  obtain ⟨-, rfl⟩ := readValue_eq_expr_iff.mp hvalue
  obtain ⟨before, after, hall⟩ := hread.standAmong.tokens
  -- the tokens of the argument stand one behind the other, so they can be cut out of the source at both ends
  have hrun := runIn_of_tokens htokens
  rw [hall] at htokens hrun
  have harg := (runIn_append (runIn_append hrun).2).1
  refine ⟨?_, ?_, ?_, ?_⟩
  · rw [hfound, ← hvalue]
    exact hread.declares
  · intro hempty
    rw [hempty]
    rfl
  · intro first last hfirst hlast
    obtain ⟨rest, hcons⟩ := List.head?_eq_some_iff.mp hfirst
    rw [hcons] at harg hlast ⊢
    exact harg.slice_eq hlast
  · obtain ⟨us, hus, hcontent⟩ := tokens_sourceText htokens
    have hkinds : us.map Token.kind = (TokenTree.allTokens arg).map Token.kind := by
      have hfirst := congrArg (List.map Prod.fst) hcontent
      rwa [List.map_map, List.map_map] at hfirst
    have hcontained := selfContained_of_trees (hread.standAmong.fits hfit) hread.no_comma hkinds
    obtain ⟨trees', htrees'⟩ := (exists_group_iff_balanced us).mpr hcontained.balanced
    exact ⟨us, trees', hus, htrees', hcontent, hcontained⟩

set_option maxRecDepth 2000 in
/-- A label with a comma in brackets, and an argument of an entry with a comma in a comment. -/
theorem scan_keeps_text_commas :
    ∃ found, scan "DescribeTable(f(1, 2), g, Entry(nil, x /*,*/ .y))" = .ok found ∧
      Declared (.table "f(1, 2)" none [.unnamed [.expr "x /*,*/ .y"]] (.leaves .noop)) found.declarations ∧
      ∀ text ∈ ["f(1, 2)", "x /*,*/ .y"], ∃ ts, tokens text = .ok ts ∧ SelfContained ts := by
  obtain ⟨ts, trees, label, others, description, arg, e, htokens, hgroup, hkind, hpieces, hlabel, harg, hvalue, hrow⟩ :
      ∃ ts trees label others description arg, ∃ e : EntryIn trees (description :: ([] ++ [arg])),
        tokens "DescribeTable(f(1, 2), g, Entry(nil, x /*,*/ .y))" = .ok ts ∧ group ts = .ok trees ∧
        e.table.kind = .table ∧ splitArguments e.table.inner = label :: others ∧ readValue label = .expr "f(1, 2)" ∧
        readValue arg = .expr "x /*,*/ .y" ∧ isDecorator arg = false ∧
        ∀ v, e.declared (rowOf (readValue description) ([] ++ [v])) =
          .table "f(1, 2)" none [.unnamed [v]] (.leaves .noop) := by
    exact ⟨_, _, _, _, _, _, ⟨⟨.table, _, _, _, _⟩, @Finds.here ⟨.table, _, _, _, _⟩ .other [] rfl, .inl rfl, [_, _],
      [], by simp, ⟨.entry, _, _, _, _⟩, rfl, rfl, rfl⟩, by cbv, by cbv, rfl, rfl, rfl, rfl, rfl, fun _ => rfl⟩
  obtain ⟨found, hfound, -⟩ := exists_scan htokens hgroup
  obtain ⟨ts', trees', htokens', hgroup', hkeeps⟩ := scan_keeps_text hfound
  obtain rfl : ts = ts' := Except.ok.inj (htokens.symm.trans htokens')
  obtain rfl : trees = trees' := Except.ok.inj (hgroup.symm.trans hgroup')
  obtain ⟨-, hfirst⟩ := hkeeps (.label e.finds (by rw [hkind]; decide) hpieces) hlabel
  obtain ⟨hdeclared, hsecond⟩ := hkeeps (.argument e hvalue) harg
  refine ⟨found, hfound, hrow _ ▸ hdeclared, ?_⟩
  simp only [List.forall_mem_cons, List.not_mem_nil, false_imp_iff, implies_true, and_true]
  obtain ⟨us, -, hus, -, -, hcontained⟩ := hfirst.tokens
  obtain ⟨vs, -, hvs, -, -, hcontained'⟩ := hsecond.tokens
  exact ⟨⟨us, hus, hcontained⟩, vs, hvs, hcontained'⟩

end SpecForest.Source

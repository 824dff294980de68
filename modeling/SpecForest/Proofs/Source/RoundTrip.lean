import SpecForest.Proofs.Source.Arguments

/-!
# Scanning what was written

Scanning the text of a page gives what the page declares, whatever names, markers, qualifiers, spellings,
decorators and commas were chosen. The proof follows the statements: a statement is a call, the roles of
its arguments decide what it declares, and the body of a container or a subtree table is read by the
induction hypothesis.

The forests that can be written are exactly those with a page, so every one of them comes back.
-/

namespace SpecForest.Source

/-! ## Function literals -/

/-- A parameter that counts, and takes no more than one argument. -/
def IsPlainParam (ts : List TokenTree) : Prop :=
  isContextParam ts = false ∧ (TokenTree.allTokens ts).any (·.kind == .ellipsis) = false

/-- All tokens but the commas between them are in the pieces. -/
theorem any_ellipsis_splitArguments (ts : List TokenTree) :
    (TokenTree.allTokens ts).any (·.kind == .ellipsis) =
      (splitArguments ts).any fun p => (TokenTree.allTokens p).any (·.kind == .ellipsis) := by
  induction ts with
  | nil => rfl
  | cons t rest ih =>
    rw [TokenTree.allTokens, List.any_append, ih, splitArguments]
    by_cases hcomma : t.isComma = true
    · rw [if_pos hcomma]
      have hnone : t.tokens.any (·.kind == .ellipsis) = false := by
        cases t with
        | token t =>
          have hkind : t.kind = .comma := by simpa [TokenTree.isComma] using hcomma
          simp [TokenTree.tokens, hkind]
        | group opening closing d inner => cases hcomma
      rw [hnone]
      rfl
    · rw [if_neg hcomma]
      cases splitArguments rest with
      | nil => simp [TokenTree.allTokens]
      | cons piece pieces => simp [TokenTree.allTokens, Bool.or_assoc]

/-- The arity of a function literal is the number of its parameters. -/
theorem arity_of_plain {texts : List (List Char)} {params : List TokenTree} (body : List TokenTree)
    (h : List.Forall₂ (fun _ => IsPlainParam) texts (splitArguments params)) :
    (FunctionLiteral.mk params body).arity = some (splitArguments params).length := by
  simp only [FunctionLiteral.arity]
  rw [any_ellipsis_splitArguments]
  generalize splitArguments params = pieces at h
  have hellipsis : (pieces.any fun p => (TokenTree.allTokens p).any (·.kind == .ellipsis)) = false := by
    induction h with
    | nil => rfl
    | cons hplain _ ih => rw [List.any_cons, hplain.2, ih, Bool.or_false]
  rw [hellipsis]
  cases h with
  | nil => rfl
  | cons hplain _ => simp [hplain.1]

/-- A name alone, and a name with the type that is written here, are parameters that count. -/
theorem paramTexts_readsArgument (params : List Identifier) :
    ∀ text ∈ paramTexts params, ReadsArgument (id text) IsPlainParam := by
  fun_induction paramTexts params with
  | case1 => simp
  | case2 last =>
    intro text htext gap next hgap hnext
    obtain rfl := List.mem_singleton.mp htext
    have htype : Reads ([' '] ++ "int".toList) [.token (bareToken [' '] "int".toList .name)] next :=
      Reads.nameText isBlank_space (by decide) hnext.endsName
    have hspace : EndsName ([' '] ++ "int".toList ++ next) := by
      intro c hc
      cases hc
      decide
    have hread := (Reads.nameText hgap last.isName hspace).append htype
    refine ⟨[.token (bareToken gap last.text .name), .token (bareToken [' '] "int".toList .name)], ?_,
      isArgument_call rfl rfl, rfl, rfl⟩
    simpa using hread
  | case3 first rest hrest ih =>
    intro text htext
    rcases List.mem_cons.mp htext with rfl | htext
    · intro gap next hgap hnext
      exact ⟨_, Reads.nameText hgap first.isName hnext.endsName, isArgument_token rfl (by simp [bareToken]),
        rfl, rfl⟩
    · exact ih text htext

theorem length_paramTexts (params : List Identifier) : (paramTexts params).length = params.length := by
  fun_induction paramTexts params with
  | case1 => rfl
  | case2 last => rfl
  | case3 first rest hrest ih => rw [List.length_cons, ih, List.length_cons]

/-- Whatever comes next, a text is read as trees that declare something. -/
def ReadsBlock (text : List Char) (ds : List Declaration) : Prop :=
  ∀ next, ∃ ts, Reads text ts next ∧ AllFit ts ∧
    ∀ rest, (scanTrees .other (ts ++ rest)).declarations = ds ++ (scanTrees .other rest).declarations

theorem ReadsBlock.nil : ReadsBlock [] [] := fun next =>
  ⟨[], Reads.nil next, trivial, fun _ => rfl⟩

theorem ReadsBlock.append {a b : List Char} {as bs : List Declaration} (ha : ReadsBlock a as)
    (hb : ReadsBlock b bs) : ReadsBlock (a ++ b) (as ++ bs) := by
  intro next
  obtain ⟨us, hub, hufits, hudeclared⟩ := hb next
  obtain ⟨ts, hta, htfits, htdeclared⟩ := ha (b ++ next)
  refine ⟨ts ++ us, hta.append hub, allFit_append.mpr ⟨htfits, hufits⟩, fun rest => ?_⟩
  rw [List.append_assoc, htdeclared, hudeclared, List.append_assoc]

/-- A written function literal is read with its arity and what its body declares. -/
theorem readsArgument_function (params : List Identifier) {text after : List Char} {ds : List Declaration}
    (hafter : ∀ c ∈ after, Text.isBlank c = true) (h : ReadsBlock text ds) :
    ReadsArgument (functionText params (text ++ after)) (HasRole (.function (some params.length) ds)) := by
  intro gap next hgap _
  obtain ⟨body, hbody, hbodyFits, hdeclared⟩ := h (after ++ Delimiter.brace.closer :: next)
  have hbrace := Reads.group isBlank_space hafter hbody
  obtain ⟨opening, closing, inner, hcall, hfits, hparams⟩ :=
    reads_callText (show isNameText "func".toList = true by decide) hgap false
      (paramTexts_readsArgument params)
      (([' '] ++ Delimiter.brace.opener :: (text ++ (after ++ [Delimiter.brace.closer]))) ++ next)
  rw [List.map_id] at hcall
  refine ⟨[.token (bareToken gap "func".toList .name), .group opening closing .paren inner,
      .group (bareToken [' '] [Delimiter.brace.opener] (.opening .brace))
        (bareToken after [Delimiter.brace.closer] (.closing .brace)) .brace body], ?_,
    ⟨⟨rfl, hfits, ⟨rfl, rfl, hbodyFits⟩, trivial⟩, by simp, ?_⟩, by simp, by simp, rfl, ?_⟩
  · simpa [functionText, Delimiter.opener, Delimiter.closer] using hcall.append hbrace
  · simp [TokenTree.isComma, bareToken]
  · have hlength : (splitArguments inner).length = params.length := by
      rw [← hparams.length_eq, length_paramTexts]
    have hmeaning := hdeclared []
    rw [List.append_nil, scanTrees_nil, List.append_nil] at hmeaning
    show some (FunctionLiteral.meaning ⟨inner, body⟩) = _
    rw [FunctionLiteral.meaning, arity_of_plain body hparams, hlength, hmeaning]
    rfl

/-! ## Calls -/

/-- What a call declares, from its label and the roles of its other arguments. -/
def callDeclarations (k : CallKind) (label : String) (roles : List Role) : List Declaration :=
  let function := roles.findSome? Role.function?
  let arity := function.bind Prod.fst
  let declared := (function.map Prod.snd).getD []
  let entries := roles.filterMap Role.entry?
  match k with
  | .container => [.container label declared]
  | .leaf => [.leaf label .noop]
  | .table => [.table label arity entries (.leaves .noop)]
  | .subtreeTable => [.table label arity entries (.replay declared)]
  | .entry => []

theorem entries_of_roles {roles : List Role} {pieces : List (List TokenTree)}
    (h : List.Forall₂ HasRole roles pieces) : pieces.filterMap entry? = roles.filterMap Role.entry? := by
  induction h with
  | nil => rfl
  | cons hrole _ ih => rw [List.filterMap_cons, List.filterMap_cons, hrole.entry, ih]

theorem function_of_roles {roles : List Role} {pieces : List (List TokenTree)}
    (h : List.Forall₂ HasRole roles pieces) :
    (pieces.findSome? functionLiteral?).map FunctionLiteral.meaning = roles.findSome? Role.function? := by
  induction h with
  | nil => rfl
  | @cons r piece roles pieces hrole _ ih =>
    have hfunction := hrole.function
    rw [List.findSome?_cons, List.findSome?_cons, ← hfunction]
    cases functionLiteral? piece with
    | none => exact ih
    | some f => rfl

theorem declareCall_of_roles {label : String} {roles : List Role} {inner : List TokenTree}
    (h : List.Forall₂ HasRole (.value (.str label) :: roles) (splitArguments inner)) (k : CallKind)
    (name : Token) :
    (declareCall k name inner (scanTrees .other (scannedPart k inner))).declarations =
      callDeclarations k label roles := by
  obtain ⟨first, pieces, hfirst, hroles, hsplit⟩ := List.forall₂_cons_left_iff.mp h
  have hlabel : labelOf (splitArguments inner) = label := by
    rw [hsplit, labelOf, (hfirst.value _ rfl).1, labelText]
  have hentries : entriesOf (splitArguments inner) = roles.filterMap Role.entry? := by
    rw [hsplit, entriesOf, List.drop_one, List.tail_cons, entries_of_roles hroles]
  have hfunction : (bodyOf? (splitArguments inner)).map FunctionLiteral.meaning =
      roles.findSome? Role.function? := by
    rw [hsplit, bodyOf?, List.drop_one, List.tail_cons, function_of_roles hroles]
  have harity : (bodyOf? (splitArguments inner)).bind (·.arity) =
      (roles.findSome? Role.function?).bind Prod.fst := by
    rw [← hfunction]
    cases bodyOf? (splitArguments inner) <;> rfl
  have hdeclared : (scanTrees .other (scannedPart .container inner)).declarations =
      ((roles.findSome? Role.function?).map Prod.snd).getD [] := by
    rw [← hfunction, scannedPart]
    cases bodyOf? (splitArguments inner) with
    | none => simp
    | some f => rfl
  have hsubtree : scannedPart .subtreeTable inner = scannedPart .container inner := rfl
  cases k with
  | container => simp only [declareCall, callDeclarations, hlabel, hdeclared]
  | leaf => simp only [declareCall, callDeclarations, hlabel]
  | table => simp only [declareCall, callDeclarations, hlabel, hentries, harity]
  | subtreeTable =>
    simp only [declareCall, callDeclarations, hsubtree, hlabel, hentries, harity, hdeclared]
  | entry => rfl

/-- A package name and a dot change nothing. -/
theorem scanTrees_qualifier (package t : Token) (rest : List TokenTree) :
    scanTrees .other (.token package :: .token (bareToken [] ['.'] (.symbol '.')) :: .token t :: rest) =
      scanTrees .other (.token t :: rest) := by
  rw [scanTrees_token rfl, scanTrees_token rfl]
  rfl

/-- A call declares what its name and the roles of its arguments say. -/
theorem scanTrees_of_roles {k : CallKind} (name : CallName k) (gap : List Char) {label : String}
    {roles : List Role} {opening closing : Token} {inner : List TokenTree}
    (h : List.Forall₂ HasRole (.value (.str label) :: roles) (splitArguments inner)) (rest : List TokenTree) :
    (scanTrees .other (.token (bareToken gap name.text .name) ::
        .group opening closing .paren inner :: rest)).declarations =
      callDeclarations k label roles ++ (scanTrees .other rest).declarations := by
  have hcall : callAt? .other (.token (bareToken gap name.text .name) ::
      .group opening closing .paren inner :: rest) = some k := name.callKind? gap
  rw [scanTrees_call hcall]
  simp only [Scanned.append, declareCall_of_roles h]

theorem callText_qualified (package : Identifier) (name : List Char) (args : List (List Char))
    (trailing : Bool) : callText (qualifierText (some package) ++ name) args trailing =
      package.text ++ '.' :: callText name args trailing := by
  simp [callText, qualifierText]

/-- A dot ends a name. -/
theorem endsName_dot (rest : List Char) : EndsName ('.' :: rest) := by
  intro c hc
  cases hc
  decide

theorem CallName.text_eq_cons {k : CallKind} (name : CallName k) :
    ∃ c cs, name.text = c :: cs ∧ startsName c = true :=
  Identifier.text_eq_cons ⟨name.text, name.isNameText_text⟩

/-- A written call, qualified or not, is read as what it declares, if its first argument is read as a string. -/
theorem readsBlock_call (qualifier : Option Identifier) {k : CallKind} (name : CallName k)
    {label : List Char} {value : String} (hlabel : ReadsArgument label (HasRole (.value (.str value))))
    {args : List (List Char × Role)} (h : ∀ a ∈ args, ReadsArgument (Prod.fst a) (HasRole a.2))
    (trailing : Bool) {gap : List Char} (hgap : ∀ c ∈ gap, Text.isBlank c = true) :
    ReadsBlock
      (gap ++ callText (qualifierText qualifier ++ name.text) (label :: args.map Prod.fst) trailing)
      (callDeclarations k value (args.map Prod.snd)) := by
  have hargs : ∀ a ∈ (label, Role.value (.str value)) :: args, ReadsArgument (Prod.fst a) (HasRole a.2) := by
    intro a ha
    rcases List.mem_cons.mp ha with rfl | ha
    · exact hlabel
    · exact h a ha
  have hroles : ∀ {pieces}, List.Forall₂ (fun a => HasRole (Prod.snd a))
      ((label, Role.value (.str value)) :: args) pieces →
      List.Forall₂ HasRole (.value (.str value) :: args.map Prod.snd) pieces := by
    intro pieces hpieces
    rwa [← List.forall₂_map_left_iff] at hpieces
  intro next
  cases qualifier with
  | none =>
    obtain ⟨opening, closing, inner, hread, hfits, hpieces⟩ :=
      reads_callText name.isNameText_text hgap trailing hargs next
    exact ⟨_, hread, ⟨rfl, hfits, trivial⟩, scanTrees_of_roles name gap (hroles hpieces)⟩
  | some package =>
    -- the package and the dot are tokens of their own, and the gap is before the package
    have hempty : ∀ c ∈ ([] : List Char), Text.isBlank c = true := by simp
    obtain ⟨opening, closing, inner, hread, hfits, hpieces⟩ :=
      reads_callText name.isNameText_text hempty trailing hargs next
    obtain ⟨c, cs, htext, hc⟩ := name.text_eq_cons
    have hpackage : Reads (gap ++ package.text) [.token (bareToken gap package.text .name)]
        ('.' :: (callText name.text (label :: args.map Prod.fst) trailing ++ next)) :=
      Reads.nameText hgap package.isName (endsName_dot _)
    have hdot : Reads ['.'] [.token (bareToken [] ['.'] (.symbol '.'))]
        (callText name.text (label :: args.map Prod.fst) trailing ++ next) := by
      rw [callText, htext]
      exact Reads.dot hempty hc
    refine ⟨.token (bareToken gap package.text .name) :: .token (bareToken [] ['.'] (.symbol '.')) ::
      .token (bareToken [] name.text .name) :: [.group opening closing .paren inner], ?_,
      ⟨rfl, rfl, rfl, hfits, trivial⟩, ?_⟩
    · rw [callText_qualified]
      simpa using hpackage.append (hdot.append hread)
    · intro rest
      rw [List.cons_append, List.cons_append, List.cons_append, scanTrees_qualifier]
      exact scanTrees_of_roles name [] (hroles hpieces) rest

/-! ## Statements -/

def WrittenBody.role : WrittenBody → Role
  | .named _ => .other
  | .function params children => .function (some params.length) (pageDeclarations children)

/-- What stands beside the body of a call, as arguments with their roles. -/
def itemArguments (items : List TableItem) : List (List Char × Role) :=
  items.map fun i => (i.text, i.role)

theorem itemArguments_readsArgument {items : List TableItem} :
    ∀ a ∈ itemArguments items, ReadsArgument (Prod.fst a) (HasRole a.2) := by
  intro a ha
  obtain ⟨i, _, rfl⟩ := List.mem_map.mp ha
  exact i.readsArgument

theorem map_fst_itemArguments (items : List TableItem) :
    (itemArguments items).map Prod.fst = items.map TableItem.text := by
  simp [itemArguments]

/-- No function literal stands beside the body. -/
theorem findSome?_itemArguments (items : List TableItem) :
    ((itemArguments items).map Prod.snd).findSome? Role.function? = none := by
  induction items with
  | nil => rfl
  | cons i items ih => cases i <;> exact ih

theorem filterMap_itemArguments (items : List TableItem) :
    ((itemArguments items).map Prod.snd).filterMap Role.entry? = items.filterMap TableItem.entry? := by
  induction items with
  | nil => rfl
  | cons i items ih =>
    cases i with
    | row r => exact congrArg (r.entry :: ·) ih
    | decorator d => exact ih

theorem map_text_decorators (ds : List Decorator) :
    (ds.map TableItem.decorator).map TableItem.text = ds.map Decorator.text := by
  rw [List.map_map]
  rfl

theorem filterMap_entry?_decorators (ds : List Decorator) :
    (ds.map TableItem.decorator).filterMap TableItem.entry? = [] := by
  rw [List.filterMap_map]
  exact List.filterMap_eq_nil_iff.mpr fun _ _ => rfl

/-- A written call with a body and other arguments around it is read as what it declares. -/
theorem readsBlock_callWithBody (qualifier : Option Identifier) {k : CallKind} (name : CallName k)
    (label : StringText) (before : List Decorator) {body : List Char} {role : Role}
    (hbody : ReadsArgument body (HasRole role)) (items : List TableItem) (trailing : Bool) {gap : List Char}
    (hgap : ∀ c ∈ gap, Text.isBlank c = true) :
    ReadsBlock
      (gap ++ callText (qualifierText qualifier ++ name.text)
        (label.text :: before.map Decorator.text ++ body :: items.map TableItem.text) trailing)
      (callDeclarations k label.value (role :: (itemArguments items).map Prod.snd)) := by
  have hargs : ∀ a ∈ itemArguments (before.map TableItem.decorator) ++ (body, role) :: itemArguments items,
      ReadsArgument (Prod.fst a) (HasRole a.2) := by
    intro a ha
    rcases List.mem_append.mp ha with ha | ha
    · exact itemArguments_readsArgument a ha
    · rcases List.mem_cons.mp ha with rfl | ha
      · exact hbody
      · exact itemArguments_readsArgument a ha
  have hblock := readsBlock_call qualifier name label.readsArgument hargs trailing hgap
  have hdecorators : callDeclarations k label.value ((itemArguments (before.map TableItem.decorator) ++
      (body, role) :: itemArguments items).map Prod.snd) =
      callDeclarations k label.value (role :: (itemArguments items).map Prod.snd) := by
    simp only [callDeclarations, List.map_append, List.findSome?_append, List.filterMap_append,
      findSome?_itemArguments, filterMap_itemArguments, filterMap_entry?_decorators, Option.none_or,
      List.nil_append, List.map_cons]
  rw [hdecorators, List.map_append, map_fst_itemArguments, map_text_decorators, List.map_cons,
    map_fst_itemArguments] at hblock
  exact hblock

/-- The arguments of a table declare its arity, its entries and its template. -/
theorem callDeclarations_table (subtree : Bool) (label : String) (body : WrittenBody)
    (items : List TableItem) :
    callDeclarations (tableKind subtree) label (body.role :: (itemArguments items).map Prod.snd) =
      [.table label body.arity (items.filterMap TableItem.entry?)
        (if subtree then .replay body.template else .leaves .noop)] := by
  have hentry : body.role.entry? = none := by cases body <;> rfl
  have hentries : (body.role :: (itemArguments items).map Prod.snd).filterMap Role.entry? =
      items.filterMap TableItem.entry? := by
    rw [List.filterMap_cons, hentry, filterMap_itemArguments]
  have hfunction : (body.role :: (itemArguments items).map Prod.snd).findSome? Role.function? =
      body.role.function? := by
    rw [List.findSome?_cons, findSome?_itemArguments]
    cases body.role.function? <;> rfl
  cases subtree with
  | false =>
    simp only [tableKind, callDeclarations, hentries, hfunction]
    cases body <;> rfl
  | true =>
    simp only [tableKind, callDeclarations, hentries, hfunction]
    cases body <;> simp [WrittenBody.role, Role.function?, WrittenBody.arity, WrittenBody.template]

theorem isBlank_newline : ∀ c ∈ ['\n'], Text.isBlank c = true :=
  List.forall_mem_singleton.mpr (by decide)

mutual

/-- A statement is read as what it declares. -/
theorem Statement.readsBlock (s : Statement) {gap : List Char} (hgap : ∀ c ∈ gap, Text.isBlank c = true) :
    ReadsBlock (gap ++ s.text) [s.declaration] := by
  cases s with
  | container qualifier name label before children after trailing =>
    have hbody := readsArgument_function [] isBlank_newline (linesText_readsBlock children)
    have hblock := readsBlock_callWithBody qualifier name label before hbody
      (after.map TableItem.decorator) trailing hgap
    rw [map_text_decorators] at hblock
    exact hblock
  | leaf qualifier name label trailing =>
    have hempty : ∀ c ∈ ([] : List Char), Text.isBlank c = true := by simp
    have hbody := readsArgument_function [] hempty ReadsBlock.nil
    exact readsBlock_callWithBody qualifier name label [] hbody [] trailing hgap
  | table qualifier subtree name label before body items trailing =>
    have hblock := readsBlock_callWithBody qualifier name label before body.readsArgument items trailing hgap
    rw [callDeclarations_table] at hblock
    exact hblock

theorem WrittenBody.readsArgument (b : WrittenBody) : ReadsArgument b.text (HasRole b.role) := by
  cases b with
  | named f =>
    intro gap next hgap hnext
    refine ⟨_, Reads.nameText hgap f.isName hnext.endsName, isArgument_token rfl (by simp [bareToken]), ?_⟩
    exact ⟨by simp [WrittenBody.role], by simp [WrittenBody.role], rfl, rfl⟩
  | function params children =>
    exact readsArgument_function params isBlank_newline (linesText_readsBlock children)

theorem linesText_readsBlock (ss : List Statement) : ReadsBlock (linesText ss) (pageDeclarations ss) := by
  cases ss with
  | nil => exact ReadsBlock.nil
  | cons s rest => exact (s.readsBlock isBlank_newline).append (linesText_readsBlock rest)

end

/-! ## Pages -/

theorem pageText_readsBlock (page : List Statement) :
    ReadsBlock (pageText page) (pageDeclarations page) := by
  cases page with
  | nil => exact ReadsBlock.nil
  | cons s rest =>
    have hempty : ∀ c ∈ ([] : List Char), Text.isBlank c = true := by simp
    exact (s.readsBlock hempty).append (linesText_readsBlock rest)

/-- A text that is read as a block is scanned as what it declares. -/
theorem ReadsBlock.scan_eq {text : List Char} {ds : List Declaration} (h : ReadsBlock text ds) :
    ∃ events, scan (String.ofList text) = .ok ⟨ds, events⟩ := by
  obtain ⟨trees, hread, hfits, hdeclared⟩ := h []
  obtain ⟨ts, hbare, htokens⟩ := tokens_of_reads (by simp) hread
  obtain ⟨us, hgroup, hus⟩ := group_of_bare hbare hfits
  have hscan : (scanTrees .other us).declarations = ds := by
    rw [← scanTrees_bareAll, hus]
    have hmeaning := hdeclared []
    rwa [List.append_nil, scanTrees_nil, List.append_nil] at hmeaning
  rw [List.append_nil] at htokens
  refine ⟨(scanTrees .other us).events ++ [.scanned "<source>" ts.length ds.length], ?_⟩
  simp only [scan, scanNamed, htokens, hgroup, bind, Except.bind, pure, Except.pure, hscan]

/-- The forests that can be written are those with a page, and scanning the text of any page gives back
the forest. -/
theorem scan_pageText :
    (∀ ds : List Declaration, (∀ d ∈ ds, Writable d) ↔ ∃ page, pageDeclarations page = ds) ∧
      ∀ page : List Statement, ∃ events,
        scan (String.ofList (pageText page)) = .ok ⟨pageDeclarations page, events⟩ := by
  refine ⟨fun ds => ⟨fun h => ?_, ?_⟩, fun page => (pageText_readsBlock page).scan_eq⟩
  · exact exists_page_of_mem fun d hd => (h d hd).exists_statement
  · rintro ⟨page, rfl⟩
    exact pageDeclarations_writable page

end SpecForest.Source

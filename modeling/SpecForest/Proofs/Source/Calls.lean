import SpecForest.Proofs.Source.Totality

/-!
# The calls that a scan comes to

A scan comes to the outermost calls that declare something, and to the calls in the bodies of containers and
of subtree tables. What it declares, at any depth, is what these calls declare. Such a call can be exchanged for
another one that declares the same: all that stands around it is read as before.
-/

namespace SpecForest.Source

/-! ## Calls -/

/-- A call that declares something: a name, and the parentheses behind it. -/
structure Call where
  kind : CallKind
  name : Token
  opening : Token
  closing : Token
  inner : List TokenTree

namespace Call

/-- The two trees of a call. -/
def trees (c : Call) : List TokenTree :=
  [.token c.name, .group c.opening c.closing .paren c.inner]

/-- The part of a call that is scanned in turn. -/
def body (c : Call) : List TokenTree :=
  scannedPart c.kind c.inner

/-- What a call declares. -/
def declarations (c : Call) : List Declaration :=
  (declareCall c.kind c.name c.inner (scanTrees .other c.body)).declarations

/-- The call of the same name with something else between its parentheses. -/
def withInner (c : Call) (inner : List TokenTree) : Call :=
  { c with inner }

end Call

/-- The scan of some trees comes to a call, given what stands before the trees. -/
inductive Finds (c : Call) : Prior → List TokenTree → Prop
  | here {prior : Prior} {rest : List TokenTree} (call : callAt? prior (c.trees ++ rest) = some c.kind) :
      Finds c prior (c.trees ++ rest)
  | inBody {prior : Prior} {outer : Call} {rest : List TokenTree}
      (call : callAt? prior (outer.trees ++ rest) = some outer.kind) (below : Finds c .other outer.body) :
      Finds c prior (outer.trees ++ rest)
  | behindCall {prior : Prior} {outer : Call} {rest : List TokenTree}
      (call : callAt? prior (outer.trees ++ rest) = some outer.kind) (behind : Finds c .other rest) :
      Finds c prior (outer.trees ++ rest)
  | behindToken {prior : Prior} {t : Token} {rest : List TokenTree}
      (no_call : callAt? prior (.token t :: rest) = none) (behind : Finds c (.afterToken t) rest) :
      Finds c prior (.token t :: rest)
  | inGroup {prior : Prior} {opening closing : Token} {d : Delimiter} {inner rest : List TokenTree}
      (inside : Finds c .other inner) : Finds c prior (.group opening closing d inner :: rest)
  | behindGroup {prior : Prior} {opening closing : Token} {d : Delimiter} {inner rest : List TokenTree}
      (behind : Finds c (prior.afterGroup d) rest) : Finds c prior (.group opening closing d inner :: rest)

theorem declarations_scanTrees_call {prior : Prior} {c : Call} {rest : List TokenTree}
    (h : callAt? prior (c.trees ++ rest) = some c.kind) :
    (scanTrees prior (c.trees ++ rest)).declarations =
      c.declarations ++ (scanTrees .other rest).declarations :=
  congrArg Scanned.declarations (scanTrees_call h)

theorem declarations_scanTrees_group (prior : Prior) (opening closing : Token) (d : Delimiter)
    (inner rest : List TokenTree) :
    (scanTrees prior (.group opening closing d inner :: rest)).declarations =
      (scanTrees .other inner).declarations ++ (scanTrees (prior.afterGroup d) rest).declarations :=
  congrArg Scanned.declarations (scanTrees_group prior opening closing d inner rest)

/-! ## Declarations at any depth -/

/-- A declaration is among others, or in a container or in the template of a table among them. -/
inductive Declared (d : Declaration) : List Declaration → Prop
  | here {ds : List Declaration} (mem : d ∈ ds) : Declared d ds
  | inContainer {ds body : List Declaration} {label : String} (mem : .container label body ∈ ds)
      (below : Declared d body) : Declared d ds
  | inTemplate {ds template : List Declaration} {label : String} {arity : Option Nat} {entries : List Entry}
      (mem : .table label arity entries (.replay template) ∈ ds) (below : Declared d template) : Declared d ds

theorem not_declared_nil (d : Declaration) : ¬ Declared d [] := by
  intro h
  cases h with
  | here mem => exact List.not_mem_nil mem
  | inContainer mem below => exact List.not_mem_nil mem
  | inTemplate mem below => exact List.not_mem_nil mem

theorem declared_append {d : Declaration} {a b : List Declaration} :
    Declared d (a ++ b) ↔ Declared d a ∨ Declared d b := by
  constructor
  · intro h
    cases h with
    | here mem => exact (List.mem_append.mp mem).imp .here .here
    | inContainer mem below => exact (List.mem_append.mp mem).imp (.inContainer · below) (.inContainer · below)
    | inTemplate mem below => exact (List.mem_append.mp mem).imp (.inTemplate · below) (.inTemplate · below)
  · have mono : ∀ {ds : List Declaration}, Declared d ds → (∀ e ∈ ds, e ∈ a ++ b) → Declared d (a ++ b) := by
      intro ds h hmem
      cases h with
      | here mem => exact .here (hmem _ mem)
      | inContainer mem below => exact .inContainer (hmem _ mem) below
      | inTemplate mem below => exact .inTemplate (hmem _ mem) below
    rintro (h | h)
    · exact mono h fun e he => List.mem_append_left b he
    · exact mono h fun e he => List.mem_append_right a he

/-- Below what a call declares is what was found in its body. -/
theorem declared_call {d : Declaration} (c : Call) :
    Declared d c.declarations ↔
      d ∈ c.declarations ∨ Declared d (scanTrees .other c.body).declarations := by
  obtain ⟨k, name, opening, closing, inner⟩ := c
  have hnone : ¬ Declared d (scanTrees .other []).declarations := by
    rw [scanTrees_nil]
    exact not_declared_nil d
  constructor
  · intro h
    cases h with
    | here mem => exact .inl mem
    | inContainer mem below =>
      right
      cases k with
      | container =>
        cases List.mem_singleton.mp mem
        exact below
      | leaf => cases List.mem_singleton.mp mem
      | table => cases List.mem_singleton.mp mem
      | subtreeTable => cases List.mem_singleton.mp mem
      | entry => exact absurd mem List.not_mem_nil
    | inTemplate mem below =>
      right
      cases k with
      | subtreeTable =>
        cases List.mem_singleton.mp mem
        exact below
      | leaf => cases List.mem_singleton.mp mem
      | table => cases List.mem_singleton.mp mem
      | container => cases List.mem_singleton.mp mem
      | entry => exact absurd mem List.not_mem_nil
  · rintro (mem | below)
    · exact .here mem
    · cases k with
      | container => exact .inContainer (List.mem_singleton_self _) below
      | subtreeTable => exact .inTemplate (List.mem_singleton_self _) below
      | leaf => exact absurd below hnone
      | table => exact absurd below hnone
      | entry => exact absurd below hnone

/-- What a scan declares at any depth is what the calls declare that it comes to. -/
theorem declared_scanTrees_iff {d : Declaration} (prior : Prior) (ts : List TokenTree) :
    Declared d (scanTrees prior ts).declarations ↔ ∃ c, Finds c prior ts ∧ d ∈ c.declarations := by
  constructor
  · intro h
    induction prior, ts using scanTrees_induct with
    | nil prior =>
      rw [scanTrees_nil] at h
      exact absurd h (not_declared_nil d)
    | call prior name opening closing inner rest k hcall ihpart ihrest =>
      let outer : Call := ⟨k, name, opening, closing, inner⟩
      have hcall' : callAt? prior (outer.trees ++ rest) = some outer.kind := hcall
      have hscan := declarations_scanTrees_call hcall'
      simp only [outer, Call.trees, List.cons_append, List.nil_append] at hscan
      rw [hscan, declared_append, declared_call] at h
      rcases h with (mem | below) | behind
      · exact ⟨outer, .here hcall', mem⟩
      · obtain ⟨c, hc, hmem⟩ := ihpart below
        exact ⟨c, .inBody hcall' hc, hmem⟩
      · obtain ⟨c, hc, hmem⟩ := ihrest behind
        exact ⟨c, .behindCall hcall' hc, hmem⟩
    | token prior t rest hcall ih =>
      rw [scanTrees_token hcall] at h
      obtain ⟨c, hc, hmem⟩ := ih h
      exact ⟨c, .behindToken hcall hc, hmem⟩
    | group prior opening closing d' inner rest ihinner ihrest =>
      rw [declarations_scanTrees_group, declared_append] at h
      rcases h with inside | behind
      · obtain ⟨c, hc, hmem⟩ := ihinner inside
        exact ⟨c, .inGroup hc, hmem⟩
      · obtain ⟨c, hc, hmem⟩ := ihrest behind
        exact ⟨c, .behindGroup hc, hmem⟩
  · rintro ⟨c, hfinds, hmem⟩
    induction hfinds with
    | here call =>
      rw [declarations_scanTrees_call call, declared_append]
      exact .inl (.here hmem)
    | inBody call below ih =>
      rw [declarations_scanTrees_call call, declared_append, declared_call]
      exact .inl (.inr ih)
    | behindCall call behind ih =>
      rw [declarations_scanTrees_call call, declared_append]
      exact .inr ih
    | behindToken no_call behind ih =>
      rw [scanTrees_token no_call]
      exact ih
    | inGroup inside ih =>
      rw [declarations_scanTrees_group, declared_append]
      exact .inl ih
    | behindGroup behind ih =>
      rw [declarations_scanTrees_group, declared_append]
      exact .inr ih

/-! ## The body of a call -/

/-- The first of the pieces between commas ends with the trees, or in front of the first comma. -/
theorem splitArguments_eq_cons {ts arg : List TokenTree} {after : List (List TokenTree)}
    (h : splitArguments ts = arg :: after) :
    (∀ t ∈ arg, t.isComma = false) ∧ (ts = arg ∧ arg ≠ [] ∧ after = [] ∨
      ∃ comma back, comma.kind = .comma ∧ ts = arg ++ .token comma :: back ∧ splitArguments back = after) := by
  induction ts generalizing arg with
  | nil => cases h
  | cons t rest ih =>
    rw [splitArguments] at h
    by_cases hcomma : t.isComma = true
    · rw [if_pos hcomma] at h
      obtain ⟨rfl, hafter⟩ := List.cons.inj h
      refine ⟨fun t ht => absurd ht List.not_mem_nil, .inr ?_⟩
      cases t with
      | token comma => exact ⟨comma, rest, by simpa [TokenTree.isComma] using hcomma, rfl, hafter⟩
      | group opening closing d inner => cases hcomma
    · rw [if_neg hcomma] at h
      have ht : t.isComma = false := by simpa using hcomma
      cases hpieces : splitArguments rest with
      | nil =>
        simp only [hpieces] at h
        obtain ⟨rfl, rfl⟩ := List.cons.inj h
        obtain rfl : rest = [] := by
          cases rest with
          | nil => rfl
          | cons u us =>
            rw [splitArguments] at hpieces
            split at hpieces
            · cases hpieces
            · split at hpieces <;> cases hpieces
        exact ⟨by simpa using ht, .inl ⟨rfl, by simp, rfl⟩⟩
      | cons piece pieces =>
        simp only [hpieces] at h
        obtain ⟨rfl, rfl⟩ := List.cons.inj h
        obtain ⟨hno, hend⟩ := ih hpieces
        refine ⟨List.forall_mem_cons.mpr ⟨ht, hno⟩, ?_⟩
        rcases hend with ⟨rfl, -, hnone⟩ | ⟨comma, back, hkind, rfl, hback⟩
        · exact .inl ⟨rfl, by simp, hnone⟩
        · exact .inr ⟨comma, back, hkind, rfl, hback⟩

/-- One of the pieces between commas can be exchanged, and the others stay what they are. -/
theorem splitArguments_exchange {ts arg : List TokenTree} {before after : List (List TokenTree)}
    (h : splitArguments ts = before ++ arg :: after) :
    (∀ t ∈ arg, t.isComma = false) ∧ ∃ front back, ts = front ++ (arg ++ back) ∧
      ∀ arg', arg' ≠ [] → (∀ t ∈ arg', t.isComma = false) →
        splitArguments (front ++ (arg' ++ back)) = before ++ arg' :: after := by
  induction before generalizing ts with
  | nil =>
    obtain ⟨hno, ⟨rfl, -, rfl⟩ | ⟨comma, back, hcomma, rfl, rfl⟩⟩ := splitArguments_eq_cons h
    · refine ⟨hno, [], [], by simp, fun arg' hne hno' => ?_⟩
      rw [List.nil_append, List.append_nil, splitArguments_single hne hno']
      rfl
    · refine ⟨hno, [], .token comma :: back, rfl, fun arg' _ hno' => ?_⟩
      exact splitArguments_comma hno' hcomma back
  | cons piece before ih =>
    obtain ⟨hpiece, ⟨-, -, hnone⟩ | ⟨comma, rest, hcomma, rfl, hrest⟩⟩ := splitArguments_eq_cons h
    · cases before <;> cases hnone
    · obtain ⟨hno, front, back, rfl, hexchange⟩ := ih hrest
      refine ⟨hno, piece ++ .token comma :: front, back, by simp, fun arg' hne hno' => ?_⟩
      rw [List.append_assoc, List.cons_append, splitArguments_comma hpiece hcomma, hexchange arg' hne hno']
      rfl

/-- A function literal is no entry: there are at least three trees in it. -/
theorem entry?_function (t opening closing : Token) (params between : List TokenTree) (last : TokenTree) :
    entry? (.token t :: .group opening closing .paren params :: (between ++ [last])) = none := by
  cases between <;> rfl

theorem functionLiteral?_brace {t : Token} (h : t.isName "func" = true) (opening closing first last : Token)
    (params between body : List TokenTree) :
    functionLiteral? (.token t :: .group opening closing .paren params ::
      (between ++ [.group first last .brace body])) = some ⟨params, body⟩ := by
  rw [functionLiteral?, if_pos h, List.getLast?_concat]

/-- The body of a call can be exchanged, and all else that is read from its arguments stays what it is. -/
theorem bodyOf?_exchange {inner : List TokenTree} {f : FunctionLiteral}
    (h : bodyOf? (splitArguments inner) = some f) :
    ∃ front first last back, inner = front ++ .group first last .brace f.body :: back ∧
      ∀ body, ∃ args, splitArguments (front ++ .group first last .brace body :: back) = args ∧
        bodyOf? args = some ⟨f.params, body⟩ ∧ labelOf args = labelOf (splitArguments inner) ∧
        entriesOf args = entriesOf (splitArguments inner) := by
  obtain ⟨skipped, arg, others, hdrop, hliteral, hskipped⟩ := List.findSome?_eq_some_iff.mp h
  obtain ⟨t, opening, closing, between, first, last, hfunc, rfl⟩ := functionLiteral?_eq_some hliteral
  let literal (body : List TokenTree) : List TokenTree :=
    .token t :: .group opening closing .paren f.params :: (between ++ [.group first last .brace body])
  -- the function literal stands behind the label
  obtain ⟨label, hargs⟩ : ∃ label, splitArguments inner = (label :: skipped) ++ literal f.body :: others := by
    cases hsplit : splitArguments inner with
    | nil => simp [hsplit] at hdrop
    | cons label rest =>
      rw [hsplit] at hdrop
      exact ⟨label, congrArg (label :: ·) hdrop⟩
  obtain ⟨hno, front, back, hinner, hexchange⟩ := splitArguments_exchange hargs
  refine ⟨front ++ .token t :: .group opening closing .paren f.params :: between, first, last, back,
    by simp [hinner, literal], fun body => ?_⟩
  have hno' : ∀ u ∈ literal body, u.isComma = false := by
    simp only [literal, List.forall_mem_cons, List.forall_mem_append] at hno ⊢
    exact ⟨hno.1, hno.2.1, hno.2.2.1, rfl, hno.2.2.2.2⟩
  have hbody := hexchange (literal body) (List.cons_ne_nil _ _) hno'
  refine ⟨(label :: skipped) ++ literal body :: others, by simpa [literal] using hbody, ?_, ?_, ?_⟩
  · refine List.findSome?_eq_some_iff.mpr ⟨skipped, literal body, others, rfl, ?_, hskipped⟩
    exact functionLiteral?_brace hfunc _ _ _ _ _ _ _
  · rw [hargs]
    rfl
  · rw [hargs]
    simp only [entriesOf, literal, List.cons_append, List.drop_succ_cons, List.drop_zero, List.filterMap_append,
      List.filterMap_cons, entry?_function]

/-- What a call declares depends on its arguments by the label, the arity and the entries. -/
theorem declareCall_congr {k : CallKind} {name : Token} {inner inner' : List TokenTree} {below below' : Scanned}
    (hlabel : labelOf (splitArguments inner') = labelOf (splitArguments inner))
    (harity : (bodyOf? (splitArguments inner')).bind (·.arity) =
      (bodyOf? (splitArguments inner)).bind (·.arity))
    (hentries : entriesOf (splitArguments inner') = entriesOf (splitArguments inner))
    (hbelow : below'.declarations = below.declarations) :
    (declareCall k name inner' below').declarations = (declareCall k name inner below).declarations := by
  cases k <;> simp only [declareCall, hlabel, harity, hentries, hbelow]

/-- A call of which something is scanned has a function literal with that body. -/
theorem Call.exists_function {c : Call} (h : c.body ≠ []) :
    (c.kind = .container ∨ c.kind = .subtreeTable) ∧
      ∃ f, bodyOf? (splitArguments c.inner) = some f ∧ f.body = c.body := by
  have hkind : c.kind = .container ∨ c.kind = .subtreeTable := by
    cases hk : c.kind with
    | container => exact .inl rfl
    | subtreeTable => exact .inr rfl
    | leaf => exact absurd (by rw [Call.body, hk]; rfl) h
    | table => exact absurd (by rw [Call.body, hk]; rfl) h
    | entry => exact absurd (by rw [Call.body, hk]; rfl) h
  have hpart : c.body = _ := scannedPart_eq c.inner hkind
  cases hbody : bodyOf? (splitArguments c.inner) with
  | none =>
    rw [hbody] at hpart
    exact absurd hpart h
  | some f =>
    rw [hbody] at hpart
    exact ⟨hkind, f, rfl, hpart.symm⟩

/-- The body of a call can be exchanged for one in which the same is found. -/
theorem Call.exchange_body {c : Call} (h : c.body ≠ []) :
    ∃ front first last back, c.inner = front ++ .group first last .brace c.body :: back ∧
      ∀ body, (scanTrees .other body).declarations = (scanTrees .other c.body).declarations →
        (c.withInner (front ++ .group first last .brace body :: back)).declarations = c.declarations := by
  obtain ⟨hkind, f, hf, hbody⟩ := c.exists_function h
  obtain ⟨front, first, last, back, hinner, hexchange⟩ := bodyOf?_exchange hf
  refine ⟨front, first, last, back, hbody ▸ hinner, fun body hscan => ?_⟩
  obtain ⟨args, hargs, hfunction, hlabel, hentries⟩ := hexchange body
  have hpart : scannedPart c.kind (front ++ .group first last .brace body :: back) = body := by
    rw [scannedPart_eq _ hkind, hargs, hfunction]
    rfl
  refine declareCall_congr ?_ ?_ ?_ ?_
  · rw [Call.withInner, hargs, hlabel]
  · rw [Call.withInner, hargs, hfunction, hf]
    rfl
  · rw [Call.withInner, hargs, hentries]
  · rw [Call.body, Call.withInner, hpart, hscan]

/-! ## Exchanging a call -/

/-- Another call that can stand in the place of a call. -/
structure Call.Replaces (c' c : Call) : Prop where
  kind : c'.kind = c.kind
  name : c'.name = c.name
  declarations : c'.declarations = c.declarations

/-- Some trees with a call in them, and the same trees with another call in its place. Both declare the same. -/
structure Exchanged (c c' : Call) (prior : Prior) (before after : List Token) (ts ts' : List TokenTree) :
    Prop where
  tokens : TokenTree.allTokens ts = before ++ (TokenTree.allTokens c.trees ++ after)
  tokens' : TokenTree.allTokens ts' = before ++ (TokenTree.allTokens c'.trees ++ after)
  fits : AllFit ts → AllFit c'.trees → AllFit ts'
  /-- Whether a name in front of the trees is called is the same. -/
  callAt : ∀ p t, callAt? p (.token t :: ts') = callAt? p (.token t :: ts)
  declarations : (scanTrees prior ts').declarations = (scanTrees prior ts).declarations

theorem callAt?_trees {c c' : Call} (h : c'.name = c.name) (prior : Prior) (rest rest' : List TokenTree) :
    callAt? prior (c'.trees ++ rest') = callAt? prior (c.trees ++ rest) := by
  simp only [Call.trees, List.cons_append, List.nil_append, callAt?, h]

theorem callAt?_group (p : Prior) (t opening closing : Token) (d : Delimiter)
    (inner inner' rest rest' : List TokenTree) :
    callAt? p (.token t :: .group opening closing d inner' :: rest') =
      callAt? p (.token t :: .group opening closing d inner :: rest) := by
  cases d <;> rfl

theorem allTokens_group (opening closing : Token) (d : Delimiter) (inner rest : List TokenTree) :
    TokenTree.allTokens (.group opening closing d inner :: rest) =
      opening :: (TokenTree.allTokens inner ++ closing :: TokenTree.allTokens rest) := by
  simp only [TokenTree.allTokens, TokenTree.tokens, List.cons_append, List.append_assoc, List.nil_append]

theorem Call.allTokens_trees (c : Call) :
    TokenTree.allTokens c.trees = c.name :: c.opening :: (TokenTree.allTokens c.inner ++ [c.closing]) := by
  simp only [Call.trees, TokenTree.allTokens, TokenTree.tokens, List.cons_append, List.append_nil,
    List.nil_append]

namespace Exchanged

variable {prior : Prior} {ts ts' rest rest' inner inner' : List TokenTree} {before after : List Token}
  {c c' outer : Call} {t opening closing : Token} {d : Delimiter}

theorem here (call : callAt? prior (c.trees ++ rest) = some c.kind) (h : c'.Replaces c) :
    Exchanged c c' prior [] (TokenTree.allTokens rest) (c.trees ++ rest) (c'.trees ++ rest) := by
  have hcall : callAt? prior (c'.trees ++ rest) = some c'.kind := by
    rw [callAt?_trees h.name prior rest rest, call, h.kind]
  refine ⟨allTokens_append _ _, allTokens_append _ _, ?_, fun _ _ => rfl, ?_⟩
  · intro hfits hfits'
    exact allFit_append.mpr ⟨hfits', (allFit_append.mp hfits).2⟩
  · rw [declarations_scanTrees_call call, declarations_scanTrees_call hcall, h.declarations]

theorem behindCall (call : callAt? prior (outer.trees ++ rest) = some outer.kind)
    (h : Exchanged c c' .other before after rest rest') :
    Exchanged c c' prior (TokenTree.allTokens outer.trees ++ before) after (outer.trees ++ rest)
      (outer.trees ++ rest') := by
  have hcall : callAt? prior (outer.trees ++ rest') = some outer.kind := by
    rw [callAt?_trees rfl prior rest rest', call]
  refine ⟨?_, ?_, ?_, fun _ _ => rfl, ?_⟩
  · rw [allTokens_append, h.tokens, List.append_assoc]
  · rw [allTokens_append, h.tokens', List.append_assoc]
  · intro hfits hfits'
    obtain ⟨houter, hrest⟩ := allFit_append.mp hfits
    exact allFit_append.mpr ⟨houter, h.fits hrest hfits'⟩
  · rw [declarations_scanTrees_call call, declarations_scanTrees_call hcall, h.declarations]

theorem behindToken (no_call : callAt? prior (.token t :: rest) = none)
    (h : Exchanged c c' (.afterToken t) before after rest rest') :
    Exchanged c c' prior (t :: before) after (.token t :: rest) (.token t :: rest') := by
  have hcall : callAt? prior (.token t :: rest') = none := by rw [h.callAt, no_call]
  refine ⟨congrArg (t :: ·) h.tokens, congrArg (t :: ·) h.tokens', ?_, fun _ _ => rfl, ?_⟩
  · intro hfits hfits'
    exact ⟨hfits.1, h.fits hfits.2 hfits'⟩
  · rw [scanTrees_token no_call, scanTrees_token hcall, h.declarations]

theorem inGroup (h : Exchanged c c' .other before after inner inner') :
    Exchanged c c' prior (opening :: before) (after ++ closing :: TokenTree.allTokens rest)
      (.group opening closing d inner :: rest) (.group opening closing d inner' :: rest) := by
  refine ⟨?_, ?_, ?_, fun _ _ => callAt?_group _ _ _ _ _ _ _ _ _, ?_⟩
  · rw [allTokens_group, h.tokens]
    simp only [List.cons_append, List.append_assoc]
  · rw [allTokens_group, h.tokens']
    simp only [List.cons_append, List.append_assoc]
  · rintro ⟨⟨hopening, hclosing, hinner⟩, hrest⟩ hfits'
    exact ⟨⟨hopening, hclosing, h.fits hinner hfits'⟩, hrest⟩
  · rw [declarations_scanTrees_group, declarations_scanTrees_group, h.declarations]

theorem behindGroup (h : Exchanged c c' (prior.afterGroup d) before after rest rest') :
    Exchanged c c' prior (opening :: (TokenTree.allTokens inner ++ closing :: before)) after
      (.group opening closing d inner :: rest) (.group opening closing d inner :: rest') := by
  refine ⟨?_, ?_, ?_, fun _ _ => callAt?_group _ _ _ _ _ _ _ _ _, ?_⟩
  · rw [allTokens_group, h.tokens]
    simp only [List.cons_append, List.append_assoc]
  · rw [allTokens_group, h.tokens']
    simp only [List.cons_append, List.append_assoc]
  · intro hfits hfits'
    exact ⟨hfits.1, h.fits hfits.2 hfits'⟩
  · rw [declarations_scanTrees_group, declarations_scanTrees_group, h.declarations]

/-- Within the body of a call, which is a group among the trees between the parentheses. -/
theorem inBody {front back body' : List TokenTree} {first last : Token}
    (call : callAt? prior (outer.trees ++ rest) = some outer.kind)
    (hinner : outer.inner = front ++ .group first last .brace outer.body :: back)
    (hdeclared : (outer.withInner (front ++ .group first last .brace body' :: back)).declarations =
      outer.declarations)
    (h : Exchanged c c' .other before after outer.body body') :
    Exchanged c c' prior
      (outer.name :: outer.opening :: (TokenTree.allTokens front ++ first :: before))
      (after ++ last :: (TokenTree.allTokens back ++ outer.closing :: TokenTree.allTokens rest))
      (outer.trees ++ rest)
      ((outer.withInner (front ++ .group first last .brace body' :: back)).trees ++ rest) := by
  have hcall : callAt? prior ((outer.withInner (front ++ .group first last .brace body' :: back)).trees ++
      rest) = some outer.kind := by
    rw [← call]
    exact callAt?_trees rfl prior rest rest
  refine ⟨?_, ?_, ?_, fun _ _ => rfl, ?_⟩
  · rw [allTokens_append, outer.allTokens_trees, hinner, allTokens_append, allTokens_group, h.tokens]
    simp only [List.cons_append, List.append_assoc, List.nil_append]
  · rw [allTokens_append, Call.allTokens_trees, Call.withInner, allTokens_append, allTokens_group, h.tokens']
    simp only [List.cons_append, List.append_assoc, List.nil_append]
  · intro hfits hfits'
    obtain ⟨⟨hname, ⟨hopening, hclosing, hall⟩, -⟩, hrest⟩ := allFit_append.mp hfits
    rw [hinner] at hall
    obtain ⟨hfront, ⟨hfirst, hlast, hbody⟩, hback⟩ := allFit_append.mp hall
    have hall' : AllFit (front ++ .group first last .brace body' :: back) :=
      allFit_append.mpr ⟨hfront, ⟨hfirst, hlast, h.fits hbody hfits'⟩, hback⟩
    exact allFit_append.mpr ⟨⟨hname, ⟨hopening, hclosing, hall'⟩, trivial⟩, hrest⟩
  · rw [declarations_scanTrees_call call, declarations_scanTrees_call hcall, hdeclared]

end Exchanged

theorem Finds.ne_nil {c : Call} {prior : Prior} {ts : List TokenTree} (h : Finds c prior ts) : ts ≠ [] := by
  cases h <;> simp [Call.trees]

/-- The brackets of a call fit if those around it do. -/
theorem Finds.fits {c : Call} {prior : Prior} {ts : List TokenTree} (h : Finds c prior ts) (hts : AllFit ts) :
    AllFit c.trees := by
  induction h with
  | here call => exact (allFit_append.mp hts).1
  | @inBody prior outer rest call below ih =>
    obtain ⟨front, first, last, back, hinner, -⟩ := outer.exchange_body below.ne_nil
    obtain ⟨⟨-, ⟨-, -, hall⟩, -⟩, -⟩ := allFit_append.mp hts
    rw [hinner] at hall
    obtain ⟨-, ⟨-, -, hbody⟩, -⟩ := allFit_append.mp hall
    exact ih hbody
  | behindCall call behind ih => exact ih (allFit_append.mp hts).2
  | behindToken no_call behind ih => exact ih hts.2
  | inGroup inside ih => exact ih hts.1.2.2
  | behindGroup behind ih => exact ih hts.2

/-- A call that a scan comes to can be exchanged, and all that stands around it is read as before. -/
theorem Finds.exchange {c : Call} {prior : Prior} {ts : List TokenTree} (h : Finds c prior ts) :
    ∃ before after, ∀ c' : Call, c'.Replaces c → ∃ ts', Exchanged c c' prior before after ts ts' := by
  induction h with
  | here call => exact ⟨_, _, fun c' hc' => ⟨_, .here call hc'⟩⟩
  | @inBody prior outer rest call below ih =>
    obtain ⟨front, first, last, back, hinner, hdeclared⟩ := outer.exchange_body below.ne_nil
    obtain ⟨before, after, hexchange⟩ := ih
    exact ⟨_, _, fun c' hc' => (hexchange c' hc').imp' _ fun body' hbody =>
      hbody.inBody call hinner (hdeclared body' hbody.declarations)⟩
  | behindCall call behind ih =>
    obtain ⟨before, after, hexchange⟩ := ih
    exact ⟨_, _, fun c' hc' => (hexchange c' hc').imp' _ fun _ hrest => hrest.behindCall call⟩
  | behindToken no_call behind ih =>
    obtain ⟨before, after, hexchange⟩ := ih
    exact ⟨_, _, fun c' hc' => (hexchange c' hc').imp' _ fun _ hrest => hrest.behindToken no_call⟩
  | inGroup inside ih =>
    obtain ⟨before, after, hexchange⟩ := ih
    exact ⟨_, _, fun c' hc' => (hexchange c' hc').imp' _ fun _ hinner => hinner.inGroup⟩
  | behindGroup behind ih =>
    obtain ⟨before, after, hexchange⟩ := ih
    exact ⟨_, _, fun c' hc' => (hexchange c' hc').imp' _ fun _ hrest => hrest.behindGroup⟩

end SpecForest.Source

import SpecForest.Proofs.Source.Calls
import SpecForest.Proofs.Source.Concatenation
import SpecForest.Proofs.Source.Cuts

/-!
# Bodies of leaves are opaque

Of a leaf, a scan reads the first argument and nothing else. Whatever stands between the comma behind the first
argument and the closing parenthesis can be exchanged for any lines of text that can be read on their own, and
the source declares what it declared before. Strings, comments, brackets and calls within these lines do not
reach beyond them.
-/

namespace SpecForest.Source

/-! ## Text between a comma and a parenthesis -/

/-- A part of a text is told by the number of bytes in it. -/
theorem eq_of_byteCount {a a' b b' : List Char} (h : a ++ b = a' ++ b') (hbytes : byteCount a = byteCount a') :
    a = a' ∧ b = b' := by
  have htake := takeBytes?_append a b
  rw [h, hbytes, takeBytes?_append] at htake
  cases htake
  exact ⟨rfl, List.append_cancel_left h⟩

/-- Closing parentheses are a token of their own, behind a text that ends in a line break. -/
theorem tokensFrom_paren (p : Position) (next : List Char) :
    tokensFrom p (')' :: next) =
      (tokensFrom (p.advance [')']) next).map (⟨"", ")", .closing .paren, p⟩ :: ·) := by
  have hgap : gapLength ([] ++ ')' :: ([] ++ next)) = .ok ([] : List Char).length := by
    rw [List.nil_append, gapLength_of_ne (by decide)]
    rfl
  exact tokensFrom_step p hgap rfl

/-- Where a source has a comma and behind it a closing parenthesis, what stands between the two can be exchanged
for lines of text. All other tokens stay the same up to positions and the gap before the parenthesis. -/
theorem tokens_exchange {source : String} {before between after : List Token} {comma closing : Token}
    (h : tokens source = .ok (before ++ comma :: (between ++ closing :: after)))
    (hcomma : comma.kind = .comma) (hclosing : closing.kind = .closing .paren) :
    ∃ front middle back, source.toList = front ++ ',' :: (middle ++ ')' :: back) ∧
      byteCount front = comma.start.offset ∧ byteCount (front ++ ',' :: middle) = closing.start.offset ∧
      ∀ {b : String} {us : List Token}, tokens b = .ok us → b.toList.getLast? = some '\n' →
        ∃ ns closing', tokens (String.ofList (front ++ ',' :: (b.toList ++ ')' :: back))) = .ok ns ∧
          closing'.kind = .closing .paren ∧
          ns.map Token.bare = (before ++ comma :: (us ++ closing' :: after)).map Token.bare := by
  obtain ⟨last, hsource, hstand⟩ := tokensFrom_lossless h
  obtain ⟨-, hcommaOffset, hcommaGenuine, hrest⟩ := standFrom_append.mp hstand
  obtain ⟨-, hclosingOffset, hclosingGenuine, -⟩ := standFrom_append.mp hrest
  have hcommaText : comma.text.toList = [','] := hcommaGenuine.text_of_mark (by rw [hcomma]; rfl)
  have hclosingText : closing.text.toList = [')'] := hclosingGenuine.text_of_mark (by rw [hclosing]; rfl)
  refine ⟨written before ++ comma.gap.toList, written between ++ closing.gap.toList, written after ++ last,
    ?_, ?_, ?_, ?_⟩
  · rw [hsource]
    simp [written, hcommaText, hclosingText]
  · rw [hcommaOffset]
    simp [Position.start]
  · rw [hclosingOffset, hcommaText]
    simp [Position.start, byteCount, Nat.add_assoc]
  · intro b us hb hline
    have hread : tokensFrom .start (written before ++ (comma.gap.toList ++
        ',' :: (written between ++ (closing.gap.toList ++ ')' :: (written after ++ last))))) =
        .ok (before ++ comma :: (between ++ closing :: after)) := by
      rw [← h, tokens, hsource]
      simp [written, hcommaText, hclosingText]
    -- what stands behind the parenthesis is read again, at another place
    have hbehind : tokensFrom (Position.start.advance (written (before ++ comma :: (between ++ [closing]))))
        (written after ++ last) = .ok after := by
      apply tokensFrom_written
      simpa [written, hcommaText, hclosingText] using hread
    let p := Position.start.advance (written before ++ comma.gap.toList ++ [','])
    obtain ⟨us', hus, husBare⟩ := tokensFrom_bare hb p
    obtain ⟨gap, hlines⟩ := tokensFrom_append_line hus hline (')' :: (written after ++ last))
    obtain ⟨after', hafter, hafterBare⟩ := tokensFrom_bare hbehind ((p.advance b.toList).advance [')'])
    rw [tokensFrom_paren, hafter] at hlines
    let closing' : Token := ⟨String.ofList gap ++ "", ")", .closing .paren, p.advance b.toList⟩
    refine ⟨(before ++ [comma]) ++ (us' ++ closing' :: after'), closing', ?_, rfl, ?_⟩
    · rw [tokens, String.toList_ofList, List.append_assoc, tokensFrom_comma hcomma hcommaText hread, hlines]
      rfl
    · simp only [List.map_append, List.map_cons, husBare, hafterBare, List.append_assoc, List.cons_append,
        List.nil_append]

/-! ## Leaves -/

/-- A leaf declares its label, and the label is read from the first argument. -/
theorem Call.declarations_leaf {c : Call} {first rest : List TokenTree} {comma : Token} (hleaf : c.kind = .leaf)
    (hinner : c.inner = first ++ .token comma :: rest) (hcomma : comma.kind = .comma)
    (hfirst : ∀ t ∈ first, t.isComma = false) :
    c.declarations = [.leaf (labelText (readValue first)) .noop] := by
  rw [Call.declarations, hleaf, hinner]
  simp only [declareCall, splitArguments_comma hfirst hcomma, labelOf]

/-- In the trees of a source, a leaf can have another body and another closing parenthesis. -/
theorem Finds.exchange_leaf {c : Call} {trees : List TokenTree} (h : Finds c .other trees) (hfits : AllFit trees)
    {first rest : List TokenTree} {comma : Token} (hleaf : c.kind = .leaf)
    (hinner : c.inner = first ++ .token comma :: rest) (hcomma : comma.kind = .comma)
    (hfirst : ∀ t ∈ first, t.isComma = false) :
    c.closing.kind = .closing .paren ∧ ∃ before after,
      TokenTree.allTokens trees = before ++ comma :: (TokenTree.allTokens rest ++ c.closing :: after) ∧
      ∀ {body : List TokenTree} {closing : Token}, AllFit body → closing.kind = .closing .paren →
        ∃ trees', TokenTree.allTokens trees' = before ++ comma :: (TokenTree.allTokens body ++ closing :: after) ∧
          AllFit trees' ∧ (scanTrees .other trees').declarations = (scanTrees .other trees).declarations := by
  obtain ⟨hname, ⟨hopening, hclosing, hall⟩, -⟩ := h.fits hfits
  obtain ⟨before, after, hexchange⟩ := h.exchange
  obtain ⟨_, hself⟩ := hexchange c ⟨rfl, rfl, rfl⟩
  refine ⟨hclosing, before ++ c.name :: c.opening :: TokenTree.allTokens first, after, ?_, ?_⟩
  · rw [hself.tokens, c.allTokens_trees, hinner, allTokens_append]
    simp [TokenTree.allTokens, TokenTree.tokens]
  · intro body closing hbody hclosing'
    let c' : Call := { c with closing, inner := first ++ .token comma :: body }
    have hreplaces : c'.Replaces c := by
      refine ⟨rfl, rfl, ?_⟩
      rw [Call.declarations_leaf hleaf hinner hcomma hfirst]
      exact Call.declarations_leaf (c := c') hleaf rfl hcomma hfirst
    have hfits' : AllFit c'.trees := by
      rw [hinner] at hall
      obtain ⟨hfirstFits, hcommaFits, -⟩ := allFit_append.mp hall
      have hinner' : AllFit c'.inner := allFit_append.mpr ⟨hfirstFits, hcommaFits, hbody⟩
      exact ⟨hname, ⟨hopening, hclosing', hinner'⟩, trivial⟩
    obtain ⟨trees', hexchanged⟩ := hexchange c' hreplaces
    refine ⟨trees', ?_, hexchanged.fits hfits hfits', hexchanged.declarations⟩
    rw [hexchanged.tokens', c'.allTokens_trees]
    simp [c', TokenTree.allTokens, TokenTree.tokens]

/-! ## Sources -/

/-- A source declares what is declared by any trees that have its tokens up to positions. -/
theorem exists_scan_of_bare {source : String} {ts : List Token} {trees : List TokenTree}
    (htokens : tokens source = .ok ts) (hbare : ts.map Token.bare = (TokenTree.allTokens trees).map Token.bare)
    (hfits : AllFit trees) :
    ∃ found, scan source = .ok found ∧ found.declarations = (scanTrees .other trees).declarations := by
  rw [← allTokens_bareAll] at hbare
  obtain ⟨placed, hgroup, hplaced⟩ := group_of_bare hbare (allFit_bareAll hfits)
  obtain ⟨found, hfound, hdeclared⟩ := exists_scan htokens hgroup
  refine ⟨found, hfound, ?_⟩
  rw [hdeclared, ← scanTrees_bareAll, hplaced, scanTrees_bareAll]

/-- For every leaf that a scan comes to and that has a comma behind its first argument, all between that comma
and the closing parenthesis can be exchanged for any text that can be read on its own and ends in a line break.
The source can be scanned as before, and declares the same. -/
theorem scan_replace_leaf_body {source : String} {found : Scanned} {ts : List Token} {trees : List TokenTree}
    (h : scan source = .ok found) (htokens : tokens source = .ok ts) (hgroup : group ts = .ok trees)
    {c : Call} (hfinds : Finds c .other trees) (hleaf : c.kind = .leaf)
    {first rest : List TokenTree} {comma : Token} (hinner : c.inner = first ++ .token comma :: rest)
    (hcomma : comma.kind = .comma) (hfirst : ∀ t ∈ first, t.isComma = false) :
    ∃ front middle back, source.toList = front ++ ',' :: (middle ++ ')' :: back) ∧
      byteCount front = comma.start.offset ∧ byteCount (front ++ ',' :: middle) = c.closing.start.offset ∧
      ∀ b us body, tokens b = .ok us → group us = .ok body → b.toList.getLast? = some '\n' →
        ∃ found', scan (String.ofList (front ++ ',' :: (b.toList ++ ')' :: back))) = .ok found' ∧
          found'.declarations = found.declarations := by
  have hfound : found.declarations = (scanTrees .other trees).declarations := by
    obtain ⟨found₀, hfound₀, hdeclared⟩ := exists_scan htokens hgroup
    rw [h] at hfound₀
    cases hfound₀
    exact hdeclared
  obtain ⟨hfits, rfl⟩ := (group_eq_ok_iff ts trees).mp hgroup
  obtain ⟨hclosing, before, after, hcut, hexchange⟩ := hfinds.exchange_leaf hfits hleaf hinner hcomma hfirst
  rw [hcut] at htokens
  obtain ⟨front, middle, back, hsource, hfront, hmiddle, hlines⟩ := tokens_exchange htokens hcomma hclosing
  refine ⟨front, middle, back, hsource, hfront, hmiddle, ?_⟩
  intro b us body hb hbody hend
  obtain ⟨hbodyFits, rfl⟩ := (group_eq_ok_iff us body).mp hbody
  obtain ⟨ns, closing', htokens', hclosing', hbare⟩ := hlines hb hend
  obtain ⟨trees', hcut', hfits', hdeclared⟩ := hexchange hbodyFits hclosing'
  rw [← hcut'] at hbare
  obtain ⟨found', hfound', hsame⟩ := exists_scan_of_bare htokens' hbare hfits'
  exact ⟨found', hfound', by rw [hsame, hdeclared, hfound]⟩

set_option maxRecDepth 2000 in
/-- A leaf in the body of a container, of which the function is exchanged for a call of a leaf and a comment. -/
theorem scan_replace_leaf_body_nested_call :
    let declares (source : String) :=
      ∃ found, scan source = .ok found ∧ found.declarations = [.container "d" [.leaf "a" .noop]]
    declares "Describe(\"d\", func() \x7b It(\"a\", f()) \x7d)" ∧
      declares "Describe(\"d\", func() \x7b It(\"a\",It(\"x\") // )\n) \x7d)" := by
  intro declares
  obtain ⟨ts, trees, c, first, rest, comma, htokens, hgroup, hfinds, hleaf, hinner, hcomma, hfirst,
      hcommaOffset, hclosingOffset, hscan⟩ :
      ∃ ts trees c first rest comma, tokens "Describe(\"d\", func() \x7b It(\"a\", f()) \x7d)" = .ok ts ∧
        group ts = .ok trees ∧ Finds c .other trees ∧ c.kind = .leaf ∧
        c.inner = first ++ .token comma :: rest ∧ comma.kind = .comma ∧
        (∀ t ∈ first, t.isComma = false) ∧ comma.start.offset = 29 ∧ c.closing.start.offset = 34 ∧
        (scanTrees .other trees).declarations = [.container "d" [.leaf "a" .noop]] := by
    refine ⟨_, _, _, [_], _, _, by cbv, by cbv, @Finds.inBody _ _ ⟨.container, _, _, _, _⟩ [] rfl
      (@Finds.here ⟨.leaf, _, _, _, _⟩ .other [] rfl), rfl, rfl, rfl, ?_, rfl, rfl, ?_⟩
    · intro t ht
      rw [List.mem_singleton.mp ht]
      rfl
    · rw [declarations_scanTrees_call rfl, scanTrees_nil]
      refine (congrArg (fun below => (declareCall .container _ _ below).declarations ++ [])
        (scanTrees_call (k := .leaf) rfl)).trans ?_
      rw [scanTrees_nil]
      rfl
  obtain ⟨found, hfound, hdeclared⟩ := exists_scan htokens hgroup
  obtain ⟨front, middle, back, hsource, hfront, hmiddle, hlines⟩ :=
    scan_replace_leaf_body hfound htokens hgroup hfinds hleaf hinner hcomma hfirst
  have hfront' : front = "Describe(\"d\", func() \x7b It(\"a\"".toList := by
    have hcut : front ++ ',' :: (middle ++ ')' :: back) =
        "Describe(\"d\", func() \x7b It(\"a\"".toList ++ ", f()) \x7d)".toList := by
      rw [← hsource]
      rfl
    exact (eq_of_byteCount hcut (hfront.trans hcommaOffset)).1
  have hback : ')' :: back = ") \x7d)".toList := by
    have hcut : (front ++ ',' :: middle) ++ ')' :: back =
        "Describe(\"d\", func() \x7b It(\"a\", f()".toList ++ ") \x7d)".toList := by
      rw [List.append_assoc, List.cons_append, ← hsource]
      rfl
    exact (eq_of_byteCount hcut (hmiddle.trans hclosingOffset)).2
  refine ⟨⟨found, hfound, hdeclared.trans hscan⟩, ?_⟩
  obtain ⟨found', hfound', hsame⟩ := hlines "It(\"x\") // )\n" _ _ (by cbv) (by cbv) (by decide)
  rw [hfront', hback] at hfound'
  exact ⟨found', hfound', hsame.trans (hdeclared.trans hscan)⟩

end SpecForest.Source

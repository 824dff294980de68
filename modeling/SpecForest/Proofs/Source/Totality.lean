import SpecForest.Proofs.Source.TableCalls

/-!
# The scan never gets stuck

The scan over the table gives what the scan over the trees gives, for every source text, with as much fuel as
the text has characters and one more. So no index is out of range, no difference is negative, no cut falls
between the bytes of a character, no number overflows, and every loop comes to its end.
-/

namespace SpecForest.Source

/-! ## Escapes -/

theorem digitValue?_lt {base d : Nat} {c : Char} (h : digitValue? base c = some d) : d < base := by
  simpa using (Option.filter_eq_some_iff.mp h).2

/-- Digits do not overflow as long as there is room for all of them. -/
theorem wordDigits_eq {base count acc : Nat} (cs : List Char) (hroom : (acc + 1) * base ^ count ≤ 2 ^ 32) :
    wordDigits base count acc cs = .ok (readDigits? base count acc cs) := by
  induction count generalizing acc cs with
  | zero => rfl
  | succ count ih =>
    match cs with
    | [] => rfl
    | c :: rest =>
      rw [wordDigits, readDigits?]
      cases hdigit : digitValue? base c with
      | none => rfl
      | some d =>
        have hd := digitValue?_lt hdigit
        -- what has been read leaves room for as many digits as are still to come
        have hnext : acc * base + d + 1 ≤ (acc + 1) * base := by
          rw [Nat.add_mul, Nat.one_mul]
          omega
        have hall : (acc * base + d + 1) * base ^ count ≤ 2 ^ 32 := by
          calc (acc * base + d + 1) * base ^ count
              ≤ (acc + 1) * base * base ^ count := Nat.mul_le_mul_right _ hnext
            _ = (acc + 1) * base ^ (count + 1) := by rw [Nat.mul_assoc, Nat.pow_succ']
            _ ≤ 2 ^ 32 := hroom
        have hpos : 0 < base ^ count := Nat.pow_pos (by omega)
        have hone : acc * base + d + 1 ≤ 2 ^ 32 := Nat.le_trans (Nat.le_mul_of_pos_right _ hpos) hall
        have hproduct : inWord (acc * base) = .ok (acc * base) := if_pos (by omega)
        have hsum : inWord (acc * base + d) = .ok (acc * base + d) := if_pos (by omega)
        simp only [hproduct, hsum, Checked.ok_bind, Option.bind_some]
        exact ih rest hall

/-- The digits that an escape announces have room in 32 bits. -/
theorem codeEscape?_room {c : Char} {e : CodeEscape} (h : codeEscape? c = some e) :
    (e.first + 1) * e.base ^ e.count ≤ 2 ^ 32 := by
  unfold codeEscape? at h
  split at h
  · cases h
    decide
  · cases h
    decide
  · cases h
    decide
  · obtain ⟨d, hd, rfl⟩ := Option.map_eq_some_iff.mp h
    have hlt := digitValue?_lt hd
    simp only
    omega

/-- An escape is read in 32 bits as it is read without a bound. -/
theorem wordEscape_eq (quote : Char) (cs : List Char) : wordEscape quote cs = .ok (readEscape quote cs) := by
  match cs with
  | [] => rfl
  | c :: rest =>
    rw [wordEscape, readEscape]
    cases simpleEscape? quote c with
    | some d => rfl
    | none =>
      cases hcode : codeEscape? c with
      | none => rfl
      | some e =>
        simp only [wordDigits_eq rest (codeEscape?_room hcode), Checked.ok_bind]
        cases readDigits? e.base e.count e.first rest with
        | none => rfl
        | some code =>
          simp only
          cases charOfCode? code with
          | none => rfl
          | some d => rfl

/-! ## Sequences of declarations -/

@[simp] theorem Scanned.empty_append (a : Scanned) : ({} : Scanned).append a = a := rfl

@[simp] theorem Scanned.append_empty (a : Scanned) : a.append {} = a := by
  simp [Scanned.append]

theorem Scanned.append_assoc (a b c : Scanned) : (a.append b).append c = a.append (b.append c) := by
  simp [Scanned.append]

/-- A name that is called is not the word `func`. -/
theorem afterToken_of_callKind? {t : Token} {k : CallKind} (h : t.callKind? = some k) :
    Prior.afterToken t = .other := by
  refine if_neg fun hfunc => ?_
  rw [Token.isName, Bool.and_eq_true] at hfunc
  rw [Token.callKind?, if_pos (eq_of_beq hfunc.1), eq_of_beq hfunc.2] at h
  have hnone : plainKind? (baseName "func") = none := by decide
  rw [hnone] at h
  cases h

/-- Of a container and of a subtree table, the body is scanned. -/
theorem scannedPart_eq {k : CallKind} (inner : List TokenTree) (h : k = .container ∨ k = .subtreeTable) :
    scannedPart k inner = ((bodyOf? (splitArguments inner)).map FunctionLiteral.body).getD [] := by
  rcases h with rfl | rfl
  · rw [scannedPart]
    cases bodyOf? (splitArguments inner) <;> rfl
  · rw [scannedPart]
    cases bodyOf? (splitArguments inner) <;> rfl

theorem width_scannedPart (k : CallKind) (inner : List TokenTree) :
    width (scannedPart k inner) ≤ width inner := by
  unfold scannedPart
  split
  · split
    · exact Nat.le_of_lt (width_bodyOf? (by assumption)).2
    · simp
  · split
    · exact Nat.le_of_lt (width_bodyOf? (by assumption)).2
    · simp
  · simp

namespace Listing

variable {l : Listing}

/-! ## What stands before an index -/

/-- Behind a token stands what follows from it. -/
theorem Holds.stands_token {i : Nat} {t : Token} {rest : List TokenTree} (h : l.Holds i (.token t :: rest)) :
    l.Stands (i + 1) (.afterToken t) := by
  have hslot := h.token.1
  by_cases hname : t.kind = .name
  · have hkind : t.slot.kind = .name := hname
    have hfunc : t.isName "func" = (t.text == "func") := by simp [Token.isName, hname]
    have htext : l.followsFunc (i + 1) = .ok (t.text == "func") := by
      rw [followsFunc, slotAt_eq hslot, Checked.ok_bind, if_pos hkind, h.textAt]
      rfl
    have hdeclares : l.declaresFunction (i + 1) = .ok (t.text == "func") := by
      rw [declaresFunction, slotAt_eq hslot, Checked.ok_bind, hkind]
      simp only [h.textAt, Checked.ok_bind]
      rfl
    rw [Stands, htext, hdeclares, Prior.afterToken, hfunc]
    cases t.text == "func" <;> decide
  · have hclosing : t.slot.kind ≠ .closing .paren := by
      intro hkind
      have hplain : t.slot.kind.isBracket = false := h.fits.1
      rw [hkind] at hplain
      cases hplain
    have hfunc : t.isName "func" = false := by simp [Token.isName, hname]
    have hother : Prior.afterToken t = .other := by simp [Prior.afterToken, hfunc]
    rw [hother]
    exact stands_of_clear (clear_of_slot hslot hname hclosing)

/-- Behind a group stands a receiver, if the group is one. -/
theorem Holds.stands_group {i : Nat} {prior : Prior} {opening closing : Token} {d : Delimiter}
    {inner rest : List TokenTree} (h : l.Holds i (.group opening closing d inner :: rest))
    (hprior : l.Stands i prior) : l.Stands (i + 1 + width inner + 1) (prior.afterGroup d) := by
  have hbracket : closing.kind = .closing d := h.fits.1.2.1
  have hslot := h.group.2.2.1
  by_cases hparen : d = .paren
  · subst hparen
    have hkind : (closing.slot.pairedWith i).kind = .closing .paren := hbracket
    have hfollows : l.followsFunc (i + 1 + width inner + 1) = .ok false := by
      rw [followsFunc, slotAt_eq hslot, Checked.ok_bind, if_neg (by simp [hbracket])]
      rfl
    have hdeclares : l.declaresFunction (i + 1 + width inner + 1) = .ok (decide (prior = .func)) := by
      rw [declaresFunction, slotAt_eq hslot, Checked.ok_bind, hkind, ← hprior.1]
      simp only [partnerOf_eq hslot]
      rfl
    rw [Stands, hfollows, hdeclares, Prior.afterGroup]
    cases prior <;> decide
  · have hother : prior.afterGroup d = .other := if_neg fun hboth => hparen hboth.2
    rw [hother]
    exact stands_of_clear (clear_of_slot hslot (by simp [hbracket]) (by simp [hbracket, hparen]))

/-- A name that is called is not the word `func`, so its parentheses are no receiver. -/
theorem Holds.stands_call {i : Nat} {k : CallKind} {name opening closing : Token}
    {inner rest : List TokenTree}
    (h : l.Holds i (.token name :: .group opening closing .paren inner :: rest))
    (hkind : name.callKind? = some k) : l.Stands (i + 1 + 1 + width inner + 1) .other := by
  have hbehind := h.token.2.stands_group h.stands_token
  rw [afterToken_of_callKind? hkind] at hbehind
  exact hbehind

/-! ## The declaration of a call -/

theorem arityOf_eq {f : Option (Stretch × Stretch)} {inner : List TokenTree} {fuel : Nat}
    (h : Option.Rel l.IsFunction f (bodyOf? (splitArguments inner))) (hfuel : width inner < fuel) :
    l.arityOf fuel f = .ok ((bodyOf? (splitArguments inner)).bind (·.arity)) := by
  cases hbody : bodyOf? (splitArguments inner) with
  | none =>
    rw [hbody] at h
    cases h
    rfl
  | some g =>
    rw [hbody] at h
    cases h with
    | @some f _ hfunction =>
      obtain ⟨hparams, _⟩ := width_bodyOf? hbody
      exact arity_eq hfunction.params (Nat.lt_trans hparams hfuel)

/-- The body of a call is the part that is scanned, if anything of the call is. -/
theorem below_eq {scan : Stretch → Checked Scanned} {f : Option (Stretch × Stretch)} {part : List TokenTree}
    {inner : List TokenTree} (h : Option.Rel l.IsFunction f (bodyOf? (splitArguments inner)))
    (hpart : part = ((bodyOf? (splitArguments inner)).map FunctionLiteral.body).getD [])
    (hscan : ∀ body, l.IsPiece body part → scan body = .ok (scanTrees .other part)) :
    below scan f = .ok (scanTrees .other part) := by
  cases hbody : bodyOf? (splitArguments inner) with
  | none =>
    rw [hbody] at h hpart
    cases h
    rw [hpart]
    simp [below]
  | some g =>
    rw [hbody] at h hpart
    cases h with
    | @some f _ hfunction =>
      rw [hpart] at hscan ⊢
      exact hscan f.2 hfunction.body

/-- What a call declares in the table is what it declares in the trees. -/
theorem declareAt_eq {scan : Stretch → Checked Scanned} {fuel i : Nat} (k : CallKind) {name : Token}
    {inner : List TokenTree} {args : List Stretch} (hname : l.slots[i]? = some name.slot)
    (hargs : List.Forall₂ l.IsPiece args (splitArguments inner)) (hfuel : width inner < fuel)
    (hscan : ∀ body, l.IsPiece body (scannedPart k inner) →
      scan body = .ok (scanTrees .other (scannedPart k inner))) :
    l.declareAt scan fuel k i args =
      .ok (declareCall k name inner (scanTrees .other (scannedPart k inner))) := by
  have hlabel := label_eq hargs
  have hrest := List.forall₂_drop 1 hargs
  obtain ⟨f, hf, hrel⟩ := firstFunction_eq hrest
  have harity := arityOf_eq hrel hfuel
  have hwidths : ∀ p ∈ (splitArguments inner).drop 1, width p < fuel := by
    intro p hp
    exact Nat.lt_of_le_of_lt (width_le_of_mem_splitArguments (List.mem_of_mem_drop hp)) hfuel
  have hentries := entries_eq hrest hwidths
  cases k with
  | container =>
    have hbelow := below_eq hrel (scannedPart_eq inner (.inl rfl)) hscan
    simp only [declareAt, hlabel, hf, hbelow, Checked.ok_bind]
    rfl
  | leaf =>
    simp only [declareAt, hlabel, Checked.ok_bind]
    rfl
  | table =>
    simp only [declareAt, hlabel, hf, harity, hentries, Checked.ok_bind]
    rfl
  | subtreeTable =>
    have hbelow := below_eq hrel (scannedPart_eq inner (.inr rfl)) hscan
    simp only [declareAt, hlabel, hf, harity, hentries, hbelow, Checked.ok_bind]
    rfl
  | entry =>
    simp only [declareAt, slotAt_eq hname, Checked.ok_bind]
    rfl

/-! ## The scan -/

theorem scanFrom_end {fuel i stop : Nat} (h : stop ≤ i) (hfuel : 0 < fuel) :
    l.scanFrom fuel i stop = .ok {} := by
  obtain ⟨fuel, rfl⟩ : ∃ n, fuel = n + 1 := ⟨fuel - 1, by omega⟩
  rw [scanFrom, if_neg (by omega)]

/-- Where there is no call, the scan goes on with the next token. -/
theorem scanFrom_next {fuel i stop : Nat} (hlt : i < stop) (h : l.callAt i stop = .ok none) :
    l.scanFrom (fuel + 1) i stop = l.scanFrom fuel (i + 1) stop := by
  rw [scanFrom, if_pos hlt, h, Checked.ok_bind]

/-- A call is declared, and the scan goes on behind it. -/
theorem scanFrom_call {fuel i stop : Nat} {k : CallKind} {name opening closing : Token}
    {inner rest : List TokenTree} {found : Scanned}
    (h : l.Holds i (.token name :: .group opening closing .paren inner :: rest)) (hlt : i < stop)
    (hcall : l.callAt i stop = .ok (some k)) (hfuel : width inner < fuel)
    (hscan : ∀ body, l.IsPiece body (scannedPart k inner) →
      l.scanFrom fuel body.start body.stop = .ok (scanTrees .other (scannedPart k inner)))
    (hmore : l.scanFrom fuel (i + 1 + 1 + width inner + 1) stop = .ok found) :
    l.scanFrom (fuel + 1) i stop =
      .ok ((declareCall k name inner (scanTrees .other (scannedPart k inner))).append found) := by
  obtain ⟨hslot, hgroup⟩ := h.token
  have hclose : l.partnerOf (i + 1) = .ok (i + 1 + 1 + width inner) := partnerOf_eq hgroup.group.1
  obtain ⟨args, hargs, hpieces⟩ := split_eq hgroup.isPiece hfuel
  have hdeclare := declareAt_eq k hslot hpieces hfuel hscan
  rw [scanFrom, if_pos hlt, hcall, Checked.ok_bind]
  simp only [hclose, hargs, hdeclare, hmore, Checked.ok_bind]
  rfl

/-- The scan of a stretch, from trees that the table holds on, finds what is in the trees and what is found
behind them. -/
theorem scanFrom_eq {prior : Prior} {ts : List TokenTree} {i stop : Nat} {r : Scanned} (h : l.Holds i ts)
    (hstop : i + width ts ≤ stop) (hends : l.EndsBefore (i + width ts) stop) (hprior : l.Stands i prior)
    (hrest : ∀ fuel, stop - (i + width ts) < fuel → l.scanFrom fuel (i + width ts) stop = .ok r)
    {fuel : Nat} (hfuel : stop - i < fuel) :
    l.scanFrom fuel i stop = .ok ((scanTrees prior ts).append r) := by
  -- what comes behind is a parameter, so that the trees within a group can be followed by those behind it
  induction prior, ts using scanTrees_induct generalizing i stop r fuel with
  | nil prior =>
    rw [scanTrees_nil, Scanned.empty_append]
    exact hrest fuel hfuel
  | call prior name opening closing inner rest k hcall ihpart ihrest =>
    obtain ⟨fuel, rfl⟩ : ∃ n, fuel = n + 1 := ⟨fuel - 1, by omega⟩
    have hsome := callAt_eq h hstop hends hprior
    rw [hcall] at hsome
    have hkind : name.callKind? = some k := by
      obtain ⟨_, _, _, _, _, heq, _, hkind⟩ := callAt?_eq_some hcall
      cases heq
      exact hkind
    have hwidth : i + width (.token name :: .group opening closing .paren inner :: rest) =
        i + 1 + 1 + width inner + 1 + width rest := by
      rw [width_token, width_group]
      omega
    rw [hwidth] at hstop hends hrest
    -- the body is a stretch of its own: nothing comes behind it, and less fuel is enough
    have hscan : ∀ body, l.IsPiece body (scannedPart k inner) →
        l.scanFrom fuel body.start body.stop = .ok (scanTrees .other (scannedPart k inner)) := by
      intro body hbody
      have hpart := width_scannedPart k inner
      have hbodyStop := hbody.stop
      have hbodyEnds : l.EndsBefore (body.start + width (scannedPart k inner)) body.stop := by
        intro hlt
        omega
      rw [ihpart hbody.holds (by omega) hbodyEnds (stands_of_clear hbody.clear)
        (fun n hn => scanFrom_end (by omega) (by omega)) (by omega), Scanned.append_empty]
    have hmore := ihrest h.token.2.group.2.2.2 hstop hends (h.stands_call hkind) hrest
      (show stop - (i + 1 + 1 + width inner + 1) < fuel by omega)
    rw [scanFrom_call h (by omega) hsome (by omega) hscan hmore, scanTrees_call hcall, Scanned.append_assoc]
  | token prior t rest hcall ih =>
    obtain ⟨fuel, rfl⟩ : ∃ n, fuel = n + 1 := ⟨fuel - 1, by omega⟩
    have hnone := callAt_eq h hstop hends hprior
    rw [hcall] at hnone
    have hwidth : i + width (.token t :: rest) = i + 1 + width rest := by
      rw [width_token]
      omega
    rw [hwidth] at hstop hends hrest
    rw [scanTrees_token hcall, scanFrom_next (by omega) hnone]
    exact ih h.token.2 hstop hends h.stands_token hrest (by omega)
  | group prior opening closing d inner rest ihinner ihrest =>
    obtain ⟨fuel, rfl⟩ : ∃ n, fuel = n + 1 := ⟨fuel - 1, by omega⟩
    have hnone : l.callAt i stop = .ok none := callAt_eq h hstop hends hprior
    obtain ⟨_, hinner, hclosing, hmore⟩ := h.group
    have hbracket : closing.kind = .closing d := h.fits.1.2.1
    have hwidth : i + width (.group opening closing d inner :: rest) =
        i + 1 + width inner + 1 + width rest := by
      rw [width_group]
      omega
    rw [hwidth] at hstop hends hrest
    have hinnerEnds : l.EndsBefore (i + 1 + width inner) stop := fun _ => ⟨_, hclosing, by simp [hbracket]⟩
    -- the closing bracket is no call, and the scan goes on behind it
    have hbehind : ∀ n, stop - (i + 1 + width inner) < n →
        l.scanFrom n (i + 1 + width inner) stop = .ok ((scanTrees (prior.afterGroup d) rest).append r) := by
      intro n hn
      obtain ⟨n, rfl⟩ : ∃ m, n = m + 1 := ⟨n - 1, by omega⟩
      rw [scanFrom_next (by omega) (callAt_of_kind hclosing (by simp [hbracket]))]
      exact ihrest hmore hstop hends (h.stands_group hprior) hrest (by omega)
    rw [scanTrees_group, Scanned.append_assoc, scanFrom_next (by omega) hnone]
    exact ihinner hinner (by omega) hinnerEnds (stands_of_clear h.isPiece.clear) hbehind (by omega)

end Listing

/-- The table of a source whose brackets are balanced holds its trees. -/
theorem holds_of_group {source : String} {ts : List Token} {trees : List TokenTree}
    (htokens : tokens source = .ok ts) (hgroup : group ts = .ok trees) :
    Listing.Holds ⟨source.toList, slotsAll 0 trees⟩ 0 trees := by
  obtain ⟨hfits, hall⟩ := (group_eq_ok_iff ts trees).mp hgroup
  refine ⟨⟨[], by simp⟩, ?_, hfits⟩
  rw [hall]
  exact runIn_of_tokens htokens

/-- The scan over the table gives what the scan over the trees gives. -/
theorem checkedScan_eq (source : String) {fuel : Nat} (hfuel : source.length < fuel) :
    checkedScan fuel source = .ok (scan source) := by
  rw [checkedScan, scan, scanNamed]
  cases htokens : tokens source with
  | error e => rfl
  | ok ts =>
    simp only [pairFrom_group, Checked.ok_bind]
    cases hgroup : group ts with
    | error e => simp [hgroup, Except.map, bind, Except.bind, pure, Except.pure]
    | ok trees =>
      have hlength : (slotsAll 0 trees).length = ts.length := by
        rw [length_slotsAll, ((group_eq_ok_iff ts trees).mp hgroup).2]
      have hwidth : 0 + width trees = (slotsAll 0 trees).length := by
        rw [length_slotsAll, Nat.zero_add]
        rfl
      have hle := length_tokens_le htokens
      have hends : Listing.EndsBefore ⟨source.toList, slotsAll 0 trees⟩ (0 + width trees)
          (slotsAll 0 trees).length := by
        intro hlt
        omega
      have hfound := Listing.scanFrom_eq (holds_of_group htokens hgroup) (Nat.le_of_eq hwidth) hends
        (Listing.stands_of_clear ⟨rfl, rfl⟩)
        (fun n hn => Listing.scanFrom_end (Nat.le_of_eq hwidth.symm) (Nat.zero_lt_of_lt hn))
        (show (slotsAll 0 trees).length - 0 < fuel by omega)
      rw [Scanned.append_empty] at hfound
      simp only [Except.map, hfound, Checked.ok_bind]
      simp only [hgroup, hlength, bind, Except.bind, pure, Except.pure]

/-- Every source text is scanned to its end, or refused for its structure. Nothing gets stuck on the way,
neither in the table of its tokens nor in the codes of its escapes. -/
theorem checkedScan_total (source : String) (extra : Nat) :
    checkedScan (source.length + 1 + extra) source = .ok (scan source) ∧
    ((∃ found, scan source = .ok found) ∨
      ∃ context reason, scan source = .error (.structural context reason)) ∧
    ∀ quote cs, wordEscape quote cs = .ok (readEscape quote cs) := by
  refine ⟨checkedScan_eq source (by omega), ?_, wordEscape_eq⟩
  rw [scan, scanNamed]
  split
  · exact .inr ⟨_, _, rfl⟩
  · exact .inl ⟨_, rfl⟩

end SpecForest.Source

import SpecForest.Proofs.Source.Cuts

/-!
# Tokens of a part of a source

A reader looks behind the end of a token only to see whether the token goes on. So a text that is cut behind a token is
read up to there as it was before, and so is a text that goes on with a blank there.
-/

namespace SpecForest.Source

/-! ## A text that is cut -/

theorem takeWhile_cut {p : Char → Bool} {cs more : List Char} (h : ((cs ++ more).takeWhile p).length ≤ cs.length) :
    (cs ++ more).takeWhile p = cs.takeWhile p := by
  rw [List.takeWhile_append] at h ⊢
  by_cases hall : (cs.takeWhile p).length = cs.length
  · rw [if_pos hall, List.length_append] at h
    have hnone : more.takeWhile p = [] := List.eq_nil_of_length_eq_zero (by omega)
    rw [if_pos hall, hnone, List.append_nil]
    exact ((List.takeWhile_prefix p).eq_of_length hall).symm
  · rw [if_neg hall]

theorem numberTail_cut {hex float : Bool} {before : Char} {cs more : List Char}
    (h : (numberTail hex float before (cs ++ more)).2 ≤ cs.length) :
    numberTail hex float before (cs ++ more) = numberTail hex float before cs := by
  induction cs generalizing float before with
  | nil =>
    cases more with
    | nil => rfl
    | cons c more =>
      simp only [List.nil_append, numberTail] at h ⊢
      by_cases hplain : (c.isAlphanum || c == '_' || c == '.') = true
      · simp [hplain] at h
      · by_cases hsign : (isExponentMark hex before && (c == '+' || c == '-')) = true
        · simp [hplain, hsign] at h
        · simp only [hplain, hsign]
          rfl
  | cons c cs ih =>
    simp only [List.cons_append, numberTail, List.length_cons] at h ⊢
    by_cases hplain : (c.isAlphanum || c == '_' || c == '.') = true
    · simp only [hplain, if_true] at h ⊢
      rw [ih (Nat.le_of_succ_le_succ h)]
    · by_cases hsign : (isExponentMark hex before && (c == '+' || c == '-')) = true
      · simp only [hplain, Bool.false_eq_true, if_false, hsign, if_true] at h ⊢
        rw [ih (Nat.le_of_succ_le_succ h)]
      · simp only [hplain, hsign]
        rfl

/-- What goes on with a number behind its first character is in it. -/
theorem not_isAlphanum_of_readNumber {first c : Char} {rest : List Char} (h : (readNumber first (c :: rest)).2 ≤ 0) :
    c.isAlphanum = false := by
  cases hc : c.isAlphanum with
  | false => rfl
  | true => simp [readNumber, numberTail, hc] at h

/-- A number has the letter that makes it hexadecimal in it. -/
theorem startsHex_cut {first : Char} {cs more : List Char} (h : (readNumber first (cs ++ more)).2 ≤ cs.length) :
    startsHex first (cs ++ more) = startsHex first cs := by
  cases cs with
  | cons c cs => rfl
  | nil =>
    cases more with
    | nil => rfl
    | cons c more =>
      have hplain := not_isAlphanum_of_readNumber h
      have hx : c ≠ 'x' ∧ c ≠ 'X' := by
        constructor <;> rintro rfl <;> cases hplain
      simp [startsHex, hx]

theorem readNumber_cut {first : Char} {cs more : List Char} (h : (readNumber first (cs ++ more)).2 ≤ cs.length) :
    readNumber first (cs ++ more) = readNumber first cs := by
  have hhex := startsHex_cut h
  simp only [readNumber] at h ⊢
  rw [numberTail_cut h, hhex]

/-- The dots of an ellipsis are in it. -/
theorem twoDots_cut {cs more : List Char} {kind : TokenKind} {n : Nat}
    (h : readToken '.' (cs ++ more) = .ok (kind, n)) (hn : n ≤ cs.length) :
    (cs.take 2 == ['.', '.']) = ((cs ++ more).take 2 == ['.', '.']) := by
  by_cases hlength : 2 ≤ cs.length
  · rw [List.take_append_of_le_length hlength]
  · have hshort : (cs.take 2 == ['.', '.']) = false := by
      refine beq_eq_false_iff_ne.mpr fun htake => hlength ?_
      have htwo := congrArg List.length htake
      simp only [List.length_take, List.length_cons, List.length_nil] at htwo
      omega
    cases hdots : (cs ++ more).take 2 == ['.', '.'] with
    | false => exact hshort
    | true =>
      simp only [readToken, hdots, Bool.and_true, beq_self_eq_true, if_true] at h
      cases h
      exact absurd hn hlength

/-- The digit that makes a dot the beginning of a number is in the number. -/
theorem any_head?_cut {cs more : List Char} {kind : TokenKind} {n : Nat}
    (h : readToken '.' (cs ++ more) = .ok (kind, n)) (hn : n ≤ cs.length) :
    cs.head?.any Char.isDigit = (cs ++ more).head?.any Char.isDigit := by
  cases cs with
  | cons d cs => rfl
  | nil =>
    cases more with
    | nil => rfl
    | cons d more =>
      cases hdigit : d.isDigit with
      | false => simp [hdigit]
      | true =>
        have hnumber : readNumber '.' (d :: more) = (kind, n) := by
          have hdot : d ≠ '.' := beq_eq_false_iff_ne.mp (beq_dot_of_isDigit hdigit)
          simpa [readToken, hdot, hdigit] using h
        have hnone : (readNumber '.' (d :: more)).2 ≤ 0 := by
          rw [hnumber]
          exact hn
        have hplain := not_isAlphanum_of_readNumber hnone
        rw [Char.isAlphanum, hdigit, Bool.or_true] at hplain
        cases hplain

/-- A token that ends within the first part of a text is one of that part. -/
theorem readToken_cut {c : Char} {cs more : List Char} {kind : TokenKind} {n : Nat}
    (h : readToken c (cs ++ more) = .ok (kind, n)) (hn : n ≤ cs.length) : readToken c cs = .ok (kind, n) := by
  have same : ReadAlike c kind n (cs ++ more) cs :=
    { string := fun ds hread => readString_of_append hread hn
      rawString := fun ds hread => readRawString_of_append hread hn
      rune := fun d hread => readRune_of_append hread hn
      dots := by
        rintro rfl
        exact twoDots_cut h hn
      digit := by
        rintro rfl
        exact any_head?_cut h hn
      number := fun hread => by rw [← readNumber_cut (by rw [hread]; exact hn), hread]
      name := fun hread => by
        subst hread
        rw [← takeWhile_cut hn] }
  exact same.readToken h

theorem gapLength_cut {gap text more : List Char} {c : Char}
    (h : gapLength (gap ++ c :: (text ++ more)) = .ok gap.length) : gapLength (gap ++ c :: text) = .ok gap.length := by
  obtain ⟨hgap, hnext⟩ := gapLength_eq_length_iff.mp h
  refine gapLength_eq_length_iff.mpr ⟨hgap.of_head rfl, ?_⟩
  rw [gapLength_cons_eq_zero_iff] at hnext ⊢
  cases text with
  | nil => exact ⟨hnext.1, by simp⟩
  | cons d text => exact hnext

/-- The tokens at the start of a text are those of the text that is cut behind them. -/
theorem tokensFrom_cut {p : Position} {ts us : List Token} {next : List Char}
    (h : tokensFrom p (written ts ++ next) = .ok (ts ++ us)) : tokensFrom p (written ts) = .ok ts := by
  induction ts generalizing p with
  | nil =>
    rw [written, tokensFrom, gapLength]
    rfl
  | cons t ts ih =>
    rw [written, List.append_assoc, List.append_assoc] at h
    obtain ⟨c, text, ht, hgap, hread, hrest⟩ := tokensFrom_written_cons h
    have htext : t.text.toList = c :: text := by rw [ht, String.toList_ofList]
    rw [← List.append_assoc] at hgap hread
    have hread' := readToken_cut hread (by rw [List.length_append]; omega)
    rw [written, htext, List.append_assoc, List.cons_append, tokensFrom_step p (gapLength_cut hgap) hread', ih hrest,
      String.ofList_toList, ← ht]
    rfl

/-! ## A blank behind a token -/

theorem gapLength_append_blank {w : Char} (hw : Text.isBlank w = true) {gap text : List Char} {c : Char}
    (h : gapLength (gap ++ c :: text) = .ok gap.length) (next : List Char) :
    gapLength (gap ++ c :: (text ++ w :: next)) = .ok gap.length := by
  obtain ⟨hgap, hnext⟩ := gapLength_eq_length_iff.mp h
  refine gapLength_eq_length_iff.mpr ⟨hgap.of_head rfl, ?_⟩
  rw [gapLength_cons_eq_zero_iff] at hnext ⊢
  cases text with
  | nil =>
    obtain ⟨-, -, hmarks⟩ := ends_of_isBlank hw
    simp only [List.mem_cons, not_or] at hmarks
    exact ⟨hnext.1, by simp [hmarks]⟩
  | cons d text => exact hnext

/-- The tokens of a text are read again if a blank and more text are put behind the last of them. -/
theorem tokensFrom_append_blank {w : Char} (hw : Text.isBlank w = true) {p : Position} {ts : List Token}
    (h : tokensFrom p (written ts) = .ok ts) (next : List Char) :
    tokensFrom p (written ts ++ w :: next) =
      (tokensFrom (p.advance (written ts)) (w :: next)).map (ts ++ ·) := by
  induction ts generalizing p with
  | nil =>
    rw [written, List.nil_append, Position.advance_nil]
    cases tokensFrom p (w :: next) <;> rfl
  | cons t ts ih =>
    rw [written, List.append_assoc] at h
    obtain ⟨c, text, ht, hgap, hread, hrest⟩ := tokensFrom_written_cons h
    have htext : t.text.toList = c :: text := by rw [ht, String.toList_ofList]
    have hgap' := gapLength_append_blank hw hgap next
    have hread' := (readToken_append_blank hw hread next).2
    rw [List.append_assoc] at hgap' hread'
    rw [written, List.append_assoc, List.append_assoc, htext, List.cons_append, tokensFrom_step p hgap' hread',
      ih hrest, String.ofList_toList, ← ht, Position.advance_append, Position.advance_append]
    exact map_map_append _ [t] ts

end SpecForest.Source

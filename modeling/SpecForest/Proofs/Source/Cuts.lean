import SpecForest.Proofs.Source.Extension

/-!
# Text in front of a character

What is read in front of a character does not depend on what comes behind that character. A reader looks at
most two characters ahead: at a second dot, and at the second character of a comment. So if the character is
neither a dot nor a slash, all that ends before it is read from the characters before it and from itself.

A line break at the end of a text belongs to no token and to no comment, so it can be taken away.
-/

namespace SpecForest.Source

/-! ## Strings and runes -/

theorem readDigits?_of_append {base count acc code : Nat} {cs more : List Char}
    (h : readDigits? base count acc (cs ++ more) = some code) (hcount : count ≤ cs.length) :
    readDigits? base count acc cs = some code := by
  induction count generalizing acc cs with
  | zero => exact h
  | succ count ih =>
    cases cs with
    | nil => exact absurd hcount (Nat.not_succ_le_zero _)
    | cons c cs =>
      rw [List.cons_append, readDigits?] at h
      rw [readDigits?]
      obtain ⟨d, hd, hrest⟩ := Option.bind_eq_some_iff.mp h
      rw [hd, Option.bind_some]
      exact ih hrest (Nat.le_of_succ_le_succ hcount)

theorem readEscape_pos {quote d : Char} {cs : List Char} {n : Nat} (h : readEscape quote cs = .ok (d, n)) :
    0 < n := by
  unfold readEscape at h
  repeat' split at h
  all_goals cases h
  · exact Nat.one_pos
  · omega

/-- An escape that ends within a text is read from that text. -/
theorem readEscape_of_append {quote d : Char} {cs more : List Char} {n : Nat}
    (h : readEscape quote (cs ++ more) = .ok (d, n)) (hn : n ≤ cs.length) :
    readEscape quote cs = .ok (d, n) := by
  cases cs with
  | nil => exact absurd hn (Nat.not_le_of_gt (readEscape_pos h))
  | cons c rest =>
    rw [List.cons_append, readEscape] at h
    rw [readEscape]
    cases hsimple : simpleEscape? quote c with
    | some e => simpa only [hsimple] using h
    | none =>
      simp only [hsimple] at h ⊢
      cases hcode : codeEscape? c with
      | none =>
        rw [hcode] at h
        cases h
      | some e =>
        simp only [hcode] at h ⊢
        cases hdigits : readDigits? e.base e.count e.first (rest ++ more) with
        | none =>
          rw [hdigits] at h
          cases h
        | some code =>
          simp only [hdigits] at h
          cases hchar : charOfCode? code with
          | none =>
            rw [hchar] at h
            cases h
          | some e' =>
            rw [hchar] at h
            cases h
            rw [List.length_cons] at hn
            simp only [readDigits?_of_append hdigits (by omega), hchar]

/-- A string goes up to its closing quote. -/
theorem readString_take {cs ds : List Char} {n : Nat} (h : readString cs = .ok (ds, n)) :
    ∃ body, cs.take n = body ++ ['"'] := by
  fun_induction readString cs generalizing ds n with
  | case1 => cases h
  | case2 rest =>
    cases h
    exact ⟨[], rfl⟩
  | case3 rest fault hescape _ => cases h
  | case4 rest d m hescape hquote ih =>
    obtain ⟨⟨es, k⟩, hrest, heq⟩ := eq_ok_of_map h
    cases heq
    obtain ⟨body, hbody⟩ := ih hrest
    refine ⟨'\\' :: rest.take m ++ body, ?_⟩
    rw [Nat.add_assoc, Nat.add_comm 1, List.take_succ_cons, List.take_add, hbody]
    simp
  | case5 rest => cases h
  | case6 c rest hquote hbackslash hnewline ih =>
    obtain ⟨⟨es, k⟩, hrest, heq⟩ := eq_ok_of_map h
    cases heq
    obtain ⟨body, hbody⟩ := ih hrest
    exact ⟨c :: body, by rw [Nat.add_comm 1, List.take_succ_cons, hbody]; rfl⟩

theorem readString_of_append {cs more ds : List Char} {n : Nat} (h : readString (cs ++ more) = .ok (ds, n))
    (hn : n ≤ cs.length) : readString cs = .ok (ds, n) := by
  fun_induction readString cs generalizing ds n with
  | case1 =>
    obtain ⟨body, hbody⟩ := readString_take h
    obtain rfl : n = 0 := Nat.le_zero.mp hn
    simp at hbody
  | case2 rest =>
    rw [List.cons_append, readString, if_pos rfl] at h
    exact h
  | case3 rest fault hescape hquote =>
    rw [List.cons_append, readString, if_neg hquote, if_pos rfl] at h
    cases hmore : readEscape '"' (rest ++ more) with
    | error fault' =>
      rw [hmore] at h
      cases h
    | ok r =>
      obtain ⟨d, m⟩ := r
      simp only [hmore] at h
      obtain ⟨⟨es, k⟩, -, heq⟩ := eq_ok_of_map h
      cases heq
      rw [List.length_cons] at hn
      rw [readEscape_of_append hmore (by omega)] at hescape
      cases hescape
  | case4 rest d m hescape hquote ih =>
    obtain ⟨hm, hmore⟩ := readEscape_append hescape more
    rw [List.cons_append, readString, if_neg hquote, if_pos rfl] at h
    simp only [hmore, List.drop_append_of_le_length hm] at h
    obtain ⟨⟨es, k⟩, hrest, heq⟩ := eq_ok_of_map h
    cases heq
    rw [List.length_cons] at hn
    rw [ih hrest (by rw [List.length_drop]; omega)]
    rfl
  | case5 rest =>
    rw [List.cons_append, readString, if_neg (by decide), if_neg (by decide), if_pos rfl] at h
    cases h
  | case6 c rest hquote hbackslash hnewline ih =>
    rw [List.cons_append, readString, if_neg hquote, if_neg hbackslash, if_neg hnewline] at h
    obtain ⟨⟨es, k⟩, hrest, heq⟩ := eq_ok_of_map h
    cases heq
    rw [List.length_cons] at hn
    rw [ih hrest (by omega)]
    rfl

theorem readRawString_eq_ok {cs ds : List Char} {n : Nat} (h : readRawString cs = .ok (ds, n)) :
    (cs.takeWhile (· != '\x60')).length < cs.length ∧ n = (cs.takeWhile (· != '\x60')).length + 1 := by
  unfold readRawString at h
  by_cases hlength : (cs.takeWhile (· != '\x60')).length < cs.length
  · simp only [hlength, if_true] at h
    cases h
    exact ⟨hlength, rfl⟩
  · simp [hlength] at h

/-- A stretch of characters that ends within the first part of a text is one of that part. -/
theorem takeWhile_of_append {p : Char → Bool} {cs more : List Char}
    (h : ((cs ++ more).takeWhile p).length < cs.length) : (cs.takeWhile p).length < cs.length := by
  have hle : (cs.takeWhile p).length ≤ cs.length := (List.takeWhile_prefix p).length_le
  have hne : (cs.takeWhile p).length ≠ cs.length := by
    intro heq
    rw [List.takeWhile_append, if_pos heq, List.length_append] at h
    omega
  omega

theorem readRawString_of_append {cs more ds : List Char} {n : Nat}
    (h : readRawString (cs ++ more) = .ok (ds, n)) (hn : n ≤ cs.length) : readRawString cs = .ok (ds, n) := by
  obtain ⟨-, rfl⟩ := readRawString_eq_ok h
  have hlength := takeWhile_of_append hn
  have hsame := takeWhile_append_of_lt hlength more
  unfold readRawString at h ⊢
  rw [hsame, if_pos (by rw [List.length_append]; omega)] at h
  rw [if_pos hlength, h, hsame]

theorem closeRune_eq_ok {c d : Char} {taken n : Nat} {cs : List Char} (h : closeRune c taken cs = .ok (d, n)) :
    n = taken + 1 ∧ ∃ rest, cs = '\'' :: rest := by
  unfold closeRune at h
  split at h
  · cases h
    exact ⟨rfl, _, rfl⟩
  · cases h

theorem closeRune_of_append {c d : Char} {taken n : Nat} {cs more : List Char}
    (h : closeRune c taken (cs ++ more) = .ok (d, n)) (hn : n ≤ taken + cs.length) :
    closeRune c taken cs = .ok (d, n) := by
  obtain ⟨rfl, rest, hrest⟩ := closeRune_eq_ok h
  cases cs with
  | nil => exact absurd hn (Nat.not_succ_le_self taken)
  | cons q cs =>
    cases hrest
    exact h

/-- A rune goes up to its closing quote. -/
theorem readRune_take {cs : List Char} {d : Char} {n : Nat} (h : readRune cs = .ok (d, n)) :
    ∃ body, cs.take n = body ++ ['\''] := by
  -- the quote stands behind the characters that were taken before it
  have hclose : ∀ {e : Char} {taken : Nat}, taken ≤ cs.length →
      closeRune e taken (cs.drop taken) = .ok (d, n) → ∃ body, cs.take n = body ++ ['\''] := by
    intro e taken htaken hclosed
    obtain ⟨rfl, rest, hrest⟩ := closeRune_eq_ok hclosed
    exact ⟨cs.take taken, by rw [List.take_add, hrest]; rfl⟩
  cases cs with
  | nil => cases h
  | cons c rest =>
    rw [readRune] at h
    by_cases hbackslash : c = '\\'
    · rw [if_pos hbackslash] at h
      cases hescape : readEscape '\'' rest with
      | error fault =>
        rw [hescape] at h
        cases h
      | ok r =>
        obtain ⟨e, m⟩ := r
        simp only [hescape] at h
        rw [Nat.add_comm] at h
        exact hclose (Nat.succ_le_succ (readEscape_append hescape []).1) h
    · rw [if_neg hbackslash] at h
      by_cases hempty : c = '\'' ∨ c = '\n'
      · rw [if_pos hempty] at h
        cases h
      · rw [if_neg hempty] at h
        exact hclose (Nat.succ_le_succ (Nat.zero_le _)) h

theorem readRune_of_append {cs more : List Char} {d : Char} {n : Nat}
    (h : readRune (cs ++ more) = .ok (d, n)) (hn : n ≤ cs.length) : readRune cs = .ok (d, n) := by
  cases cs with
  | nil =>
    obtain ⟨body, hbody⟩ := readRune_take h
    obtain rfl : n = 0 := Nat.le_zero.mp hn
    simp at hbody
  | cons c rest =>
    rw [List.cons_append, readRune] at h
    rw [readRune]
    rw [List.length_cons] at hn
    by_cases hbackslash : c = '\\'
    · rw [if_pos hbackslash] at h ⊢
      cases hescape : readEscape '\'' (rest ++ more) with
      | error fault =>
        rw [hescape] at h
        cases h
      | ok r =>
        obtain ⟨e, m⟩ := r
        simp only [hescape] at h
        have hm : m ≤ rest.length := by
          have := (closeRune_eq_ok h).1
          omega
        rw [List.drop_append_of_le_length hm] at h
        simp only [readEscape_of_append hescape hm]
        exact closeRune_of_append h (by rw [List.length_drop]; omega)
    · rw [if_neg hbackslash] at h ⊢
      by_cases hempty : c = '\'' ∨ c = '\n'
      · rw [if_pos hempty] at h
        cases h
      · rw [if_neg hempty] at h ⊢
        exact closeRune_of_append h (by omega)

/-! ## Names and numbers -/

/-- A stretch of characters that ends in front of a character ends there whatever comes behind. -/
theorem takeWhile_before {p : Char → Bool} {s : Char} {front x : List Char}
    (h : ((front ++ s :: x).takeWhile p).length ≤ front.length) (y : List Char) :
    (front ++ s :: y).takeWhile p = front.takeWhile p := by
  rw [List.takeWhile_append] at h ⊢
  by_cases hall : (front.takeWhile p).length = front.length
  · rw [if_pos hall, List.length_append] at h
    have hs : ¬ p s = true := by
      intro hs
      rw [List.takeWhile_cons_of_pos hs, List.length_cons] at h
      omega
    rw [if_pos hall, List.takeWhile_cons_of_neg hs, List.append_nil]
    exact ((List.takeWhile_prefix p).eq_of_length hall).symm
  · rw [if_neg hall]

theorem numberTail_before {hex float : Bool} {before s : Char} {front x : List Char}
    (h : (numberTail hex float before (front ++ s :: x)).2 ≤ front.length) (y : List Char) :
    numberTail hex float before (front ++ s :: y) = numberTail hex float before (front ++ s :: x) := by
  induction front generalizing float before with
  | nil =>
    simp only [List.nil_append, numberTail] at h ⊢
    by_cases hplain : (s.isAlphanum || s == '_' || s == '.') = true
    · simp [hplain] at h
    · by_cases hsign : (isExponentMark hex before && (s == '+' || s == '-')) = true
      · simp [hplain, hsign] at h
      · simp only [hplain, hsign]
        rfl
  | cons c front ih =>
    simp only [List.cons_append, numberTail, List.length_cons] at h ⊢
    by_cases hplain : (c.isAlphanum || c == '_' || c == '.') = true
    · simp only [hplain, if_true] at h ⊢
      rw [ih (Nat.le_of_succ_le_succ h)]
    · by_cases hsign : (isExponentMark hex before && (c == '+' || c == '-')) = true
      · simp only [hplain, Bool.false_eq_true, if_false, hsign, if_true] at h ⊢
        rw [ih (Nat.le_of_succ_le_succ h)]
      · simp only [hplain, hsign]
        rfl

theorem readNumber_before {first s : Char} {front x : List Char}
    (h : (readNumber first (front ++ s :: x)).2 ≤ front.length) (y : List Char) :
    readNumber first (front ++ s :: y) = readNumber first (front ++ s :: x) := by
  have hhex : startsHex first (front ++ s :: y) = startsHex first (front ++ s :: x) := by
    cases front <;> rfl
  rw [readNumber] at h
  rw [readNumber, readNumber, hhex, numberTail_before h]

/-! ## Tokens -/

/-- What stands behind a character that is no dot is no part of an ellipsis. -/
theorem twoDots_before {s : Char} (hs : s ≠ '.') (front x y : List Char) :
    ((front ++ s :: y).take 2 == ['.', '.']) = ((front ++ s :: x).take 2 == ['.', '.']) := by
  have hdot : (s == '.') = false := by simpa using hs
  match front with
  | [] => simp [hdot]
  | [d] => rfl
  | d :: e :: rest => rfl

theorem readToken_before {c s : Char} {front x : List Char} {kind : TokenKind} {n : Nat} (hs : s ≠ '.')
    (h : readToken c (front ++ s :: x) = .ok (kind, n)) (hn : n ≤ front.length) (y : List Char) :
    readToken c (front ++ s :: y) = .ok (kind, n) := by
  have hhead : (front ++ s :: y).head? = (front ++ s :: x).head? := by cases front <;> rfl
  have same : ReadAlike c kind n (front ++ s :: x) (front ++ s :: y) :=
    { string := fun ds hread => (readString_append (readString_of_append hread hn) (s :: y)).2
      rawString := fun ds hread => (readRawString_append_of_ok (readRawString_of_append hread hn) (s :: y)).2
      rune := fun d hread => (readRune_append (readRune_of_append hread hn) (s :: y)).2
      dots := fun _ => twoDots_before hs front x y
      digit := fun _ => by rw [hhead]
      number := fun hread => by rw [readNumber_before (by rw [hread]; exact hn), hread]
      name := fun hread => by
        subst hread
        rw [takeWhile_before hn, takeWhile_before hn] }
  exact same.readToken h

/-! ## Gaps -/

theorem blockCommentLength?_of_append {cs more : List Char} {n : Nat}
    (h : blockCommentLength? (cs ++ more) = some n) (hn : n ≤ cs.length) :
    blockCommentLength? cs = some n := by
  cases hcs : blockCommentLength? cs with
  | some m =>
    rw [(blockCommentLength?_append hcs more).2] at h
    exact h
  | none =>
    obtain ⟨text, rest, hsplit, hlength, hends⟩ := blockCommentLength?_eq_some h
    have hprefix : text <+: cs :=
      List.prefix_of_prefix_length_le ⟨rest, hsplit.symm⟩ (List.prefix_append cs more) (by omega)
    exact absurd hprefix (unterminated_of_blockCommentLength? hcs text hends)

/-- Only a slash can begin a comment. -/
theorem gapLength_of_ne {c : Char} (h : c ≠ '/') (rest : List Char) :
    gapLength (c :: rest) = if Text.isBlank c then shiftBy 1 (gapLength rest) else .ok 0 := by
  rw [gapLength]
  · rintro _ rfl
    exact absurd rfl h
  · rintro _ rfl
    exact absurd rfl h

theorem blockCommentLength?_comment {body : List Char} (h : ¬ ['*', '/'] <:+: body) (next : List Char) :
    blockCommentLength? (body ++ '*' :: '/' :: next) = some (body.length + 2) := by
  induction body with
  | nil => rfl
  | cons c body ih =>
    rw [List.infix_cons_iff, not_or] at h
    rw [List.cons_append, blockCommentLength?, ih h.2]
    · rfl
    · rintro after rfl hafter
      cases body with
      | nil => cases hafter
      | cons d body =>
        cases hafter
        exact h.1 ⟨body, rfl⟩

/-- A gap is read whole, and then what comes behind it. -/
theorem IsGap.gapLength_append {gap next : List Char} (h : IsGap gap next) :
    gapLength (gap ++ next) = shiftBy gap.length (gapLength next) := by
  induction h with
  | nil next =>
    rw [List.nil_append, List.length_nil]
    cases gapLength next <;> simp [shiftBy]
  | @blank c gap next hblank _ ih =>
    have hslash : c ≠ '/' := by
      rintro rfl
      exact absurd hblank (by decide)
    rw [List.cons_append, gapLength_of_ne hslash, if_pos hblank, ih, shiftBy_shiftBy, List.length_cons, Nat.add_comm]
  | @line body gap next one_line ends _ ih =>
    have hline : ((body ++ gap) ++ next).takeWhile (· != '\n') = body := by
      rw [List.append_assoc]
      refine takeWhile_append_of_head ?_ ?_
      · intro c hc
        exact bne_iff_ne.mpr (ne_of_mem_of_not_mem hc one_line)
      · intro c hc
        rw [ends c hc]
        rfl
    rw [List.cons_append, List.cons_append, gapLength, hline]
    simp only [List.append_assoc, List.drop_left, ih, shiftBy_shiftBy, List.length_cons, List.length_append]
    congr 1
    omega
  | @block text gap next complete _ ih =>
    cases complete with
    | @comment body first =>
      have hcomment := blockCommentLength?_comment first (gap ++ next)
      rw [List.cons_append, List.cons_append, gapLength]
      simp only [List.append_assoc, List.cons_append, List.nil_append, hcomment]
      have hdrop : (body ++ '*' :: '/' :: (gap ++ next)).drop (body.length + 2) = gap ++ next := by
        rw [List.drop_length_add_append]
        rfl
      rw [hdrop, ih, shiftBy_shiftBy]
      congr 1
      simp only [List.length_cons, List.length_append]
      omega

/-- Of what comes behind a gap, the first character alone can tell where the gap ends. -/
theorem IsGap.of_head {gap next : List Char} (h : IsGap gap next) {next' : List Char}
    (hhead : next'.head? = next.head?) : IsGap gap next' := by
  induction h with
  | nil next => exact .nil next'
  | blank hblank _ ih => exact .blank hblank (ih hhead)
  | @line body gap next one_line ends _ ih =>
    refine .line one_line ?_ (ih hhead)
    intro c hc
    rw [List.head?_append, hhead, ← List.head?_append] at hc
    exact ends c hc
  | block complete _ ih => exact .block complete (ih hhead)

/-- Blanks and comments are the whole gap, if none follow. -/
theorem gapLength_eq_length_iff {gap next : List Char} :
    gapLength (gap ++ next) = .ok gap.length ↔ IsGap gap next ∧ gapLength next = .ok 0 := by
  constructor
  · intro h
    have hgap := isGap_of_gapLength h
    rw [List.take_left, List.drop_left] at hgap
    refine ⟨hgap, ?_⟩
    rw [hgap.gapLength_append] at h
    obtain ⟨m, hm, hlength⟩ := shiftBy_eq_ok h
    rw [hm, show m = 0 by omega]
  · rintro ⟨hgap, hnext⟩
    rw [hgap.gapLength_append, hnext]
    rfl

/-- No gap begins at a character that is no blank, unless it is a slash that begins a comment. -/
theorem gapLength_cons_eq_zero_iff {c : Char} {rest : List Char} :
    gapLength (c :: rest) = .ok 0 ↔
      Text.isBlank c = false ∧ (c = '/' → rest.head? ≠ some '/' ∧ rest.head? ≠ some '*') := by
  have hshift : ∀ {k : Nat} {r : Except Nat Nat}, 0 < k → shiftBy k r ≠ .ok 0 := by
    intro k r hk h
    obtain ⟨m, -, hm⟩ := shiftBy_eq_ok h
    omega
  by_cases hc : c = '/'
  · subst hc
    have hblank : Text.isBlank '/' = false := by decide
    match rest with
    | [] => simp [gapLength, hblank]
    | d :: rest =>
      by_cases hline : d = '/'
      · subst hline
        rw [gapLength]
        simp [hshift]
      · by_cases hblock : d = '*'
        · subst hblock
          rw [gapLength]
          cases blockCommentLength? rest <;> simp [hshift]
        · rw [gapLength, if_neg (by simp [hblank])]
          · simp [hblank, hline, hblock]
          · rintro after - hafter
            exact hline (List.cons.inj hafter).1
          · rintro after - hafter
            exact hblock (List.cons.inj hafter).1
  · rw [gapLength_of_ne hc]
    cases hblank : Text.isBlank c <;> simp [hc, hshift]

/-- A gap that ends in front of a character ends there whatever comes behind. -/
theorem gapLength_before {s : Char} {front x : List Char} {n : Nat} (hslash : s ≠ '/')
    (h : gapLength (front ++ s :: x) = .ok n) (hn : n ≤ front.length) (y : List Char) :
    gapLength (front ++ s :: y) = .ok n := by
  obtain ⟨gap, rest, rfl, rfl⟩ : ∃ gap rest, front = gap ++ rest ∧ n = gap.length :=
    ⟨front.take n, front.drop n, (List.take_append_drop n front).symm, (List.length_take_of_le hn).symm⟩
  rw [List.append_assoc, gapLength_eq_length_iff] at h ⊢
  obtain ⟨hgap, hnext⟩ := h
  have hhead : ∀ cs : List Char, (cs ++ s :: y).head? = (cs ++ s :: x).head? := by
    intro cs
    cases cs <;> rfl
  refine ⟨hgap.of_head (hhead rest), ?_⟩
  cases rest with
  | nil =>
    rw [List.nil_append, gapLength_cons_eq_zero_iff] at hnext ⊢
    exact ⟨hnext.1, fun hs => absurd hs hslash⟩
  | cons c rest =>
    rw [List.cons_append, gapLength_cons_eq_zero_iff, hhead rest]
    exact gapLength_cons_eq_zero_iff.mp hnext

/-! ## Tokens one behind the other -/

/-- How the first token of a text was read, if the text begins with it. -/
theorem tokensFrom_written_cons {p : Position} {t : Token} {us : List Token} {next : List Char}
    (h : tokensFrom p (t.gap.toList ++ (t.text.toList ++ next)) = .ok (t :: us)) :
    ∃ c text, t = ⟨t.gap, String.ofList (c :: text), t.kind, p.advance t.gap.toList⟩ ∧
      gapLength (t.gap.toList ++ c :: (text ++ next)) = .ok t.gap.toList.length ∧
      readToken c (text ++ next) = .ok (t.kind, text.length) ∧
      tokensFrom ((p.advance t.gap.toList).advance (c :: text)) next = .ok us := by
  generalize hcs : t.gap.toList ++ (t.text.toList ++ next) = cs at h
  cases hgap : gapLength cs with
  | error n =>
    rw [tokensFrom, hgap] at h
    cases h
  | ok n =>
    rw [tokensFrom_eq_readBehind p hgap] at h
    cases hdrop : cs.drop n with
    | nil =>
      rw [hdrop] at h
      cases h
    | cons c rest =>
      rw [hdrop, readBehind] at h
      cases hread : readToken c rest with
      | error fault =>
        rw [hread] at h
        cases h
      | ok r =>
        obtain ⟨kind, more⟩ := r
        simp only [hread] at h
        obtain ⟨vs, hvs, heq⟩ := eq_ok_of_map h
        cases heq
        have hn := (gapLength_append_newline hgap []).1
        have hmore := length_of_readToken hread
        -- the text was cut where the token ends
        obtain rfl : rest.drop more = next := by
          have hcut : cs.take n ++ (c :: rest.take more ++ next) =
              cs.take n ++ (c :: rest.take more ++ rest.drop more) := by
            rw [String.toList_ofList, String.toList_ofList] at hcs
            rw [hcs, List.cons_append, List.take_append_drop, ← hdrop, List.take_append_drop]
          exact (List.append_cancel_left (List.append_cancel_left hcut)).symm
        refine ⟨c, rest.take more, ?_, ?_, ?_, ?_⟩
        · rw [String.toList_ofList]
        · rw [String.toList_ofList, List.length_take_of_le hn, List.take_append_drop, ← hdrop,
            List.take_append_drop, hgap]
        · rw [List.take_append_drop, List.length_take_of_le hmore, hread]
        · rw [String.toList_ofList]
          exact hvs

/-- The tokens behind some tokens are those of the text behind them. -/
theorem tokensFrom_written {p : Position} {ts us : List Token} {next : List Char}
    (h : tokensFrom p (written ts ++ next) = .ok (ts ++ us)) :
    tokensFrom (p.advance (written ts)) next = .ok us := by
  induction ts generalizing p with
  | nil => exact h
  | cons t ts ih =>
    rw [written, List.append_assoc, List.append_assoc] at h
    obtain ⟨c, text, ht, -, -, hrest⟩ := tokensFrom_written_cons h
    have htext : t.text.toList = c :: text := by rw [ht, String.toList_ofList]
    rw [written, Position.advance_append, Position.advance_append, htext]
    exact ih hrest

/-- The tokens in front of a character are read whatever comes behind it. -/
theorem tokensFrom_before {p : Position} {ts us : List Token} {s : Char} {front x : List Char}
    (hdot : s ≠ '.') (hslash : s ≠ '/')
    (h : tokensFrom p (written ts ++ (front ++ s :: x)) = .ok (ts ++ us)) (y : List Char) :
    tokensFrom p (written ts ++ (front ++ s :: y)) =
      (tokensFrom (p.advance (written ts)) (front ++ s :: y)).map (ts ++ ·) := by
  induction ts generalizing p with
  | nil =>
    rw [written, List.nil_append, Position.advance_nil]
    cases tokensFrom p (front ++ s :: y) <;> rfl
  | cons t ts ih =>
    rw [written, List.append_assoc, List.append_assoc] at h ⊢
    obtain ⟨c, text, ht, hgap, hread, hrest⟩ := tokensFrom_written_cons h
    have htext : t.text.toList = c :: text := by rw [ht, String.toList_ofList]
    -- up to the character, the text is what it was
    have hgap' : gapLength (t.gap.toList ++ c :: (text ++ (written ts ++ (front ++ s :: y)))) =
        .ok t.gap.toList.length := by
      have hcut : ∀ z, t.gap.toList ++ c :: (text ++ (written ts ++ (front ++ s :: z))) =
          (t.gap.toList ++ c :: (text ++ (written ts ++ front))) ++ s :: z := by simp
      rw [hcut] at hgap ⊢
      exact gapLength_before hslash hgap (by simp) y
    have hread' : readToken c (text ++ (written ts ++ (front ++ s :: y))) = .ok (t.kind, text.length) := by
      have hcut : ∀ z, text ++ (written ts ++ (front ++ s :: z)) =
          (text ++ (written ts ++ front)) ++ s :: z := by simp
      rw [hcut] at hread ⊢
      exact readToken_before hdot hread (by simp) y
    rw [htext, List.cons_append, tokensFrom_step p hgap' hread', ih hrest, String.ofList_toList, ← ht,
      Position.advance_append, Position.advance_append]
    exact map_map_append _ [t] ts

/-- The character that a comma or a closing bracket is. -/
def TokenKind.mark? : TokenKind → Option Char
  | .comma => some ','
  | .closing d => some d.closer
  | _ => none

theorem readNumber_mark? (c : Char) (rest : List Char) : (readNumber c rest).1.mark? = none := by
  rw [readNumber]
  simp only
  split
  · rfl
  · rfl

theorem readToken_mark {c m : Char} {rest : List Char} {kind : TokenKind} {n : Nat}
    (h : readToken c rest = .ok (kind, n)) (hmark : kind.mark? = some m) : c = m ∧ n = 0 := by
  unfold readToken at h
  split at h
  case h_8 =>
    obtain ⟨⟨ds, k⟩, -, heq⟩ := eq_ok_of_map h
    cases heq
    cases hmark
  case h_9 =>
    obtain ⟨⟨ds, k⟩, -, heq⟩ := eq_ok_of_map h
    cases heq
    cases hmark
  case h_10 =>
    obtain ⟨⟨d, k⟩, -, heq⟩ := eq_ok_of_map h
    cases heq
    cases hmark
  case h_11 =>
    have hnumber : Except.ok (readNumber c rest) ≠ (.ok (kind, n) : Except Fault (TokenKind × Nat)) := by
      intro hread
      have hnone := readNumber_mark? c rest
      rw [Except.ok.inj hread, hmark] at hnone
      cases hnone
    repeat' split at h
    all_goals first
      | exact absurd h hnumber
      | (cases h; cases hmark)
  all_goals
    cases h
    cases hmark
    try exact ⟨rfl, rfl⟩

theorem Token.Genuine.text_of_mark {t : Token} {m : Char} (h : t.Genuine) (hmark : t.kind.mark? = some m) :
    t.text.toList = [m] := by
  obtain ⟨c, rest, n, hread, htext⟩ := h
  obtain ⟨rfl, rfl⟩ := readToken_mark hread hmark
  exact htext

/-- What is read in front of a comma does not depend on what comes behind it, and what comes behind it is read
as if it stood alone. -/
theorem tokensFrom_comma {p : Position} {ts us : List Token} {comma : Token} {x : List Char}
    (hcomma : comma.kind = .comma) (htext : comma.text.toList = [','])
    (h : tokensFrom p (written ts ++ (comma.gap.toList ++ ',' :: x)) = .ok (ts ++ comma :: us))
    (y : List Char) :
    tokensFrom p (written ts ++ (comma.gap.toList ++ ',' :: y)) =
      (tokensFrom (p.advance (written ts ++ comma.gap.toList ++ [','])) y).map ((ts ++ [comma]) ++ ·) := by
  have hrest : tokensFrom (p.advance (written ts)) (comma.gap.toList ++ (comma.text.toList ++ x)) =
      .ok (comma :: us) := by
    rw [htext]
    exact tokensFrom_written h
  obtain ⟨c, text, ht, hgap, -, -⟩ := tokensFrom_written_cons hrest
  obtain ⟨rfl, rfl⟩ : c = ',' ∧ text = [] := by
    rw [ht, String.toList_ofList] at htext
    exact List.cons.inj htext
  have hgap' : gapLength (comma.gap.toList ++ ',' :: ([] ++ y)) = .ok comma.gap.toList.length :=
    gapLength_before (by decide) hgap (Nat.le_refl _) y
  have hread : readToken ',' ([] ++ y) = .ok (comma.kind, ([] : List Char).length) := by
    rw [hcomma]
    rfl
  have hstep := tokensFrom_step (p.advance (written ts)) hgap' hread
  rw [String.ofList_toList, ← ht] at hstep
  rw [tokensFrom_before (by decide) (by decide) h y]
  rw [List.nil_append] at hstep
  rw [hstep, Position.advance_append, Position.advance_append]
  exact map_map_append _ ts [comma]

/-! ## A line break at the end -/

theorem length_of_take_newline {cs body : List Char} {q : Char} {n : Nat} (hq : q ≠ '\n')
    (h : (cs ++ ['\n']).take n = body ++ [q]) : n ≤ cs.length := by
  refine Nat.le_of_not_lt fun hn => ?_
  rw [List.take_of_length_le (by rw [List.length_append, List.length_singleton]; omega)] at h
  have hlast := congrArg List.getLast? h
  rw [List.getLast?_concat, List.getLast?_concat] at hlast
  exact hq (Option.some.inj hlast).symm

/-- A line break at the end of a text is not what closes a string or a rune. -/
theorem readToken_of_newline {c : Char} {cs : List Char} {r : TokenKind × Nat}
    (h : readToken c (cs ++ ['\n']) = .ok r) : ∃ r', readToken c cs = .ok r' := by
  unfold readToken at h
  split at h
  case h_8 =>
    obtain ⟨⟨ds, n⟩, hread, -⟩ := eq_ok_of_map h
    obtain ⟨body, hbody⟩ := readString_take hread
    have hshort := readString_of_append hread (length_of_take_newline (by decide) hbody)
    exact ⟨_, by rw [readToken, hshort]; rfl⟩
  case h_9 =>
    obtain ⟨⟨ds, n⟩, hread, -⟩ := eq_ok_of_map h
    have hlength := (readRawString_eq_ok hread).1
    have hne : (cs.takeWhile (· != '\x60')).length ≠ cs.length := by
      intro hall
      rw [List.takeWhile_append, if_pos hall] at hlength
      simp at hlength
    have hshort : (cs.takeWhile (· != '\x60')).length < cs.length :=
      Nat.lt_of_le_of_ne (List.takeWhile_prefix _).length_le hne
    exact ⟨_, by rw [readToken, readRawString, if_pos hshort]; rfl⟩
  case h_10 =>
    obtain ⟨⟨d, n⟩, hread, -⟩ := eq_ok_of_map h
    obtain ⟨body, hbody⟩ := readRune_take hread
    have hshort := readRune_of_append hread (length_of_take_newline (by decide) hbody)
    exact ⟨_, by rw [readToken, hshort]; rfl⟩
  case h_11 =>
    rw [readToken]
    · repeat' split
      all_goals exact ⟨_, rfl⟩
    all_goals assumption
  all_goals exact ⟨_, rfl⟩

theorem blockCommentLength?_newline {cs : List Char} (h : blockCommentLength? cs = none) :
    blockCommentLength? (cs ++ ['\n']) = none := by
  cases hmore : blockCommentLength? (cs ++ ['\n']) with
  | none => rfl
  | some n =>
    obtain ⟨text, rest, hsplit, hlength, hends⟩ := blockCommentLength?_eq_some hmore
    obtain ⟨body, rfl⟩ : ∃ body, text = body ++ ['/'] := by
      cases hends with
      | @comment body first => exact ⟨body ++ ['*'], by simp⟩
    have htake : (cs ++ ['\n']).take n = body ++ ['/'] := by rw [hsplit, ← hlength, List.take_left]
    rw [blockCommentLength?_of_append hmore (length_of_take_newline (by decide) htake)] at h
    cases h

/-- A line break does not end a block comment. -/
theorem gapLength_error_newline {cs : List Char} {n : Nat} (h : gapLength cs = .error n) :
    gapLength (cs ++ ['\n']) = .error n := by
  have hshift : ∀ {k m : Nat} {r : Except Nat Nat}, shiftBy k r = .error m → ∃ m', r = .error m' ∧ k + m' = m := by
    intro k m r hr
    cases r with
    | error m' => exact ⟨m', rfl, Except.error.inj hr⟩
    | ok m' => cases hr
  fun_induction gapLength cs generalizing n with
  | case1 => cases h
  | case2 rest k =>
    rename_i ih
    obtain ⟨m, hm, rfl⟩ := hshift h
    have hk : k ≤ rest.length := (List.takeWhile_prefix _).length_le
    have hline := takeWhile_append_stop (p := (· != '\n')) (w := '\n') (by decide) rest []
    rw [List.cons_append, List.cons_append, gapLength, hline, List.drop_append_of_le_length hk, ih hm]
    rfl
  | case3 rest hnone =>
    rw [List.cons_append, List.cons_append, gapLength, blockCommentLength?_newline hnone]
    exact h
  | case4 rest k hsome ih =>
    obtain ⟨m, hm, rfl⟩ := hshift h
    obtain ⟨hk, hmore⟩ := blockCommentLength?_append hsome ['\n']
    rw [List.cons_append, List.cons_append, gapLength, hmore]
    simp only [List.drop_append_of_le_length hk, ih hm]
    rfl
  | case5 c rest hline hblock hblank ih =>
    obtain ⟨m, hm, rfl⟩ := hshift h
    have hc : c ≠ '/' := by
      rintro rfl
      exact absurd hblank (by decide)
    rw [List.cons_append, gapLength_of_ne hc, if_pos hblank, ih hm]
    rfl
  | case6 => cases h

/-- A line break behind a text leaves the first gap as it is, if a token comes behind the gap. -/
theorem tokensFrom_newline (p : Position) {cs rest : List Char} {c : Char} {n : Nat}
    (hgap : gapLength cs = .ok n) (hdrop : cs.drop n = c :: rest) :
    tokensFrom p (cs ++ ['\n']) = readBehind p (cs.take n) (c :: (rest ++ ['\n'])) := by
  have hlt : n < cs.length := by
    have hlength := congrArg List.length hdrop
    rw [List.length_drop, List.length_cons] at hlength
    omega
  obtain ⟨hle, hgap'⟩ := gapLength_append_newline hgap []
  rw [if_pos hlt] at hgap'
  rw [tokensFrom_eq_readBehind p hgap', List.take_append_of_le_length hle,
    List.drop_append_of_le_length hle, hdrop, List.cons_append]

/-- What cannot be read is not made readable by a line break. -/
theorem tokensFrom_error_newline {p : Position} {cs : List Char} {e : LexError}
    (h : tokensFrom p cs = .error e) : ∃ e', tokensFrom p (cs ++ ['\n']) = .error e' := by
  fun_induction tokensFrom p cs with
  | case1 p cs n hgap => exact ⟨_, by rw [tokensFrom, gapLength_error_newline hgap]⟩
  | case2 p cs n hgap hdrop => cases h
  | case3 p cs n hgap gap start c rest hdrop _ fault =>
    rename_i hread
    rw [tokensFrom_newline p hgap hdrop, readBehind]
    cases hmore : readToken c (rest ++ ['\n']) with
    | error fault' => exact ⟨_, rfl⟩
    | ok r =>
      obtain ⟨r', hr⟩ := readToken_of_newline hmore
      rw [hread] at hr
      cases hr
  | case4 p cs n hgap gap start c rest hdrop _ kind more hread text token =>
    rename_i ih
    obtain ⟨e', he⟩ := ih (eq_error_of_map h)
    obtain ⟨hmore, hread'⟩ := readToken_append_blank (w := '\n') (by decide) hread []
    refine ⟨e', ?_⟩
    rw [tokensFrom_newline p hgap hdrop]
    simp only [readBehind, hread', List.take_append_of_le_length hmore, List.drop_append_of_le_length hmore]
    rw [he]
    rfl

/-- The line break at the end of a text can be taken away. -/
theorem tokensFrom_of_newline {p : Position} {cs : List Char} {us : List Token}
    (h : tokensFrom p (cs ++ ['\n']) = .ok us) : tokensFrom p cs = .ok us := by
  cases hcs : tokensFrom p cs with
  | error e =>
    obtain ⟨e', he⟩ := tokensFrom_error_newline hcs
    rw [h] at he
    cases he
  | ok ts =>
    obtain ⟨gap, hread⟩ := tokensFrom_append_newline hcs []
    have hend : tokensFrom (p.advance (cs ++ ['\n'])) [] = .ok [] := by
      rw [tokensFrom, gapLength]
      rfl
    rw [h, hend] at hread
    simpa [Except.map, widen, eq_comm] using hread

/-- A text that ends in a line break can be followed by more text. Its last gap goes on in that text. -/
theorem tokensFrom_append_line {p : Position} {cs : List Char} {us : List Token}
    (h : tokensFrom p cs = .ok us) (hend : cs.getLast? = some '\n') (next : List Char) :
    ∃ gap, tokensFrom p (cs ++ next) = (tokensFrom (p.advance cs) next).map (us ++ widen gap ·) := by
  obtain ⟨front, rfl⟩ := List.getLast?_eq_some_iff.mp hend
  obtain ⟨gap, hread⟩ := tokensFrom_append_newline (tokensFrom_of_newline h) next
  refine ⟨gap, ?_⟩
  rw [List.append_assoc, List.singleton_append, hread]

end SpecForest.Source

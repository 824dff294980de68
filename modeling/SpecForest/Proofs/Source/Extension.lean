import SpecForest.Proofs.Source.Layout

/-!
# Text behind a line break

What is read from a text does not change when a line break and more text are put behind it. A string or a
rune is closed by its own quote, a name or a number is ended by any blank, and a comment that goes up to
the end of the text goes up to the line break instead. So the tokens of a text are the first tokens of the
longer text, and what is read behind them is read as if it stood alone, with a larger gap in front of it.
-/

namespace SpecForest.Source

/-! ## Strings and runes -/

theorem length_of_readDigits? {base count acc code : Nat} {cs : List Char}
    (h : readDigits? base count acc cs = some code) : count ≤ cs.length := by
  induction count generalizing acc cs with
  | zero => exact Nat.zero_le _
  | succ count ih =>
    cases cs with
    | nil => cases h
    | cons c cs =>
      rw [readDigits?] at h
      obtain ⟨d, -, hrest⟩ := Option.bind_eq_some_iff.mp h
      exact Nat.succ_le_succ (ih hrest)

/-- An escape is complete in itself. -/
theorem readEscape_append {quote d : Char} {cs : List Char} {n : Nat} (h : readEscape quote cs = .ok (d, n))
    (more : List Char) : n ≤ cs.length ∧ readEscape quote (cs ++ more) = .ok (d, n) := by
  cases cs with
  | nil => cases h
  | cons c rest =>
    rw [List.cons_append, readEscape]
    rw [readEscape] at h
    cases hsimple : simpleEscape? quote c with
    | some e =>
      rw [hsimple] at h
      cases h
      exact ⟨Nat.succ_le_succ (Nat.zero_le _), rfl⟩
    | none =>
      simp only [hsimple] at h ⊢
      cases hcode : codeEscape? c with
      | none =>
        rw [hcode] at h
        cases h
      | some e =>
        simp only [hcode] at h ⊢
        cases hdigits : readDigits? e.base e.count e.first rest with
        | none =>
          rw [hdigits] at h
          cases h
        | some code =>
          simp only [hdigits] at h
          simp only [readDigits?_append hdigits more]
          cases hchar : charOfCode? code with
          | none =>
            rw [hchar] at h
            cases h
          | some e' =>
            rw [hchar] at h
            cases h
            have hlength := length_of_readDigits? hdigits
            refine ⟨?_, rfl⟩
            rw [List.length_cons]
            omega

theorem eq_ok_of_map {α β ε : Type} {r : Except ε α} {f : α → β} {b : β} (h : r.map f = .ok b) :
    ∃ a, r = .ok a ∧ f a = b := by
  cases r with
  | error e => cases h
  | ok a => exact ⟨a, rfl, Except.ok.inj h⟩

theorem readString_append {cs ds : List Char} {n : Nat} (h : readString cs = .ok (ds, n))
    (more : List Char) : n ≤ cs.length ∧ readString (cs ++ more) = .ok (ds, n) := by
  fun_induction readString cs generalizing ds n with
  | case1 => cases h
  | case2 rest =>
    cases h
    refine ⟨Nat.succ_le_succ (Nat.zero_le _), ?_⟩
    rw [List.cons_append, readString]
    rfl
  | case3 rest fault hescape _ => cases h
  | case4 rest d m hescape hquote ih =>
    obtain ⟨⟨es, k⟩, hrest, heq⟩ := eq_ok_of_map h
    cases heq
    obtain ⟨hm, hread⟩ := readEscape_append hescape more
    obtain ⟨hk, hstring⟩ := ih hrest
    rw [List.length_drop] at hk
    refine ⟨by rw [List.length_cons]; omega, ?_⟩
    rw [List.cons_append, readString, if_neg hquote, if_pos rfl]
    simp only [hread, List.drop_append_of_le_length hm, hstring, Except.map]
  | case5 rest => cases h
  | case6 c rest hquote hbackslash hnewline ih =>
    obtain ⟨⟨es, k⟩, hrest, heq⟩ := eq_ok_of_map h
    cases heq
    obtain ⟨hk, hstring⟩ := ih hrest
    refine ⟨by rw [List.length_cons]; omega, ?_⟩
    rw [List.cons_append, readString, if_neg hquote, if_neg hbackslash, if_neg hnewline, hstring]
    rfl

/-- A stretch of characters that ends within a text ends there whatever is put behind the text. -/
theorem takeWhile_append_of_lt {p : Char → Bool} {cs : List Char} (h : (cs.takeWhile p).length < cs.length)
    (more : List Char) : (cs ++ more).takeWhile p = cs.takeWhile p := by
  rw [List.takeWhile_append, if_neg (Nat.ne_of_lt h)]

theorem readRawString_append_of_ok {cs ds : List Char} {n : Nat} (h : readRawString cs = .ok (ds, n))
    (more : List Char) : n ≤ cs.length ∧ readRawString (cs ++ more) = .ok (ds, n) := by
  unfold readRawString at h ⊢
  by_cases hlength : (cs.takeWhile (· != '\x60')).length < cs.length
  · simp only [hlength, if_true] at h
    cases h
    refine ⟨hlength, ?_⟩
    rw [takeWhile_append_of_lt hlength, if_pos]
    rw [List.length_append]
    omega
  · simp [hlength] at h

theorem closeRune_append {c d : Char} {taken n : Nat} {cs : List Char} (h : closeRune c taken cs = .ok (d, n))
    (more : List Char) : n ≤ taken + cs.length ∧ closeRune c taken (cs ++ more) = .ok (d, n) := by
  unfold closeRune at h
  split at h
  · cases h
    exact ⟨by rw [List.length_cons]; omega, rfl⟩
  · cases h

theorem readRune_append {cs : List Char} {d : Char} {n : Nat} (h : readRune cs = .ok (d, n))
    (more : List Char) : n ≤ cs.length ∧ readRune (cs ++ more) = .ok (d, n) := by
  cases cs with
  | nil => cases h
  | cons c rest =>
    rw [readRune] at h
    rw [List.cons_append, readRune, List.length_cons]
    by_cases hbackslash : c = '\\'
    · rw [if_pos hbackslash] at h ⊢
      cases hescape : readEscape '\'' rest with
      | error fault =>
        rw [hescape] at h
        cases h
      | ok r =>
        obtain ⟨e, m⟩ := r
        simp only [hescape] at h
        obtain ⟨hm, hread⟩ := readEscape_append hescape more
        obtain ⟨hn, hclose⟩ := closeRune_append h more
        rw [List.length_drop] at hn
        simp only [hread, List.drop_append_of_le_length hm]
        exact ⟨by omega, hclose⟩
    · rw [if_neg hbackslash] at h ⊢
      by_cases hempty : c = '\'' ∨ c = '\n'
      · rw [if_pos hempty] at h
        cases h
      · rw [if_neg hempty] at h ⊢
        obtain ⟨hn, hclose⟩ := closeRune_append h more
        exact ⟨by omega, hclose⟩

/-! ## Names and numbers -/

/-- A property of every blank can be tested blank by blank. -/
theorem of_isBlank {P : Char → Prop} [DecidablePred P]
    (h : Text.blankRanges.all (fun r => (List.range' r.1 (r.2 + 1 - r.1)).all fun n => P (Char.ofNat n)) = true)
    {w : Char} (hw : Text.isBlank w = true) : P w := by
  simp only [Text.isBlank, Text.inRanges, List.any_eq_true, Bool.and_eq_true, decide_eq_true_eq] at hw
  obtain ⟨r, hr, hlow, hhigh⟩ := hw
  have hmem : w.toNat ∈ List.range' r.1 (r.2 + 1 - r.1) := List.mem_range'_1.mpr ⟨hlow, by omega⟩
  have hthis := of_decide_eq_true (List.all_eq_true.mp (List.all_eq_true.mp h r hr) _ hmem)
  rwa [Char.ofNat_toNat] at hthis

/-- A blank goes on with no name and with no number, and is in no mark of a comment. -/
theorem ends_of_isBlank {w : Char} (hw : Text.isBlank w = true) :
    continuesName w = false ∧ w.isAlphanum = false ∧ w ∉ ['_', '.', '+', '-', '/', '*'] :=
  of_isBlank (P := fun w => continuesName w = false ∧ w.isAlphanum = false ∧ w ∉ ['_', '.', '+', '-', '/', '*'])
    (by decide +kernel) hw

/-- A character ends what it does not belong to. -/
theorem takeWhile_append_stop {p : Char → Bool} {w : Char} (hp : p w = false) (cs next : List Char) :
    (cs ++ w :: next).takeWhile p = cs.takeWhile p := by
  by_cases h : (cs.takeWhile p).length = cs.length
  · have hall : cs.takeWhile p = cs := (List.takeWhile_prefix p).eq_of_length h
    rw [List.takeWhile_append, if_pos h, hall, List.takeWhile_cons_of_neg (by simp [hp]), List.append_nil]
  · rw [List.takeWhile_append, if_neg h]

/-- A property of the next character is the same behind a text, if the character there does not have it. -/
theorem any_head?_append_stop {p : Char → Bool} {w : Char} (hp : p w = false) (cs next : List Char) :
    (cs ++ w :: next).head?.any p = cs.head?.any p := by
  cases cs with
  | nil => simp [hp]
  | cons c cs => rfl

section

variable {w : Char} (hw : Text.isBlank w = true)

include hw

/-- A blank does not go on with a number, not even behind the mark of an exponent. -/
theorem numberTail_append_blank (hex float : Bool) (before : Char) (cs next : List Char) :
    (numberTail hex float before cs).2 ≤ cs.length ∧
      numberTail hex float before (cs ++ w :: next) = numberTail hex float before cs := by
  induction cs generalizing float before with
  | nil =>
    obtain ⟨-, halnum, hmarks⟩ := ends_of_isBlank hw
    simp only [List.mem_cons, not_or] at hmarks
    refine ⟨Nat.le_refl 0, ?_⟩
    simp [numberTail, halnum, hmarks]
  | cons c cs ih =>
    rw [List.cons_append, numberTail, numberTail, List.length_cons]
    by_cases hplain : (c.isAlphanum || c == '_' || c == '.') = true
    · obtain ⟨hlength, htail⟩ := ih (float || c == '.' || isExponentMark hex before || isExponentMark hex c) c
      simp only [hplain, if_true, htail, and_true]
      exact Nat.succ_le_succ hlength
    · by_cases hsign : (isExponentMark hex before && (c == '+' || c == '-')) = true
      · obtain ⟨hlength, htail⟩ := ih true c
        simp only [hplain, hsign, if_true, htail]
        exact ⟨Nat.succ_le_succ hlength, rfl⟩
      · simp only [hplain, hsign]
        exact ⟨Nat.zero_le _, rfl⟩

theorem readNumber_append_blank (first : Char) (cs next : List Char) :
    (readNumber first cs).2 ≤ cs.length ∧ readNumber first (cs ++ w :: next) = readNumber first cs := by
  have hhex : startsHex first (cs ++ w :: next) = startsHex first cs := by
    cases cs with
    | nil =>
      have halnum := (ends_of_isBlank hw).2.1
      have hx : w ≠ 'x' ∧ w ≠ 'X' := by
        constructor <;> rintro rfl <;> cases halnum
      simp [startsHex, hx]
    | cons c cs => rfl
  obtain ⟨hlength, htail⟩ := numberTail_append_blank hw (startsHex first cs) (first == '.') first cs next
  rw [readNumber, readNumber, hhex, htail]
  exact ⟨hlength, rfl⟩

end

/-! ## Tokens -/

/-- Behind the first character of a token, the readers find the same in two texts, as far as the token goes. -/
structure ReadAlike (c : Char) (kind : TokenKind) (n : Nat) (cs cs' : List Char) : Prop where
  string : ∀ ds, readString cs = .ok (ds, n) → readString cs' = .ok (ds, n)
  rawString : ∀ ds, readRawString cs = .ok (ds, n) → readRawString cs' = .ok (ds, n)
  rune : ∀ d, readRune cs = .ok (d, n) → readRune cs' = .ok (d, n)
  /-- What stands behind a dot is looked at for two more, and for a digit. -/
  dots : c = '.' → (cs'.take 2 == ['.', '.']) = (cs.take 2 == ['.', '.'])
  digit : c = '.' → cs'.head?.any Char.isDigit = cs.head?.any Char.isDigit
  number : readNumber c cs = (kind, n) → readNumber c cs' = (kind, n)
  name : (cs.takeWhile continuesName).length = n → (cs'.takeWhile continuesName).length = n

theorem ReadAlike.readToken {c : Char} {kind : TokenKind} {n : Nat} {cs cs' : List Char}
    (same : ReadAlike c kind n cs cs') (h : readToken c cs = .ok (kind, n)) : readToken c cs' = .ok (kind, n) := by
  unfold Source.readToken at h
  split at h
  case h_8 =>
    obtain ⟨⟨ds, m⟩, hread, heq⟩ := eq_ok_of_map h
    cases heq
    rw [Source.readToken, same.string ds hread]
    rfl
  case h_9 =>
    obtain ⟨⟨ds, m⟩, hread, heq⟩ := eq_ok_of_map h
    cases heq
    rw [Source.readToken, same.rawString ds hread]
    rfl
  case h_10 =>
    obtain ⟨⟨d, m⟩, hread, heq⟩ := eq_ok_of_map h
    cases heq
    rw [Source.readToken, same.rune d hread]
    rfl
  case h_11 =>
    have hdots : (c == '.' && cs'.take 2 == ['.', '.']) = (c == '.' && cs.take 2 == ['.', '.']) := by
      by_cases hc : c = '.'
      · rw [same.dots hc]
      · rw [beq_eq_false_iff_ne.mpr hc, Bool.false_and, Bool.false_and]
    have hdigit : (c == '.' && cs'.head?.any Char.isDigit) = (c == '.' && cs.head?.any Char.isDigit) := by
      by_cases hc : c = '.'
      · rw [same.digit hc]
      · rw [beq_eq_false_iff_ne.mpr hc, Bool.false_and, Bool.false_and]
    rw [Source.readToken]
    · rw [hdots, hdigit]
      split at h
      · rename_i hellipsis
        rw [if_pos hellipsis, h]
      · rename_i hellipsis
        rw [if_neg hellipsis]
        split at h
        · rename_i hdotted
          rw [if_pos hdotted, same.number (Except.ok.inj h)]
        · rename_i hdotted
          rw [if_neg hdotted]
          split at h
          · rename_i hnumber
            rw [if_pos hnumber, same.number (Except.ok.inj h)]
          · rename_i hnumber
            rw [if_neg hnumber]
            split at h
            · rename_i hname
              cases h
              rw [if_pos hname, same.name rfl]
            · rename_i hname
              rw [if_neg hname, h]
    all_goals assumption
  all_goals
    cases h
    rfl

/-- A token ends within the text that it is read from. -/
theorem length_of_readToken {c : Char} {cs : List Char} {kind : TokenKind} {n : Nat}
    (h : readToken c cs = .ok (kind, n)) : n ≤ cs.length := by
  unfold readToken at h
  split at h
  case h_8 =>
    obtain ⟨⟨ds, m⟩, hread, heq⟩ := eq_ok_of_map h
    cases heq
    exact (readString_append hread []).1
  case h_9 =>
    obtain ⟨⟨ds, m⟩, hread, heq⟩ := eq_ok_of_map h
    cases heq
    exact (readRawString_append_of_ok hread []).1
  case h_10 =>
    obtain ⟨⟨d, m⟩, hread, heq⟩ := eq_ok_of_map h
    cases heq
    exact (readRune_append hread []).1
  case h_11 =>
    have hnumber := (readNumber_append_blank (w := '\n') (by decide) c cs []).1
    split at h
    · rename_i hellipsis
      have htake := congrArg List.length (eq_of_beq (Bool.and_eq_true_iff.mp hellipsis).2)
      cases h
      simp only [List.length_take, List.length_cons, List.length_nil] at htake
      omega
    · split at h
      · rw [Except.ok.inj h] at hnumber
        exact hnumber
      · split at h
        · rw [Except.ok.inj h] at hnumber
          exact hnumber
        · split at h
          · cases h
            exact (List.takeWhile_prefix _).length_le
          · cases h
            exact Nat.zero_le _
  all_goals
    cases h
    exact Nat.zero_le _

section

variable {w : Char} (hw : Text.isBlank w = true)

include hw

theorem twoDots_append_blank (cs next : List Char) :
    ((cs ++ w :: next).take 2 == ['.', '.']) = (cs.take 2 == ['.', '.']) := by
  have hdot : w ≠ '.' := by
    rintro rfl
    exact absurd hw (by decide)
  match cs with
  | [] => simp [hdot]
  | [d] => simp [hdot]
  | d :: e :: rest => rfl

/-- A token is complete in front of a blank. -/
theorem readToken_append_blank {c : Char} {cs : List Char} {kind : TokenKind} {n : Nat}
    (h : readToken c cs = .ok (kind, n)) (next : List Char) :
    n ≤ cs.length ∧ readToken c (cs ++ w :: next) = .ok (kind, n) := by
  obtain ⟨hnameless, halnum, -⟩ := ends_of_isBlank hw
  have hdigitless : w.isDigit = false := (Bool.or_eq_false_iff.mp halnum).2
  have same : ReadAlike c kind n cs (cs ++ w :: next) :=
    { string := fun ds hread => (readString_append hread (w :: next)).2
      rawString := fun ds hread => (readRawString_append_of_ok hread (w :: next)).2
      rune := fun d hread => (readRune_append hread (w :: next)).2
      dots := fun _ => twoDots_append_blank hw cs next
      digit := fun _ => any_head?_append_stop hdigitless cs next
      number := fun hread => by rw [(readNumber_append_blank hw c cs next).2, hread]
      name := fun hread => by rw [takeWhile_append_stop hnameless, hread] }
  exact ⟨length_of_readToken h, same.readToken h⟩

end

/-! ## Gaps -/

theorem blockCommentLength?_append {cs : List Char} {n : Nat} (h : blockCommentLength? cs = some n)
    (more : List Char) : n ≤ cs.length ∧ blockCommentLength? (cs ++ more) = some n := by
  fun_induction blockCommentLength? cs generalizing n with
  | case1 => cases h
  | case2 rest =>
    cases h
    refine ⟨by simp, ?_⟩
    rw [List.cons_append, List.cons_append, blockCommentLength?]
  | case3 c rest hend ih =>
    obtain ⟨m, hm, rfl⟩ := Option.map_eq_some_iff.mp h
    obtain ⟨hlength, hmore⟩ := ih hm
    refine ⟨Nat.succ_le_succ hlength, ?_⟩
    rw [List.cons_append, blockCommentLength?, hmore]
    · rfl
    · rintro after rfl hafter
      cases rest with
      | nil => cases hm
      | cons d rest =>
        cases hafter
        exact hend rest rfl rfl

theorem shiftBy_eq_ok {k n : Nat} {r : Except Nat Nat} (h : shiftBy k r = .ok n) :
    ∃ m, r = .ok m ∧ n = k + m := by
  cases r with
  | error m => cases h
  | ok m =>
    cases h
    exact ⟨m, rfl, rfl⟩

theorem shiftBy_shiftBy (k m : Nat) (r : Except Nat Nat) : shiftBy k (shiftBy m r) = shiftBy (k + m) r := by
  cases r <;> simp [shiftBy, Nat.add_assoc]

/-- A gap within a text is the same with more text. A gap that goes up to the end goes on behind the line
break. -/
theorem gapLength_append_newline {cs : List Char} {n : Nat} (h : gapLength cs = .ok n) (next : List Char) :
    n ≤ cs.length ∧ gapLength (cs ++ '\n' :: next) =
      if n < cs.length then .ok n else shiftBy (n + 1) (gapLength next) := by
  -- behind a comment or a blank, the same holds of what is left of the text
  have shift : ∀ {k m l : Nat} {r : Except Nat Nat},
      (m ≤ l ∧ r = if m < l then .ok m else shiftBy (m + 1) (gapLength next)) →
      k + m ≤ k + l ∧
        shiftBy k r = if k + m < k + l then .ok (k + m) else shiftBy (k + m + 1) (gapLength next) := by
    rintro k m l r ⟨hle, rfl⟩
    refine ⟨by omega, ?_⟩
    by_cases hlt : m < l
    · rw [if_pos hlt, if_pos (by omega)]
      rfl
    · rw [if_neg hlt, if_neg (by omega), shiftBy_shiftBy, Nat.add_assoc]
  fun_induction gapLength cs generalizing n with
  | case1 =>
    cases h
    refine ⟨Nat.le_refl 0, ?_⟩
    have hblank : Text.isBlank '\n' = true := by decide
    rw [List.nil_append, gapLength]
    · rw [if_pos hblank]
      rfl
    · rintro _ ⟨⟩
    · rintro _ ⟨⟩
  | case2 rest k =>
    rename_i ih
    obtain ⟨m, hm, rfl⟩ := shiftBy_eq_ok h
    have hk : k ≤ rest.length := (List.takeWhile_prefix _).length_le
    have hline := takeWhile_append_stop (p := (· != '\n')) (w := '\n') (by decide) rest next
    have hrest := shift (k := 2 + k) (ih hm)
    have hlength : 2 + k + (rest.drop k).length = ('/' :: '/' :: rest).length := by
      rw [List.length_drop, List.length_cons, List.length_cons]
      omega
    rw [hlength, ← List.drop_append_of_le_length hk] at hrest
    rw [List.cons_append, List.cons_append, gapLength, hline]
    exact hrest
  | case3 rest hnone => cases h
  | case4 rest k hsome ih =>
    obtain ⟨m, hm, rfl⟩ := shiftBy_eq_ok h
    obtain ⟨hk, hmore⟩ := blockCommentLength?_append hsome ('\n' :: next)
    have hrest := shift (k := 2 + k) (ih hm)
    have hlength : 2 + k + (rest.drop k).length = ('/' :: '*' :: rest).length := by
      rw [List.length_drop, List.length_cons, List.length_cons]
      omega
    rw [hlength, ← List.drop_append_of_le_length hk] at hrest
    rw [List.cons_append, List.cons_append, gapLength, hmore]
    exact hrest
  | case5 c rest hline hblock hblank ih =>
    obtain ⟨m, hm, rfl⟩ := shiftBy_eq_ok h
    have hrest := shift (k := 1) (ih hm)
    rw [Nat.add_comm 1 rest.length] at hrest
    rw [List.cons_append, gapLength, if_pos hblank]
    · exact hrest
    · rintro _ rfl
      exact absurd hblank (by decide)
    · rintro _ rfl
      exact absurd hblank (by decide)
  | case6 c rest hline hblock hblank =>
    cases h
    refine ⟨Nat.zero_le _, ?_⟩
    rw [if_pos (by simp), List.cons_append, gapLength, if_neg hblank]
    -- a slash at the end of the text is not made a comment by the line break
    · rintro after rfl hafter
      cases rest with
      | nil => cases hafter
      | cons d rest =>
        cases hafter
        exact hline rest rfl rfl
    · rintro after rfl hafter
      cases rest with
      | nil => cases hafter
      | cons d rest =>
        cases hafter
        exact hblock rest rfl rfl

/-! ## The tokens of a text -/

/-- The gap in front of the first of some tokens, with more before it. -/
def widen (gap : List Char) : List Token → List Token
  | [] => []
  | t :: rest => { t with gap := String.ofList gap ++ t.gap } :: rest

/-- What is read behind a gap. -/
def readBehind (p : Position) (gap : List Char) : List Char → Except LexError (List Token)
  | [] => .ok []
  | c :: rest =>
    match readToken c rest with
    | .error fault => .error ⟨p.advance gap, fault⟩
    | .ok (kind, more) =>
      (tokensFrom ((p.advance gap).advance (c :: rest.take more)) (rest.drop more)).map
        (⟨String.ofList gap, String.ofList (c :: rest.take more), kind, p.advance gap⟩ :: ·)

theorem tokensFrom_eq_readBehind (p : Position) {cs : List Char} {n : Nat} (h : gapLength cs = .ok n) :
    tokensFrom p cs = readBehind p (cs.take n) (cs.drop n) := by
  rw [tokensFrom, h]
  simp only
  split
  · rename_i hdrop
    rw [hdrop]
    rfl
  · rename_i c rest hdrop
    rw [hdrop]
    rfl

/-- A gap in front of a text goes to the gap of its first token. -/
theorem tokensFrom_gap (p : Position) {gap next : List Char}
    (h : gapLength (gap ++ next) = shiftBy gap.length (gapLength next)) :
    tokensFrom p (gap ++ next) = (tokensFrom (p.advance gap) next).map (widen gap) := by
  cases hnext : gapLength next with
  | error n =>
    rw [hnext, shiftBy] at h
    rw [tokensFrom, tokensFrom, h, hnext]
    simp [Except.map, List.take_length_add_append]
  | ok n =>
    rw [hnext, shiftBy] at h
    rw [tokensFrom_eq_readBehind p h, tokensFrom_eq_readBehind _ hnext, List.take_length_add_append,
      List.drop_length_add_append]
    cases next.drop n with
    | nil => rfl
    | cons c rest =>
      simp only [readBehind, Position.advance_append]
      cases readToken c rest with
      | error fault => rfl
      | ok r =>
        obtain ⟨kind, more⟩ := r
        simp only
        cases tokensFrom (((p.advance gap).advance (next.take n)).advance (c :: rest.take more))
          (rest.drop more) with
        | error e => rfl
        | ok ts => simp [Except.map, widen]

/-- The tokens of a text are the first tokens of a longer one, and the last gap goes on behind the line
break. -/
theorem tokensFrom_append_newline {p : Position} {cs : List Char} {ts : List Token}
    (h : tokensFrom p cs = .ok ts) (next : List Char) :
    ∃ gap, tokensFrom p (cs ++ '\n' :: next) =
      (tokensFrom (p.advance (cs ++ ['\n'])) next).map (ts ++ widen gap ·) := by
  fun_induction tokensFrom p cs generalizing ts with
  | case1 p cs n hgap => cases h
  | case2 p cs n hgap hdrop =>
    cases h
    obtain ⟨hle, hmore⟩ := gapLength_append_newline hgap next
    have hn : n = cs.length := Nat.le_antisymm hle (List.drop_eq_nil_iff.mp hdrop)
    rw [hn, if_neg (Nat.lt_irrefl _)] at hmore
    refine ⟨cs ++ ['\n'], ?_⟩
    have hlong : cs ++ '\n' :: next = cs ++ ['\n'] ++ next := by simp
    rw [hlong] at hmore ⊢
    rw [tokensFrom_gap p (by rw [hmore, List.length_append]; rfl)]
    rfl
  | case3 p cs n hgap gap start c rest hdrop fault hread => cases h
  | case4 p cs n hgap gap start c rest hdrop _ kind more hread text token =>
    rename_i ih
    obtain ⟨us, hus, rfl⟩ := eq_ok_of_map h
    obtain ⟨last, hrest⟩ := ih hus
    have hlt : n < cs.length := by
      have hlength := congrArg List.length hdrop
      rw [List.length_drop, List.length_cons] at hlength
      omega
    obtain ⟨hle, hgap'⟩ := gapLength_append_newline hgap next
    rw [if_pos hlt] at hgap'
    obtain ⟨hmore, hread'⟩ := readToken_append_blank (w := '\n') (by decide) hread next
    -- the reader comes to the same place behind the token, and so to the same place at the end
    have hend : ((start.advance text).advance (rest.drop more ++ ['\n'])) = p.advance (cs ++ ['\n']) := by
      have hcs : cs = gap ++ (text ++ rest.drop more) := by
        rw [List.cons_append, List.take_append_drop, ← hdrop, List.take_append_drop]
      rw [hcs]
      simp [start]
    refine ⟨last, ?_⟩
    rw [tokensFrom_eq_readBehind p hgap', List.take_append_of_le_length hle,
      List.drop_append_of_le_length hle, hdrop, List.cons_append]
    simp only [readBehind, hread', List.take_append_of_le_length hmore,
      List.drop_append_of_le_length hmore]
    rw [hrest, hend]
    cases tokensFrom (p.advance (cs ++ ['\n'])) next with
    | error e => rfl
    | ok vs => rfl

/-- The tokens of a text are the same up to positions wherever it begins. -/
theorem tokensFrom_bare {p : Position} {cs : List Char} {ts : List Token} (h : tokensFrom p cs = .ok ts)
    (q : Position) : ∃ us, tokensFrom q cs = .ok us ∧ us.map Token.bare = ts.map Token.bare := by
  fun_induction tokensFrom p cs generalizing ts q with
  | case1 p cs n hgap => cases h
  | case2 p cs n hgap hdrop =>
    cases h
    refine ⟨[], ?_, rfl⟩
    rw [tokensFrom_eq_readBehind q hgap, hdrop]
    rfl
  | case3 p cs n hgap gap start c rest hdrop fault hread => cases h
  | case4 p cs n hgap gap start c rest hdrop _ kind more hread text token =>
    rename_i ih
    obtain ⟨us, hus, rfl⟩ := eq_ok_of_map h
    obtain ⟨vs, hvs, hbare⟩ := ih hus ((q.advance gap).advance text)
    refine ⟨⟨String.ofList gap, String.ofList text, kind, q.advance gap⟩ :: vs, ?_, ?_⟩
    · rw [tokensFrom_eq_readBehind q hgap, hdrop]
      simp only [readBehind, hread]
      rw [hvs]
      rfl
    · rw [List.map_cons, List.map_cons, hbare]
      rfl

end SpecForest.Source

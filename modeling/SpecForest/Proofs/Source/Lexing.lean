import SpecForest.Proofs.Source.Placement
import SpecForest.Proofs.Source.Spelling
import SpecForest.Source.Lexer

/-!
# Reading what was written token by token

One step of the reader, for each kind of token: given what follows, the text of a token is read as that
token and nothing more. Steps are put together by `Reads`, which says that a stretch of text is read as
some trees whatever comes before it, and given what comes next. Positions are left out: a *bare* token has
none.
-/

namespace SpecForest.Source

/-- A token without a position, from its characters. -/
def bareToken (gap text : List Char) (kind : TokenKind) : Token :=
  ⟨String.ofList gap, String.ofList text, kind, .start⟩

/-! ## Classes of characters -/

/-- The ranges of two lists have no number in common. -/
def disjointRanges (a b : List (Nat × Nat)) : Bool :=
  a.all fun r => b.all fun q => decide (r.2 < q.1) || decide (q.2 < r.1)

theorem not_inRanges_of_disjoint {a b : List (Nat × Nat)} (h : disjointRanges a b = true) {n : Nat}
    (hn : Text.inRanges a n = true) : Text.inRanges b n = false := by
  simp only [Text.inRanges, List.any_eq_true, Bool.and_eq_true, decide_eq_true_eq] at hn
  obtain ⟨r, hr, hlow, hhigh⟩ := hn
  simp only [Text.inRanges, List.any_eq_false, Bool.and_eq_true, decide_eq_true_eq]
  intro q hq
  simp only [disjointRanges, List.all_eq_true, Bool.or_eq_true, decide_eq_true_eq] at h
  have := h r hr q hq
  omega

/-- A blank begins no name. -/
theorem startsName_of_isBlank {c : Char} (h : Text.isBlank c = true) : startsName c = false := by
  by_cases hc : c.toNat < 0x80
  · have hall : ∀ n < 0x80, Text.isBlank (Char.ofNat n) = true → startsName (Char.ofNat n) = false := by
      decide
    have hthis := hall c.toNat hc
    rw [Char.ofNat_toNat] at hthis
    exact hthis h
  · have hdisjoint : disjointRanges Text.blankRanges Text.alphabeticRanges = true := by decide +kernel
    have hrange := not_inRanges_of_disjoint hdisjoint h
    have hunderscore : c ≠ '_' := by
      rintro rfl
      exact hc (by decide)
    simp only [startsName, Text.isAlphabetic, beq_eq_false_iff_ne.mpr hunderscore, Bool.false_or,
      if_neg hc, hrange]

/-- The characters that begin a token of their own kind, and the slash, which can begin a comment. -/
def specialChars : List Char :=
  ['(', '\x7b', '[', ')', '\x7d', ']', ',', '"', '\x60', '\'', '.', '/']

theorem toNat_lt_of_isDigit {c : Char} (h : c.isDigit = true) : c.toNat < 0x80 := by
  simp only [Char.isDigit, Bool.and_eq_true, decide_eq_true_eq] at h
  have : c.val.toNat ≤ 57 := by simpa using UInt32.le_iff_toNat_le.mp h.2
  exact Nat.lt_of_le_of_lt this (by decide)

/-- The decimal digits. -/
def digitChars : List Char := ['0', '1', '2', '3', '4', '5', '6', '7', '8', '9']

theorem mem_digitChars {c : Char} (h : c.isDigit = true) : c ∈ digitChars := by
  have hall : ∀ n < 0x80, (Char.ofNat n).isDigit = true → Char.ofNat n ∈ digitChars := by decide
  have hthis := hall c.toNat (toNat_lt_of_isDigit h)
  rw [Char.ofNat_toNat] at hthis
  exact hthis h

/-- A property of every digit can be tested digit by digit. -/
theorem of_isDigit {P : Char → Prop} [DecidablePred P] (h : digitChars.all (fun d => decide (P d)) = true)
    {c : Char} (hc : c.isDigit = true) : P c :=
  of_decide_eq_true (List.all_eq_true.mp h c (mem_digitChars hc))

/-- A name begins with no digit and no special character. -/
theorem not_special_of_startsName {c : Char} (h : startsName c = true) :
    c.isDigit = false ∧ c ∉ specialChars := by
  by_cases hc : c.toNat < 0x80
  · have hall : ∀ n < 0x80, startsName (Char.ofNat n) = true →
        (Char.ofNat n).isDigit = false ∧ Char.ofNat n ∉ specialChars := by
      decide
    have hthis := hall c.toNat hc
    rw [Char.ofNat_toNat] at hthis
    exact hthis h
  · constructor
    · cases hd : c.isDigit with
      | false => rfl
      | true => exact absurd (toNat_lt_of_isDigit hd) hc
    · intro hmem
      have hall : specialChars.all (fun d => decide (d.toNat < 0x80)) = true := by decide
      exact hc (of_decide_eq_true (List.all_eq_true.mp hall c hmem))

/-- A digit is neither a blank nor a special character. -/
theorem not_special_of_isDigit {c : Char} (h : c.isDigit = true) :
    Text.isBlank c = false ∧ c ∉ specialChars :=
  of_isDigit (P := fun d => Text.isBlank d = false ∧ d ∉ specialChars) (by decide) h

/-! ## Tokens -/

theorem readToken_name {c : Char} (h : startsName c = true) (rest : List Char) :
    readToken c rest = .ok (.name, (rest.takeWhile continuesName).length) := by
  obtain ⟨hdigit, hspecial⟩ := not_special_of_startsName h
  simp only [specialChars, List.mem_cons, not_or] at hspecial
  simp [readToken, hspecial, hdigit, h]

theorem readToken_digit {c : Char} (h : c.isDigit = true) (rest : List Char) :
    readToken c rest = .ok (readNumber c rest) := by
  have hspecial := (not_special_of_isDigit h).2
  simp only [specialChars, List.mem_cons, not_or] at hspecial
  simp [readToken, hspecial, h]

/-- The next character, if there is one, cannot go on with a name. -/
def EndsName (next : List Char) : Prop := ∀ c ∈ next.head?, continuesName c = false

/-- The next character, if there is one, cannot go on with a number. -/
def EndsNumber (next : List Char) : Prop :=
  ∀ c ∈ next.head?, c.isAlphanum = false ∧ c ≠ '_' ∧ c ≠ '.'

theorem takeWhile_append_of_head {p : Char → Bool} {cs next : List Char} (hcs : ∀ d ∈ cs, p d = true)
    (hnext : ∀ c ∈ next.head?, p c = false) : (cs ++ next).takeWhile p = cs := by
  rw [List.takeWhile_append_of_pos hcs]
  cases next with
  | nil => simp
  | cons c rest => rw [List.takeWhile_cons_of_neg (by simp [hnext c rfl]), List.append_nil]

theorem isExponentMark_of_isDigit {c : Char} (h : c.isDigit = true) (hex : Bool) : isExponentMark hex c = false := by
  cases hex with
  | false => exact of_isDigit (P := fun d => isExponentMark false d = false) (by decide) h
  | true => exact of_isDigit (P := fun d => isExponentMark true d = false) (by decide) h

theorem beq_dot_of_isDigit {c : Char} (h : c.isDigit = true) : (c == '.') = false :=
  of_isDigit (P := fun d => (d == '.') = false) (by decide) h

/-- Whether a character goes on with an integer: an underscore, a digit or a letter that marks no exponent. -/
def continuesInteger (hex : Bool) (c : Char) : Bool :=
  (c.isAlphanum || c == '_') && !isExponentMark hex c

theorem continuesInteger_of_isDigit {c : Char} (h : c.isDigit = true) (hex : Bool) :
    continuesInteger hex c = true := by
  simp [continuesInteger, Char.isAlphanum, h, isExponentMark_of_isDigit h]

/-- What goes on with an integer is in it, and leaves it an integer. -/
theorem numberTail_cons {hex : Bool} {before c : Char} (hbefore : isExponentMark hex before = false)
    (hc : continuesInteger hex c = true) (rest : List Char) :
    numberTail hex false before (c :: rest) =
      ((numberTail hex false c rest).1, (numberTail hex false c rest).2 + 1) := by
  simp only [continuesInteger, Bool.and_eq_true, Bool.not_eq_true'] at hc
  have hdot : (c == '.') = false := by
    refine beq_eq_false_iff_ne.mpr ?_
    rintro rfl
    exact absurd hc.1 (by decide)
  simp [numberTail, hc, hdot, hbefore]

theorem isExponentMark_of_continuesInteger {hex : Bool} {c : Char} (h : continuesInteger hex c = true) :
    isExponentMark hex c = false := by
  simp only [continuesInteger, Bool.and_eq_true, Bool.not_eq_true'] at h
  exact h.2

/-- An integer ends in front of the first character that cannot go on with a number. -/
theorem numberTail_integer {hex : Bool} {before : Char} {cs next : List Char}
    (hbefore : isExponentMark hex before = false) (hcs : ∀ c ∈ cs, continuesInteger hex c = true)
    (hnext : EndsNumber next) : numberTail hex false before (cs ++ next) = (false, cs.length) := by
  induction cs generalizing before with
  | nil =>
    cases next with
    | nil => rfl
    | cons c rest =>
      obtain ⟨halnum, hunderscore, hdot⟩ := hnext c rfl
      simp [numberTail, halnum, hunderscore, hdot, hbefore]
  | cons c cs ih =>
    have hc := hcs c List.mem_cons_self
    rw [List.cons_append, numberTail_cons hbefore hc, ih (isExponentMark_of_continuesInteger hc)
      fun d hd => hcs d (List.mem_cons_of_mem c hd)]
    rfl

/-- A digit and what goes on with an integer are one, up to the first character that cannot go on with a number. -/
theorem readToken_integer {c : Char} {cs next : List Char} (hc : c.isDigit = true)
    (hcs : ∀ d ∈ cs, continuesInteger (startsHex c (cs ++ next)) d = true) (hnext : EndsNumber next) :
    readToken c (cs ++ next) = .ok (.integer, cs.length) := by
  rw [readToken_digit hc, readNumber, beq_dot_of_isDigit hc,
    numberTail_integer (isExponentMark_of_isDigit hc _) hcs hnext]
  rfl

theorem readToken_digits {c : Char} {cs next : List Char} (hc : c.isDigit = true)
    (hcs : ∀ d ∈ cs, d.isDigit = true) (hnext : EndsNumber next) :
    readToken c (cs ++ next) = .ok (.integer, cs.length) :=
  readToken_integer hc (fun d hd => continuesInteger_of_isDigit (hcs d hd) _) hnext

/-! ## Gaps -/

/-- A character that begins a token: no blank and no slash. -/
def BeginsToken (c : Char) : Prop := Text.isBlank c = false ∧ c ≠ '/'

theorem beginsToken_of_startsName {c : Char} (h : startsName c = true) : BeginsToken c := by
  constructor
  · cases hblank : Text.isBlank c with
    | false => rfl
    | true => rw [startsName_of_isBlank hblank] at h; cases h
  · have hspecial := (not_special_of_startsName h).2
    simp only [specialChars, List.mem_cons, not_or] at hspecial
    exact hspecial.2.2.2.2.2.2.2.2.2.2.2.1

theorem beginsToken_of_isDigit {c : Char} (h : c.isDigit = true) : BeginsToken c := by
  obtain ⟨hblank, hspecial⟩ := not_special_of_isDigit h
  simp only [specialChars, List.mem_cons, not_or] at hspecial
  exact ⟨hblank, hspecial.2.2.2.2.2.2.2.2.2.2.2.1⟩

/-- Blanks in front of a token are a gap. -/
theorem gapLength_blanks {gap : List Char} (hgap : ∀ c ∈ gap, Text.isBlank c = true) {c : Char}
    (hc : BeginsToken c) (rest : List Char) : gapLength (gap ++ c :: rest) = .ok gap.length := by
  induction gap with
  | nil =>
    rw [List.nil_append, gapLength]
    · simp [hc.1]
    · rintro r rfl
      exact absurd rfl hc.2
    · rintro r rfl
      exact absurd rfl hc.2
  | cons b gap ih =>
    have hb := hgap b List.mem_cons_self
    have hslash : b ≠ '/' := by
      rintro rfl
      exact absurd hb (by decide)
    rw [List.cons_append, gapLength]
    · rw [if_pos hb, ih fun d hd => hgap d (List.mem_cons_of_mem b hd), shiftBy, List.length_cons,
        Nat.add_comm]
    · rintro r rfl
      exact absurd rfl hslash
    · rintro r rfl
      exact absurd rfl hslash

/-! ## One step of the reader -/

theorem tokensFrom_step (p : Position) {gap text next : List Char} {c : Char} {kind : TokenKind}
    (hgap : gapLength (gap ++ c :: (text ++ next)) = .ok gap.length)
    (htoken : readToken c (text ++ next) = .ok (kind, text.length)) :
    tokensFrom p (gap ++ c :: (text ++ next)) =
      (tokensFrom ((p.advance gap).advance (c :: text)) next).map
        (⟨String.ofList gap, String.ofList (c :: text), kind, p.advance gap⟩ :: ·) := by
  rw [tokensFrom, hgap]
  simp only [List.take_left]
  split
  · rename_i h
    simp at h
  · rename_i d rest h
    rw [List.drop_left] at h
    cases h
    simp only [htoken, List.take_left, List.drop_left]

@[simp] theorem Position.advance_append (p : Position) (a b : List Char) :
    p.advance (a ++ b) = (p.advance a).advance b := by
  simp [Position.advance]

@[simp] theorem Position.advance_nil (p : Position) : p.advance [] = p := rfl

/-- A stretch of text is read as some trees, wherever it begins and given what comes next. -/
def Reads (text : List Char) (trees : List TokenTree) (next : List Char) : Prop :=
  ∀ p, ∃ ts, ts.map Token.bare = TokenTree.allTokens trees ∧
    tokensFrom p (text ++ next) = (tokensFrom (p.advance text) next).map (ts ++ ·)

theorem map_map_append {α : Type} (r : Except LexError (List α)) (a b : List α) :
    (r.map (b ++ ·)).map (a ++ ·) = r.map ((a ++ b) ++ ·) := by
  cases r with
  | error e => rfl
  | ok ts => simp [Except.map]

namespace Reads

theorem nil (next : List Char) : Reads [] [] next := fun p =>
  ⟨[], rfl, by cases h : tokensFrom p next <;> simp [Except.map, h]⟩

theorem append {a b next : List Char} {as bs : List TokenTree} (ha : Reads a as (b ++ next))
    (hb : Reads b bs next) : Reads (a ++ b) (as ++ bs) next := by
  intro p
  obtain ⟨ts, hts, hta⟩ := ha p
  obtain ⟨us, hus, htb⟩ := hb (p.advance a)
  refine ⟨ts ++ us, by rw [List.map_append, hts, hus, allTokens_append], ?_⟩
  rw [List.append_assoc, hta, htb, map_map_append, Position.advance_append]

/-- A token behind some blanks. -/
theorem token {gap text next : List Char} {c : Char} {kind : TokenKind}
    (hgap : ∀ d ∈ gap, Text.isBlank d = true) (hc : BeginsToken c)
    (htoken : readToken c (text ++ next) = .ok (kind, text.length)) :
    Reads (gap ++ c :: text) [.token (bareToken gap (c :: text) kind)] next := by
  intro p
  refine ⟨[⟨String.ofList gap, String.ofList (c :: text), kind, p.advance gap⟩], rfl, ?_⟩
  rw [List.append_assoc, List.cons_append, tokensFrom_step p (gapLength_blanks hgap hc _) htoken,
    Position.advance_append]
  rfl

/-- Something in brackets, each bracket behind some blanks. -/
theorem group {before inner after next : List Char} {d : Delimiter} {trees : List TokenTree}
    (hbefore : ∀ c ∈ before, Text.isBlank c = true) (hafter : ∀ c ∈ after, Text.isBlank c = true)
    (hinner : Reads inner trees (after ++ d.closer :: next)) :
    Reads (before ++ d.opener :: (inner ++ (after ++ [d.closer])))
      [.group (bareToken before [d.opener] (.opening d)) (bareToken after [d.closer] (.closing d)) d trees]
      next := by
  have hopen : Reads (before ++ [d.opener])
      [.token (bareToken before [d.opener] (.opening d))] (inner ++ (after ++ [d.closer]) ++ next) :=
    token hbefore (by cases d <;> exact ⟨by decide, by decide⟩) (by cases d <;> rfl)
  have hclose : Reads (after ++ [d.closer]) [.token (bareToken after [d.closer] (.closing d))] next :=
    token hafter (by cases d <;> exact ⟨by decide, by decide⟩) (by cases d <;> rfl)
  have hrest : Reads (inner ++ (after ++ [d.closer]))
      (trees ++ [.token (bareToken after [d.closer] (.closing d))]) next :=
    append (by simpa using hinner) hclose
  intro p
  obtain ⟨ts, hts, hread⟩ := append hopen hrest p
  refine ⟨ts, ?_, ?_⟩
  · rw [hts]
    simp [TokenTree.allTokens, TokenTree.tokens, allTokens_append]
  · simpa using hread

section

variable {gap next : List Char} (hgap : ∀ d ∈ gap, Text.isBlank d = true)

include hgap

theorem name {c : Char} {cs : List Char} (hc : startsName c = true)
    (hcs : ∀ d ∈ cs, continuesName d = true) (hnext : EndsName next) :
    Reads (gap ++ c :: cs) [.token (bareToken gap (c :: cs) .name)] next :=
  token hgap (beginsToken_of_startsName hc)
    (by rw [readToken_name hc, takeWhile_append_of_head hcs hnext])

theorem digits {c : Char} {cs : List Char} (hc : c.isDigit = true) (hcs : ∀ d ∈ cs, d.isDigit = true)
    (hnext : EndsNumber next) : Reads (gap ++ c :: cs) [.token (bareToken gap (c :: cs) .integer)] next :=
  token hgap (beginsToken_of_isDigit hc) (readToken_digits hc hcs hnext)

theorem comma : Reads (gap ++ [',']) [.token (bareToken gap [','] .comma)] next :=
  token hgap ⟨by decide, by decide⟩ rfl

theorem minus : Reads (gap ++ ['-']) [.token (bareToken gap ['-'] (.symbol '-'))] next :=
  token hgap ⟨by decide, by decide⟩ rfl

/-- A dot in front of a name is a token of its own. -/
theorem dot {c : Char} {cs : List Char} (hc : startsName c = true) :
    Reads (gap ++ ['.']) [.token (bareToken gap ['.'] (.symbol '.'))] (c :: cs) := by
  refine token hgap ⟨by decide, by decide⟩ ?_
  obtain ⟨hdigit, hspecial⟩ := not_special_of_startsName hc
  simp only [specialChars, List.mem_cons, not_or] at hspecial
  have hstart : startsName '.' = false := by decide
  have hdot : ('.' : Char).isDigit = false := by decide
  simp [readToken, hspecial, hdigit, hstart, hdot]

theorem interpreted {cs text : List Char} (h : SpellsAll '"' cs text) :
    Reads (gap ++ '"' :: (text ++ ['"']))
      [.token (bareToken gap ('"' :: (text ++ ['"'])) (.string (String.ofList cs)))] next := by
  refine token hgap ⟨by decide, by decide⟩ ?_
  have hread := readString_of_spellsAll h next
  simp only [List.append_assoc, List.singleton_append, readToken, hread, Except.map,
    List.length_append, List.length_cons, List.length_nil]

theorem raw {cs : List Char} (hquote : '\x60' ∉ cs) (hreturn : '\r' ∉ cs) :
    Reads (gap ++ '\x60' :: (cs ++ ['\x60']))
      [.token (bareToken gap ('\x60' :: (cs ++ ['\x60'])) (.string (String.ofList cs)))] next := by
  refine token hgap ⟨by decide, by decide⟩ ?_
  have hread := readRawString_append hquote hreturn next
  simp only [List.append_assoc, List.singleton_append, readToken, hread, Except.map,
    List.length_append, List.length_cons, List.length_nil]

end

end Reads

theorem tokensFrom_blanks (p : Position) {blanks : List Char}
    (h : ∀ c ∈ blanks, Text.isBlank c = true) : tokensFrom p blanks = .ok [] := by
  have hgap : gapLength blanks = .ok blanks.length := by
    induction blanks with
    | nil => rw [gapLength]; rfl
    | cons b rest ih =>
      have hb := h b List.mem_cons_self
      have hslash : b ≠ '/' := by
        rintro rfl
        exact absurd hb (by decide)
      rw [gapLength]
      · rw [if_pos hb, ih fun d hd => h d (List.mem_cons_of_mem b hd), shiftBy, List.length_cons,
          Nat.add_comm]
      · rintro r rfl
        exact absurd rfl hslash
      · rintro r rfl
        exact absurd rfl hslash
  rw [tokensFrom, hgap]
  simp only
  split
  · rfl
  · rename_i c rest hdrop
    simp at hdrop

/-- A text that is read as some trees, with blanks behind it, has the tokens of those trees. -/
theorem tokens_of_reads {text blanks : List Char} {trees : List TokenTree}
    (hblanks : ∀ c ∈ blanks, Text.isBlank c = true) (h : Reads text trees blanks) :
    ∃ ts, ts.map Token.bare = TokenTree.allTokens trees ∧
      tokens (String.ofList (text ++ blanks)) = .ok ts := by
  obtain ⟨ts, hts, hread⟩ := h .start
  refine ⟨ts, hts, ?_⟩
  rw [tokens, String.toList_ofList, hread, tokensFrom_blanks _ hblanks]
  simp [Except.map]

end SpecForest.Source
